import DuplexRelay.Proofs.Pipe.Datagram
import DuplexRelay.Proofs.Pipe.Outlook

/-! The laws of a datagram pipe, given those of the atomic pipe below it. -/

namespace DuplexRelay

open Outlook (LeavesUsable)

namespace Datagram

/-- The bytes begin with a complete datagram. -/
def complete (bytes : Bytes) : Bool :=
  match Varint.parse bytes with
  | .ok (some header) => header.length + header.size ≤ bytes.length
  | _ => false

@[simp] theorem complete_nil : complete [] = false := rfl

theorem complete_of_firstFrame {limit : Nat} {bytes : Bytes}
    (h : firstFrame limit bytes = .ok none) : complete bytes = false := by
  unfold firstFrame at h
  unfold complete
  cases hp : Varint.parse bytes with
  | error e => rfl
  | ok found =>
    cases found with
    | none => rfl
    | some header =>
      simp only [hp] at h
      split at h
      · cases h
      split at h
      · rename_i hlt
        simpa using hlt
      · cases h

theorem hasComplete_eq {P : Type} (p : Datagram P) : p.hasComplete = complete p.assembled := by
  unfold hasComplete complete assembled
  cases p.assembly with
  | none => rfl
  | some assembly => rfl

variable {P : Type} [HasPipeState P]

def View.shown (v : View P) : PipeState :=
  let s := state v.inner
  PipeState.normalized { s with
    broken := s.broken || v.broken
    readable := s.readable || complete v.assembled }

theorem state_eq (p : Datagram P) : state p = p.view.shown := by
  change PipeState.normalized { state p.inner with
    broken := (state p.inner).broken || p.broken
    readable := (state p.inner).readable || p.hasComplete } = _
  rw [hasComplete_eq]
  rfl

/-- The framing is intact, and nothing complete is held where nothing more can be received. -/
structure View.Regular (o : Outlook (Atomic P)) (v : View P) : Prop where
  inner : o.regular v.inner
  intact : v.broken = false
  unended : (state v.inner).finRcvd = true → complete v.assembled = false
  connecting : (state v.inner).ready = false → complete v.assembled = false

/-- What is known of a datagram pipe. -/
def outlook (o : Outlook (Atomic P)) : Outlook (Datagram P) where
  base p := o.base p.inner
  regular p := p.view.Regular o
  closing p := o.closing p.inner
  holding p := o.holding p.inner

theorem View.isReadable_shown {v : View P} (hi : (state v.inner).broken = false)
    (hb : v.broken = false) :
    v.shown.isReadable = ((state v.inner).isReadable || complete v.assembled) := by
  simp [View.shown, PipeState.normalized, PipeState.isReadable, hi, hb]

theorem View.isWritable_shown {v : View P} (hi : (state v.inner).broken = false)
    (hb : v.broken = false) : v.shown.isWritable = (state v.inner).isWritable := by
  simp [View.shown, PipeState.normalized, PipeState.isWritable, hi, hb]

end Datagram

namespace Datagram

variable {P N C : Type} [Sockets N] [Pipe P (Host N C) C] {o : Outlook (Atomic P)}
  {p p' : Datagram P} {v v' : View P} {w w' : Host N C}

theorem View.Regular.isReadable (hr : v.Regular o) (ho : o.Lawful (N := N) (C := C)) :
    v.shown.isReadable = ((state v.inner).isReadable || complete v.assembled) :=
  View.isReadable_shown (ho.unbroken hr.inner).1 hr.intact

theorem View.Regular.isWritable (hr : v.Regular o) (ho : o.Lawful (N := N) (C := C)) :
    v.shown.isWritable = (state v.inner).isWritable :=
  View.isWritable_shown (ho.unbroken hr.inner).1 hr.intact

/-- Where anything can be received, the connection is established and the stream did not end. -/
theorem View.Regular.flowing (hr : v.Regular o) (ho : o.Lawful (N := N) (C := C))
    (hp : v.shown.isReadable = true) :
    (state v.inner).ready = true ∧ (state v.inner).finRcvd = false := by
  rw [hr.isReadable ho, Bool.or_eq_true] at hp
  rcases hp with hp | hp
  · exact ho.flowing hr.inner hp
  · constructor
    · cases hready : (state v.inner).ready with
      | true => rfl
      | false => simp [hr.connecting hready] at hp
    · cases hfin : (state v.inner).finRcvd with
      | false => rfl
      | true => simp [hr.unended hfin] at hp

theorem view_received (ho : o.Lawful (N := N) (C := C)) {room : Nat} {result : PipeResult Recv}
    (hr : v.Regular o) (hp : v.shown.isReadable = true) (h : Received room v w result v' w')
    (hm : LeavesUsable result) :
    v'.Regular o ∧ v'.shown.isWritable = v.shown.isWritable ∧
      (state v'.inner).ready = (state v.inner).ready ∧
      ((state v'.inner).finRcvd = true → result = .ok .fin) ∧
      (o.closing v'.inner ↔ o.closing v.inner) := by
  obtain ⟨hready, hfin⟩ := hr.flowing ho hp
  -- a receive goes to the pipe below only where nothing complete is held
  have hbelow : firstFrame (min v.maxSize room) v.assembled = .ok none →
      (state v.inner).isReadable = true := by
    intro hf
    rwa [hr.isReadable ho, complete_of_firstFrame hf, Bool.or_false] at hp
  have hfinish : ∀ {n : Nat} {answer : PipeResult Recv} {inner : Atomic P} {assembled : Bytes},
      (state v.inner).isReadable = true → Pipe.recv n v.inner w = .ok (answer, inner, w') →
      LeavesUsable answer → (answer = .ok .fin → result = .ok .fin ∧ assembled = []) →
      v' = { v with inner, assembled } →
      v'.Regular o ∧ v'.shown.isWritable = v.shown.isWritable ∧
        (state v'.inner).ready = (state v.inner).ready ∧
        ((state v'.inner).finRcvd = true → result = .ok .fin) ∧
        (o.closing v'.inner ↔ o.closing v.inner) := by
    rintro n answer inner assembled hreadable hrecv hmild hended rfl
    have hi := ho.recv hr.inner hreadable hrecv hmild
    have hr' : View.Regular o { v with inner, assembled } := by
      refine ⟨hi.regular, hr.intact, ?_, ?_⟩
      · intro hf
        rw [(hended (hi.ended hf)).2]
        rfl
      · intro hn
        rw [hi.ready, hready] at hn
        cases hn
    refine ⟨hr', ?_, hi.ready, fun hf => (hended (hi.ended hf)).1, hi.closing⟩
    rw [hr'.isWritable ho, hr.isWritable ho]
    exact hi.writable
  cases h with
  | broken => cases hm _ rfl
  | @found payload rest hb hi hf =>
    have hr' : View.Regular o { v with assembled := rest } := by
      refine ⟨hr.inner, hr.intact, ?_, ?_⟩
      · simp [hfin]
      · simp [hready]
    refine ⟨hr', ?_, rfl, ?_, Iff.rfl⟩
    · rw [hr'.isWritable ho, hr.isWritable ho]
    · simp [hfin]
  | violated => cases hm _ rfl
  | refused hb hi hf hrecv =>
    exact hfinish (hbelow hf) hrecv (fun e he => hm e (by cases he; rfl)) (fun he => by cases he)
      rfl
  | incomplete hb hi hf hrecv =>
    exact hfinish (hbelow hf) hrecv (fun e he => by cases he) (fun he => by cases he) rfl
  | completed hb hi hf hrecv =>
    exact hfinish (hbelow hf) hrecv (fun e he => by cases he) (fun he => by cases he) rfl
  | corrupted => cases hm _ rfl
  | ended hb hi ha hrecv =>
    have hnone : firstFrame (min v.maxSize room) v.assembled = .ok none := by
      rw [ha]
      rfl
    exact hfinish (hbelow hnone) hrecv (fun e he => by cases he) (fun _ => ⟨rfl, ha⟩) rfl
  | cut => cases hm _ rfl

theorem sameIncoming {inner : Atomic P} (ho : o.Lawful (N := N) (C := C))
    (hr : p.view.Regular o) (hi : o.regular inner) (h : Outlook.SameIncoming p.inner inner) :
    ({ p with inner } : Datagram P).view.Regular o ∧
      Outlook.SameIncoming p { p with inner } := by
  have hr' : ({ p with inner } : Datagram P).view.Regular o := by
    refine ⟨hi, hr.intact, ?_, ?_⟩
    · intro hf
      exact hr.unended (h.finRcvd.symm.trans hf)
    · intro hn
      exact hr.connecting (h.ready.symm.trans hn)
  refine ⟨hr', ?_, h.ready, h.finRcvd⟩
  rw [state_eq, state_eq, hr'.isReadable ho, hr.isReadable ho]
  exact congrArg (· || complete p.assembled) h.readable

theorem outlook_received (ho : o.Lawful (N := N) (C := C)) {n : Nat} {result : PipeResult Recv}
    (hr : p.view.Regular o) (hp : (state p).isReadable = true)
    (h : Pipe.recv n p w = .ok (result, p', w')) (hm : LeavesUsable result) :
    (outlook o).Received p result p' := by
  rw [state_eq] at hp
  obtain ⟨hr', hwritable, hready, hended, hclosing⟩ := view_received ho hr hp (received h) hm
  refine ⟨hr', ?_, hready, hended, hclosing⟩
  rw [state_eq, state_eq]
  exact hwritable

theorem outlook_sent (ho : o.Lawful (N := N) (C := C)) {data : Bytes} {result : PipeResult Nat}
    (hr : p.view.Regular o) (hw : (state p).isWritable = true)
    (h : Pipe.send data p w = .ok (result, p', w')) (hm : LeavesUsable result) :
    (outlook o).Sent data.length p result p' := by
  rw [state_eq, hr.isWritable ho] at hw
  generalize hanswer : result = answer at h
  cases sent h with
  | broken => cases hm _ hanswer
  | excessive => cases hm _ hanswer
  | unframed => cases hm _ hanswer
  | waiting _ _ hn =>
    have hn : (state p.view.inner).isWritable = false := hn
    simp [hw] at hn
  | @passed framed below inner _ _ _ _ _ hsend =>
    have hmild : LeavesUsable below := by
      rintro e rfl
      exact hm e hanswer
    have hi := ho.send hr.inner hw hsend hmild
    obtain ⟨hr', hincoming⟩ := sameIncoming ho hr hi.regular hi.incoming
    refine ⟨hr', hincoming, hi.closing, ?_⟩
    intro hless
    rw [state_eq, hr'.isWritable ho]
    refine hi.full fun n hn => ?_
    -- the pipe below takes all of a frame or nothing
    exact absurd (hless data.length (by rw [hn]; rfl)) (Nat.lt_irrefl _)

theorem outlook_closed (ho : o.Lawful (N := N) (C := C)) {result : PipeResult FinStatus}
    (hr : p.view.Regular o) (h : Pipe.sendFin p w = .ok (result, p', w'))
    (hm : LeavesUsable result) : (∃ status, result = .ok status) ∧ (outlook o).Closed p p' := by
  have hintact : p.broken = false := hr.intact
  obtain ⟨hb, _⟩ | ⟨_, inner, hclose, rfl⟩ := closed h
  · exact absurd (hintact.symm.trans hb) Bool.false_ne_true
  obtain ⟨hdone, hi⟩ := ho.sendFin hr.inner hclose hm
  obtain ⟨hr', hincoming⟩ := sameIncoming ho hr hi.regular hi.incoming
  refine ⟨hdone, hr', hincoming, hi.closing, ?_⟩
  rw [state_eq, hr'.isWritable ho]
  exact hi.full

theorem outlook_noticed (ho : o.Lawful (N := N) (C := C)) {events : SocketEvents}
    {report : PipeEvents} (hr : p.view.Regular o)
    (h : Pipe.react events p w = .ok (report, p', w')) (hb : report.broken = false) :
    (outlook o).Noticed events p report p' := by
  obtain ⟨⟨below, inner, _⟩, hreact, h⟩ := Checked.bind_eq_ok_iff.mp h
  cases h
  have hintact : p.broken = false := hr.intact
  have hbelow : (if p.broken = true then .none else below) = below := if_neg (by simp [hintact])
  rw [hbelow] at hb ⊢
  have hi := ho.react hr.inner hreact hb
  have hr' : ({ p with inner } : Datagram P).view.Regular o := by
    refine ⟨hi.regular, hintact, ?_, ?_⟩
    · intro hf
      exact hr.unended (hi.finRcvd.symm.trans hf)
    · intro hn
      refine hr.connecting ?_
      cases hready : (state p.inner).ready with
      | false => exact hready
      | true => exact absurd (hn.symm.trans (hi.ready hready)) Bool.false_ne_true
  refine ⟨hr', hi.closing, hi.ready, hi.finRcvd, ?_, ?_, ?_, hi.told⟩
  · rw [state_eq, state_eq, hr'.isReadable ho, hr.isReadable ho, Bool.or_eq_true, Bool.or_eq_true]
    rintro (hread | hcomplete)
    · rcases hi.readable hread with hold | hreport
      · exact .inl (.inl hold)
      · exact .inr hreport
    · exact .inl (.inr hcomplete)
  · rw [state_eq, state_eq, hr'.isWritable ho, hr.isWritable ho]
    exact hi.writable
  · rw [state_eq, hr'.isWritable ho]
    exact hi.reported

theorem outlook_lawful (ho : o.Lawful (N := N) (C := C)) :
    (outlook o).Lawful (N := N) (C := C) where
  ready p := ho.ready p.inner
  finSent p := ho.finSent p.inner
  finRcvd p := ho.finRcvd p.inner
  unbroken := by
    intro p h
    obtain ⟨hi, hbase⟩ := ho.unbroken h.inner
    refine ⟨?_, hbase⟩
    rw [state_eq]
    simp [View.shown, PipeState.normalized, hi, h.intact]
  dry := by
    intro p h hd
    rw [state_eq, h.isReadable ho, Bool.or_eq_false_iff] at hd
    exact ho.dry h.inner hd.1
  full := by
    intro p h hf
    rw [state_eq, h.isWritable ho] at hf
    exact ho.full h.inner hf
  flowing := by
    intro p h hp
    rw [state_eq] at hp
    exact h.flowing ho hp
  shut := by
    intro p h hc
    rw [state_eq, h.isWritable ho]
    exact ho.shut h.inner hc
  closing h := ho.closing h
  held := by
    intro p h hh
    rw [state_eq, h.isWritable ho]
    exact ho.held h.inner hh
  attach := by
    intro callback p p' w w' result h
    obtain ⟨⟨_, inner, _⟩, hattach, h⟩ := Checked.bind_eq_ok_iff.mp h
    cases h
    obtain ⟨hi, hbase⟩ := ho.attach hattach
    have hshown : state inner = state p.inner := hi.shown
    refine ⟨⟨?_, ?_, hi.closing⟩, hbase⟩
    · rw [state_eq, state_eq]
      simp only [View.shown, view, assembled, hshown]
    · intro h
      refine ⟨hi.regular h.inner, h.intact, ?_, ?_⟩
      · intro hf
        exact h.unended ((congrArg PipeState.finRcvd hshown).symm.trans hf)
      · intro hn
        exact h.connecting ((congrArg PipeState.ready hshown).symm.trans hn)
  recv := outlook_received ho
  send := outlook_sent ho
  sendFin := outlook_closed ho
  react := outlook_noticed ho
  reschedule p w := ho.reschedule p.inner w

end Datagram

end DuplexRelay
