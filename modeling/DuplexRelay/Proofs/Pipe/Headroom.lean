import Mathlib.Data.List.MinMax
import DuplexRelay.Proofs.Pipe.Intake
import DuplexRelay.Proofs.Pipe.Uses
import DuplexRelay.Session.Testbed

/-! Room for the next read. The buffers that a caller passes may differ from call to call, and what
the reassembly buffer holds was read for an earlier one. A receive goes to the pipe below only where
the bytes at hand are the beginning of a frame that this caller can take, and then they are fewer
than such a frame has at most. So there is room behind them, in a buffer that the largest caller so
far accounts for. -/

namespace DuplexRelay

/-- The size of the buffer that the caller passes. -/
def PipeUse.room {C : Type} : PipeUse C → Nat
  | .recv room => room
  | _ => 0

/-- The size of the largest buffer that was passed in any of the calls. -/
def PipeTurn.largestRoom {W C : Type} (turns : List (PipeTurn W C)) : Nat :=
  (turns.map (·.use.room)).foldr max 0

theorem PipeTurn.le_largestRoom {W C : Type} {turn : PipeTurn W C} {turns : List (PipeTurn W C)}
    (h : turn ∈ turns) : turn.use.room ≤ largestRoom turns :=
  List.le_max_of_le' 0 (List.mem_map_of_mem h) (Nat.le_refl _)

/-- No receive yields more than it was asked for. -/
def Pipe.WithinRoom (P W : Type) {C : Type} [Pipe P W C] : Prop :=
  ∀ {n : Nat} {p p' : P} {w w' : W} {chunk : Bytes},
    Pipe.recv n p w = .ok (.ok (.data chunk), p', w') → chunk.length ≤ n

theorem Pipe.WithinRoom.atomic {P W C : Type} [Pipe P W C] (h : Pipe.WithinRoom P W) :
    Pipe.WithinRoom (Atomic P) W := by
  intro n p p' w w' chunk hrecv
  obtain ⟨⟨_, inner, _⟩, hbelow, heq⟩ := Checked.bind_eq_ok_iff.mp hrecv
  cases heq
  exact h hbelow

namespace Datagram

variable {P W C : Type} {p p' : Datagram P} {limit room : Nat} {buffer : ByteBuffer} {w w' : W}

theorem Roomy.mono {limit' : Nat} (h : p.Roomy limit) (hle : limit ≤ limit') : p.Roomy limit' :=
  fun held hheld => Nat.le_trans (h held hheld) (Nat.add_le_add_left hle _)

/-- A reassembly buffer is only kept for what it holds, and callers with so much room account for
its size. -/
structure BufferJustified (limit : Nat) (p : Datagram P) : Prop where
  roomy : p.Roomy limit
  occupied : ∀ held, p.assembly = some held → held.live ≠ []

theorem bufferJustified_of_none (h : p.assembly = none) : p.BufferJustified limit := by
  refine ⟨roomy_of_none h, ?_⟩
  intro held hheld
  rw [h] at hheld
  cases hheld

theorem BufferJustified.same (h : p.BufferJustified limit) (ha : p'.assembly = p.assembly) :
    p'.BufferJustified limit :=
  ⟨h.roomy.same ha, fun held hheld => h.occupied held (ha ▸ hheld)⟩

theorem BufferJustified.mono {limit' : Nat} (h : p.BufferJustified limit) (hle : limit ≤ limit') :
    p.BufferJustified limit' :=
  ⟨h.roomy.mono hle, h.occupied⟩

theorem Roomy.bufferJustified_releaseEmpty (h : p.Roomy limit) :
    p.releaseEmpty.BufferJustified limit := by
  unfold Datagram.releaseEmpty
  cases ha : p.assembly with
  | none => exact bufferJustified_of_none ha
  | some assembly =>
    dsimp only
    split
    · exact bufferJustified_of_none rfl
    · rename_i hsome
      refine ⟨h, ?_⟩
      intro held hheld hempty
      rw [ha] at hheld
      cases hheld
      exact hsome (List.isEmpty_iff.mpr hempty)

theorem inner_releaseEmpty (p : Datagram P) : p.releaseEmpty.inner = p.inner :=
  congrArg View.inner (view_releaseEmpty p)

/-- A buffer for the next read: it holds what was held before, has room for more, and callers with
so much room account for its size. -/
structure Ready (limit room : Nat) (p : Datagram P) (buffer : ByteBuffer) : Prop where
  prepared : prepare room p.assembly = .ok buffer
  preserved : buffer.live = p.assembled
  offered : 0 < buffer.tailRoom
  bounded : buffer.capacity ≤ Varint.maxLength + limit

theorem Ready.roomy {inner : Atomic P} (h : Ready limit room p buffer) :
    ({ p with inner, assembly := some buffer } : Datagram P).Roomy limit := by
  rintro _ ⟨⟩
  exact h.bounded

variable [Pipe P W C]

/-- How a receive comes to its result. It is settled by the bytes at hand, or there is no store as
large as the buffer would have to be, or the pipe below is asked for as much as a buffer has room
for behind what it holds. That call is not answered at all, or it gives no bytes, or it gives some,
which the room takes. -/
inductive Refills (limit room : Nat) (p : Datagram P) (w : W) :
    Checked (PipeResult Recv × Datagram P × W) → Prop
  | settled {result : PipeResult Recv} {p' : Datagram P} (hinner : p'.inner = p.inner)
      (hleft : p'.BufferJustified limit) : Refills limit room p w (.ok (result, p', w))
  | storeless (hlarge : ByteBuffer.maxCapacity < Varint.maxLength + room) :
      Refills limit room p w (.error .capacityExceeded)
  | stopped {buffer : ByteBuffer} {v : Violation} (hready : Ready limit room p buffer)
      (hr : Pipe.recv buffer.tailRoom p.inner w = .error v) : Refills limit room p w (.error v)
  | dry {buffer : ByteBuffer} {answer result : PipeResult Recv} {p' : Datagram P} {w' : W}
      (hready : Ready limit room p buffer)
      (hr : Pipe.recv buffer.tailRoom p.inner w = .ok (answer, p'.inner, w'))
      (hnone : ∀ chunk, answer ≠ .ok (.data chunk)) (hleft : p'.BufferJustified limit) :
      Refills limit room p w (.ok (result, p', w'))
  | filled {buffer filled : ByteBuffer} {chunk : Bytes} {result : PipeResult Recv}
      {p' : Datagram P} {w' : W} (hready : Ready limit room p buffer)
      (hr : Pipe.recv buffer.tailRoom p.inner w = .ok (.ok (.data chunk), p'.inner, w'))
      (hfits : chunk.length ≤ buffer.tailRoom) (hcommit : buffer.append chunk = .ok filled)
      (hlive : filled.live = p.assembled ++ chunk) (hleft : p'.BufferJustified limit) :
      Refills limit room p w (.ok (result, p', w'))

theorem Roomy.exists_extract (hp : p.Roomy limit) (room : Nat) :
    ∃ found q, Datagram.extract room p = .ok (found, q) ∧ q.Roomy limit ∧ q.inner = p.inner := by
  have hlook := extract_eq room p
  obtain ⟨found, q, hq⟩ : ∃ found q, Datagram.extract room p = .ok (found, q) := by
    split at hlook
    · exact ⟨_, _, hlook⟩
    · exact ⟨_, _, hlook⟩
    · obtain ⟨q, hq, _⟩ := hlook
      exact ⟨_, q, hq⟩
  exact ⟨found, q, hq, hp.extract hq⟩

theorem front_of_extract (h : extract room p = .ok (.ok none, p')) :
    front p.maxSize room p.assembled = .ok none := by
  have hlook := extract_eq room p
  rw [h] at hlook
  split at hlook
  · cases hlook
  · assumption
  · obtain ⟨_, heq, _⟩ := hlook
    cases heq

/-- What is found in the buffer settles a receive. -/
theorem recv_settled {found : PipeResult (Option Bytes)} (hb : p.broken = false)
    (hi : (state p.inner).broken = false) (hx : extract room p = .ok (found, p'))
    (hfound : found ≠ .ok none) :
    ∃ result, Pipe.recv room p w = .ok (result, p'.releaseEmpty, w) := by
  change ∃ result, recvDatagram room p w = _
  simp only [recvDatagram, hb, hi, hx, Bool.or_self, Bool.false_eq_true, if_false, Checked.ok_bind]
  cases found with
  | error e => exact ⟨_, rfl⟩
  | ok found =>
    cases found with
    | none => exact absurd rfl hfound
    | some payload => exact ⟨_, rfl⟩

/-- A receive that is left to the pipe below refills the buffer. -/
theorem refills_gather (hP : Pipe.WithinRoom P W) (hready : Ready limit room p buffer) :
    Refills limit room p w ((gather room p w).map fun (r, p, w) => (r, p.releaseEmpty, w)) := by
  have hroomy {inner : Atomic P} :
      ({ p with inner, assembly := some buffer } : Datagram P).Roomy limit := hready.roomy
  cases hr : Pipe.recv buffer.tailRoom p.inner w with
  | error v =>
    simp only [gather, hready.prepared, hr, Checked.ok_bind, Checked.error_bind]
    exact .stopped hready hr
  | ok x =>
    obtain ⟨answer, inner, w'⟩ := x
    have hbelow {q : Datagram P} (hq : q.inner = inner) :
        Pipe.recv buffer.tailRoom p.inner w = .ok (answer, q.releaseEmpty.inner, w') := by
      rw [hr, inner_releaseEmpty, hq]
    cases answer with
    | error e =>
      rw [gather_refused hready.prepared hr]
      exact .dry hready (hbelow rfl) (by simp) hroomy.bufferJustified_releaseEmpty
    | ok got =>
      cases got with
      | fin =>
        cases he : buffer.isEmpty with
        | true =>
          rw [gather_ended hready.prepared he hr]
          exact .dry hready (hbelow rfl) (by simp) hroomy.bufferJustified_releaseEmpty
        | false =>
          rw [gather_cut hready.prepared he hr]
          exact .dry hready (hbelow rfl) (by simp) (bufferJustified_of_none rfl)
      | data chunk =>
        have hfits : chunk.length ≤ buffer.tailRoom := hP.atomic hr
        obtain ⟨filled, hcommit, hlive⟩ := ByteBuffer.append_eq_ok hfits
        have hfilled : ({ p with inner, assembly := some filled } : Datagram P).Roomy limit := by
          rintro _ ⟨⟩
          rw [ByteBuffer.capacity_append hcommit]
          exact hready.bounded
        obtain ⟨found, q, hx, hq, hinner⟩ := hfilled.exists_extract room
        rw [gather_extracted hready.prepared hcommit hr hx]
        exact .filled hready (hbelow hinner) hfits hcommit (by rw [hlive, hready.preserved])
          hq.bufferJustified_releaseEmpty

/-- What a receive does with the buffer that earlier ones left. -/
theorem BufferJustified.refills (hP : Pipe.WithinRoom P W) (hp : p.BufferJustified limit)
    (room : Nat) (w : W) : Refills (max limit room) room p w (Pipe.recv room p w) := by
  have hle : limit ≤ max limit room := Nat.le_max_left _ _
  by_cases hbroken : (p.broken || (state p.inner).broken) = true
  · -- nothing is released here, but nothing empty is there to be released
    have hrecv : Pipe.recv room p w = .ok (.error .broken, p, w) := by
      change recvDatagram room p w = _
      rw [recvDatagram, if_pos hbroken]
      rfl
    rw [hrecv]
    exact .settled rfl (hp.mono hle)
  rw [Bool.not_eq_true, Bool.or_eq_false_iff] at hbroken
  obtain ⟨hb, hi⟩ := hbroken
  obtain ⟨found, q, hx, hq, hinner⟩ := hp.roomy.exists_extract room
  by_cases hfound : found = .ok none
  · subst hfound
    -- the limits were checked first, so what is held is shorter than the longest frame that fits
    have hfront := front_of_extract hx
    rw [recv_eq_gather hb hi hfront]
    have hshort := length_lt_of_front hfront
    rcases prepared p hshort with ⟨buffer, hprepare, hlive, htail⟩ | ⟨hnone, hlarge⟩
    · have hheld := hp.roomy.capacity_le
      have hcapacity := (capacity_prepare hprepare).1
      exact refills_gather hP ⟨hprepare, hlive, htail, by omega⟩
    · simp only [gather, hnone, Checked.error_bind]
      exact .storeless hlarge
  · obtain ⟨result, hrecv⟩ := recv_settled (w := w) hb hi hx hfound
    rw [hrecv]
    refine .settled ?_ (hq.mono hle).bufferJustified_releaseEmpty
    rw [inner_releaseEmpty, hinner]

theorem BufferJustified.recv {result : PipeResult Recv} (hP : Pipe.WithinRoom P W)
    (hp : p.BufferJustified limit)
    (hle : room ≤ limit) (h : Pipe.recv room p w = .ok (result, p', w')) :
    p'.BufferJustified limit := by
  have hrefills := hp.refills hP room w
  rw [h, Nat.max_eq_left hle] at hrefills
  cases hrefills with
  | settled _ hleft | dry _ _ _ hleft | filled _ _ _ _ _ hleft => exact hleft

/-- No call of the owner leaves a buffer for nothing, or one that is larger than what the owner
passed. -/
theorem BufferJustified.perform {use : PipeUse C} (hP : Pipe.WithinRoom P W)
    (hp : p.BufferJustified limit)
    (hle : use.room ≤ limit) (h : Pipe.perform p w use = .ok (p', w')) :
    p'.BufferJustified limit := by
  cases use with
  | recv room =>
    obtain ⟨_, hcall⟩ := Checked.map_snd_eq_ok_iff.mp h
    exact hp.recv hP hle hcall
  | attach callback =>
    obtain ⟨_, hcall⟩ := Checked.map_snd_eq_ok_iff.mp h
    obtain ⟨⟨_, inner, _⟩, _, heq⟩ := Checked.bind_eq_ok_iff.mp hcall
    cases heq
    exact hp.same rfl
  | send data =>
    obtain ⟨_, hcall⟩ := Checked.map_snd_eq_ok_iff.mp h
    cases sent hcall with
    | broken | waiting => exact hp
    | excessive | unframed => exact bufferJustified_of_none rfl
    | passed => exact hp.same rfl
  | sendFin =>
    obtain ⟨_, hcall⟩ := Checked.map_snd_eq_ok_iff.mp h
    rcases closed hcall with ⟨_, _, rfl, _⟩ | ⟨_, inner, _, rfl⟩
    · exact hp
    · exact hp.same rfl
  | react events =>
    obtain ⟨_, hcall⟩ := Checked.map_snd_eq_ok_iff.mp h
    obtain ⟨⟨_, inner, _⟩, _, heq⟩ := Checked.bind_eq_ok_iff.mp hcall
    cases heq
    exact hp.same rfl
  | reschedule =>
    cases h
    exact hp

theorem BufferJustified.useAll {turns : List (PipeTurn W C)} (hP : Pipe.WithinRoom P W)
    (hp : p.BufferJustified limit) (hle : ∀ turn ∈ turns, turn.use.room ≤ limit)
    (h : Pipe.useAll turns p w = .ok (p', w')) : p'.BufferJustified limit := by
  induction turns generalizing p w with
  | nil =>
    cases h
    exact hp
  | cons turn rest ih =>
    obtain ⟨⟨p₁, w₁⟩, hcall, hrest⟩ := Checked.bind_eq_ok_iff.mp h
    have hfirst := hp.perform hP (hle turn List.mem_cons_self) hcall
    exact ih hfirst (fun other hother => hle other (List.mem_cons_of_mem _ hother)) hrest

/-- Whatever was done with a datagram pipe, its reassembly buffer is released unless it holds
something, and is not larger than a size header and the largest buffer that was passed. Whatever
buffer is passed to the next receive, every read of the pipe below is offered room for at least one
byte behind the bytes that were held before, and what it gives fits in there. -/
theorem reads_find_room {inner : P} {maxSize : Nat} {new : Datagram P}
    {turns : List (PipeTurn W C)} (hP : Pipe.WithinRoom P W)
    (hnew : wrap inner maxSize = .ok new) (hrun : Pipe.useAll turns new w = .ok (p, w')) :
    (p.assembly = none ∨ ∃ held, p.assembly = some held ∧ held.live ≠ [] ∧
      held.capacity ≤ Varint.maxLength + PipeTurn.largestRoom turns) ∧
    ∀ (room : Nat) (v : W),
      Refills (max (PipeTurn.largestRoom turns) room) room p v (Pipe.recv room p v) := by
  obtain ⟨_, rfl⟩ := eq_of_wrap hnew
  have hstart : ({ inner := { inner }, maxSize } : Datagram P).BufferJustified
      (PipeTurn.largestRoom turns) := bufferJustified_of_none rfl
  have hp := hstart.useAll hP (fun _ => PipeTurn.le_largestRoom) hrun
  refine ⟨?_, hp.refills hP⟩
  cases ha : p.assembly with
  | none => exact .inl rfl
  | some held => exact .inr ⟨held, rfl, hp.occupied held ha, hp.roomy held ha⟩

end Datagram

theorem Scripted.withinRoom {N C : Type} [CallLog N] :
    Pipe.WithinRoom (C := C) Scripted (Host N C) := by
  intro n p p' w w' chunk h
  have hanswer : (p.answerRecv n).1 = .ok (.data chunk) := by
    change Except.ok ((p.answerRecv n).1, (p.answerRecv n).2, p.log (.recv n) w) = _ at h
    simp only [Except.ok.injEq, Prod.mk.injEq] at h
    exact h.1
  unfold answerRecv at hanswer
  split at hanswer
  · cases hanswer
  split at hanswer
  case h_5 bytes rest _ =>
    cases hanswer
    exact List.length_take_le n bytes
  all_goals cases hanswer

namespace Datagram

/-- Frames that come in pieces, the second one together with the end of the first. -/
def outgrownStream : Scripted where
  name := "outgrown"
  recvs := [.data [2, 7], .data [9, 5, 1, 2], .data [3, 4]]

def outgrownHost : Host Session.Testbed Unit where
  net := {}
  reactor := {}

/-- The second caller has more room than the first one, and the third one has less again. -/
def outgrownTurns : List (PipeTurn (Host Session.Testbed Unit) Unit) :=
  [.recv 3, .recv 6, .recv 5].map fun use => { meanwhile := id, use }

theorem outgrownTurns_outcome :
    (Pipe.useAll outgrownTurns ({ inner := { inner := outgrownStream }, maxSize := 8 } :
      Datagram Scripted) outgrownHost).toOption.map
        (fun x => x.1.assembly.map fun held => (held.live, held.capacity)) =
      some (some ([5, 1, 2, 3, 4], 10)) := by
  decide +kernel

theorem reads_find_room_outgrown :
    Pipe.WithinRoom Scripted (Host Session.Testbed Unit) ∧
    ∃ (p : Datagram Scripted) (w : Host Session.Testbed Unit),
      wrap outgrownStream 8 = .ok { inner := { inner := outgrownStream }, maxSize := 8 } ∧
      Pipe.useAll outgrownTurns { inner := { inner := outgrownStream }, maxSize := 8 }
        outgrownHost = .ok (p, w) ∧
      PipeTurn.largestRoom outgrownTurns = 6 ∧
      (∃ held, p.assembly = some held ∧ held.live = [5, 1, 2, 3, 4] ∧
        held.capacity = Varint.maxLength + 6) ∧
      ∀ (room : Nat) (v : Host Session.Testbed Unit),
        Refills (max 6 room) room p v (Pipe.recv room p v) := by
  have hwithin : Pipe.WithinRoom Scripted (Host Session.Testbed Unit) := Scripted.withinRoom
  have hnew : wrap outgrownStream 8 =
      .ok { inner := { inner := outgrownStream }, maxSize := 8 } := rfl
  have hlargest : PipeTurn.largestRoom outgrownTurns = 6 := by decide
  obtain ⟨⟨p, w⟩, hrun, houtcome⟩ := Checked.toOption_map_eq_some_iff.mp outgrownTurns_outcome
  obtain ⟨held, hheld, hshown⟩ := Option.map_eq_some_iff.mp houtcome
  obtain ⟨hlive, hcapacity⟩ := Prod.mk.inj hshown
  obtain ⟨-, hrefills⟩ := reads_find_room hwithin hnew hrun
  rw [hlargest] at hrefills
  exact ⟨hwithin, p, w, hnew, hrun, hlargest, ⟨held, hheld, hlive, hcapacity⟩, hrefills⟩

end Datagram

end DuplexRelay
