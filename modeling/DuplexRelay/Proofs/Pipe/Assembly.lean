import DuplexRelay.Proofs.Pipe.Extraction
import DuplexRelay.Proofs.Pipe.StateBits

/-! What waits in a reassembly buffer. A pipe over a socket stops being readable only by a receive
that yields nothing, and a datagram pipe asks it for bytes only where its buffer has nothing to
give. So what is left behind in the buffer of a pipe that is not readable is the beginning of a
frame. -/

namespace DuplexRelay

/-- The pipe shows its owner that a receive is due, or that none is of use any more. -/
def ReceiveDue {P : Type} [HasPipeState P] (p : P) : Prop :=
  (state p).isReadable = true ∨ (state p).broken = true

/-- A receive that yields bytes makes the pipe promise more, and only a receive takes that back. -/
structure Pipe.KeepsReceiveDue (P W C : Type) [Pipe P W C] : Prop where
  attach : ∀ {callback : C} {p p' : P} {w w' : W} {result}, ReceiveDue p →
    Pipe.attach callback p w = .ok (result, p', w') → ReceiveDue p'
  recv : ∀ {n : Nat} {p p' : P} {w w' : W} {chunk : Bytes}, chunk ≠ [] →
    Pipe.recv n p w = .ok (.ok (.data chunk), p', w') → ReceiveDue p'
  send : ∀ {data : Bytes} {p p' : P} {w w' : W} {result}, ReceiveDue p →
    Pipe.send data p w = .ok (result, p', w') → ReceiveDue p'
  sendFin : ∀ {p p' : P} {w w' : W} {result}, ReceiveDue p →
    Pipe.sendFin p w = .ok (result, p', w') → ReceiveDue p'
  react : ∀ {events : SocketEvents} {p p' : P} {w w' : W} {report}, ReceiveDue p →
    Pipe.react events p w = .ok (report, p', w') → ReceiveDue p'

namespace Tcp

variable {N C : Type} [Sockets N] {p : Tcp}

theorem receiveDue_iff : ReceiveDue p ↔ p.bits.readable = true ∨ p.bits.broken = true := by
  change p.bits.normalized.isReadable = true ∨ p.bits.broken = true ↔ _
  unfold PipeState.normalized PipeState.isReadable
  cases p.bits.broken <;> simp

theorem keepsReceiveDue : Pipe.KeepsReceiveDue Tcp (Host N C) C where
  attach h hcall := by
    cases enrolled hcall with
    | refused | done => exact h
  recv := by
    intro n p p' w w' chunk hchunk hcall
    cases received hcall with
    | nothing => exact absurd rfl hchunk
    | data _ _ _ _ hs =>
      rw [receiveDue_iff, hs.pipe]
      exact .inl rfl
  send := by
    intro data p p' w w' result h hcall
    rw [receiveDue_iff] at h ⊢
    cases transmitted hcall with
    | broken => exact h
    | taken _ _ _ hs | refused _ _ _ _ hs =>
      rw [hs.pipe]
      exact h
    | failed _ _ _ _ hs =>
      rw [hs.pipe]
      exact .inr rfl
  sendFin := by
    intro p p' w w' result h hcall
    rw [receiveDue_iff] at h ⊢
    cases shutDown_outcome hcall with
    | broken => exact h
    | done _ _ _ hs =>
      rw [hs.pipe]
      exact h
    | failed _ _ _ hs =>
      rw [hs.pipe]
      exact .inr rfl
  react := by
    intro events p p' w w' report h hcall
    rw [receiveDue_iff] at h ⊢
    cases noticed hcall with
    | broken | waiting => exact h
    | failed _ _ hs =>
      rw [hs.pipe]
      exact .inr rfl
    | noted _ _ hs =>
      rw [hs.pipe]
      exact h.imp (fun hr => by simp [noted, hr]) id

end Tcp

namespace Atomic

variable {P W C : Type} [Pipe P W C] {p : Atomic P}

theorem receiveDue_iff : ReceiveDue p ↔ ReceiveDue p.inner := by
  unfold ReceiveDue
  rw [state_isReadable, state_broken]

theorem keepsReceiveDue (hP : Pipe.KeepsReceiveDue P W C) :
    Pipe.KeepsReceiveDue (Atomic P) W C where
  attach := by
    intro callback p p' w w' result h hcall
    obtain ⟨⟨_, inner, _⟩, hattach, heq⟩ := Checked.bind_eq_ok_iff.mp hcall
    cases heq
    exact receiveDue_iff.mpr (hP.attach (receiveDue_iff.mp h) hattach)
  recv := by
    intro n p p' w w' chunk hchunk hcall
    obtain ⟨⟨_, inner, _⟩, hrecv, heq⟩ := Checked.bind_eq_ok_iff.mp hcall
    cases heq
    exact receiveDue_iff.mpr (hP.recv hchunk hrecv)
  send := by
    intro data p p' w w' result h hcall
    cases sentWhole hcall with
    | waiting => exact h
    | refused _ _ hs | all _ _ hs | part _ _ hs =>
      exact receiveDue_iff.mpr (hP.send (receiveDue_iff.mp h) hs)
  sendFin := by
    intro p p' w w' result h hcall
    cases closedBehind hcall with
    | waiting => exact receiveDue_iff.mpr (receiveDue_iff.mp h)
    | passed _ _ hc => exact receiveDue_iff.mpr (hP.sendFin (receiveDue_iff.mp h) hc)
  react := by
    intro events p p' w w' report h hcall
    rw [receiveDue_iff] at h ⊢
    cases reacted hcall with
    | passed hr => exact hP.react h hr
    | @flushing _ _ _ inner p₁ _ w₁ w₂ _ hr _ hq hf =>
      have hinner := hP.react h hr
      have hqueue : ReceiveDue p₁.inner := by
        cases hq with
        | idle => exact hinner
        | refused _ hs | part _ hs | all _ hs => exact hP.send hinner hs
      cases hf with
      | skipped => exact hqueue
      | closed _ _ hc => exact hP.sendFin hqueue hc

end Atomic

namespace Datagram

/-- The bytes end within the header of a frame, or within a frame whose size is within the limit. -/
def Unfinished (limit : Nat) (bytes : Bytes) : Prop :=
  (∃ size ≤ Varint.maxValue, ∃ more ≠ [], Varint.encode size = bytes ++ more) ∨
    ∃ size ≤ limit, ∃ part : Bytes, part.length < size ∧ bytes = Varint.encode size ++ part

variable {P W C : Type} {p : Datagram P} {v v' : View P} {w w' : W} {limit room : Nat}
  {bytes payload rest : Bytes}

theorem unfinished_of_firstFrame (h : firstFrame limit bytes = .ok none) :
    Unfinished limit bytes := by
  unfold firstFrame at h
  rcases hparse : Varint.parse bytes with e | _ | header
  · simp [hparse] at h
  · exact .inl (Varint.begun_of_parse hparse).2
  · simp only [hparse] at h
    split at h
    · cases h
    rename_i hsize
    split at h
    · rename_i hshort
      obtain ⟨hcode, hlength⟩ := Varint.eq_encode_of_parse hparse
      refine .inr ⟨header.size, by omega, bytes.drop header.length, ?_, ?_⟩
      · have htake := congrArg List.length hcode
        rw [hlength, List.length_take] at htake
        rw [List.length_drop]
        omega
      · rw [← hcode, List.take_append_drop]
    · cases h

theorem firstFrame_none_mono {small : Nat} (h : firstFrame small bytes = .ok none)
    (hle : small ≤ limit) : firstFrame limit bytes = .ok none := by
  unfold firstFrame at h ⊢
  rcases hparse : Varint.parse bytes with e | _ | header
  · simp [hparse] at h
  · rfl
  · simp only [hparse] at h ⊢
    split at h
    · cases h
    rename_i hsize
    rw [if_neg (by omega)]
    split at h
    · rename_i hshort
      rw [if_pos hshort]
    · cases h

theorem complete_of_some (h : firstFrame limit bytes = .ok (some (payload, rest))) :
    complete bytes = true := by
  unfold firstFrame at h
  unfold complete
  rcases hparse : Varint.parse bytes with e | _ | header
  · simp [hparse] at h
  · simp [hparse] at h
  · simp only [hparse] at h
    split at h
    · cases h
    split at h
    · cases h
    rename_i hlong
    simpa using Nat.le_of_not_lt hlong

/-- What is only begun within the limit is found by no look with room for that. -/
theorem extract_none (hle : p.maxSize ≤ room) (h : firstFrame p.maxSize p.assembled = .ok none) :
    extract room p = .ok (.ok none, p) := by
  have hlook := extract_eq room p
  have hfront := firstFrame_eq p.maxSize room p.assembled
  rw [Nat.min_eq_left hle, h] at hfront
  rcases hf : front p.maxSize room p.assembled with reason | _ | found
  · rw [hf] at hfront
    cases hfront
  · rwa [hf] at hlook
  · rw [hf] at hfront
    cases hfront

/-- While the pipe below promises nothing, nothing complete and nothing unacceptable is held. -/
structure Unstranded [HasPipeState P] (limit : Nat) (v : View P) : Prop where
  maximal : v.maxSize = limit
  held : v.broken = true ∨ ReceiveDue v.inner ∨ firstFrame limit v.assembled = .ok none

variable [Pipe P W C]

theorem Unstranded.received {result : PipeResult Recv} (hP : Pipe.KeepsReceiveDue (Atomic P) W C)
    (h : Unstranded limit v) (hr : Received room v w result v' w') : Unstranded limit v' := by
  have hbegun : ∀ {bytes}, firstFrame (min v.maxSize room) bytes = .ok none →
      firstFrame limit bytes = .ok none := by
    intro bytes hf
    rw [h.maximal] at hf
    exact firstFrame_none_mono hf (Nat.min_le_left _ _)
  cases hr with
  | broken => exact h
  | @found payload rest hb hi hf =>
    refine ⟨h.maximal, ?_⟩
    rcases h.held with hbroken | hpromise | hnone
    · exact .inl hbroken
    · exact .inr (.inl hpromise)
    · have hthere := complete_of_some hf
      rw [complete_of_firstFrame hnone] at hthere
      cases hthere
  | violated | corrupted | cut => exact ⟨h.maximal, .inl rfl⟩
  | refused hb hi hf hrecv => exact ⟨h.maximal, .inr (.inr (hbegun hf))⟩
  | incomplete hb hi hf hrecv hn => exact ⟨h.maximal, .inr (.inr (hbegun hn))⟩
  | @completed n chunk payload rest inner w' hb hi hf hrecv hn =>
    have hchunk : chunk ≠ [] := by
      rintro rfl
      rw [List.append_nil, hf] at hn
      cases hn
    exact ⟨h.maximal, .inr (.inl (hP.recv hchunk hrecv))⟩
  | ended hb hi ha hrecv =>
    refine ⟨h.maximal, .inr (.inr ?_)⟩
    dsimp only
    rw [ha]
    rfl

/-- What happens below without a receive leaves the buffer and what is promised. -/
theorem Unstranded.elsewhere {inner : Atomic P} (h : Unstranded limit p.view)
    (hkeeps : ReceiveDue p.inner → ReceiveDue inner) :
    Unstranded limit ({ p with inner } : Datagram P).view :=
  ⟨h.maximal, h.held.imp id (Or.imp hkeeps id)⟩

theorem unstranded_kept (hP : Pipe.KeepsReceiveDue (Atomic P) W C) :
    Pipe.Keeps fun (p : Datagram P) (_ : W) => Unstranded limit p.view where
  attach h hcall := by
    obtain ⟨⟨_, inner, _⟩, hattach, heq⟩ := Checked.bind_eq_ok_iff.mp hcall
    cases heq
    exact h.elsewhere fun hpromise => hP.attach hpromise hattach
  recv h hcall := h.received hP (received hcall)
  send h hcall := by
    cases sent hcall with
    | broken | waiting => exact h
    | excessive | unframed => exact ⟨h.maximal, .inl rfl⟩
    | passed _ _ _ _ hs => exact h.elsewhere fun hpromise => hP.send hpromise hs
  sendFin h hcall := by
    obtain ⟨_, _, rfl, _⟩ | ⟨_, inner, hc, rfl⟩ := closed hcall
    · exact h
    · exact h.elsewhere fun hpromise => hP.sendFin hpromise hc
  react h hcall := by
    obtain ⟨⟨_, inner, _⟩, hreact, heq⟩ := Checked.bind_eq_ok_iff.mp hcall
    cases heq
    exact h.elsewhere fun hpromise => hP.react hpromise hreact
  reschedule h := h

end Datagram

open Datagram (Unfinished wire extract)

/-- However a datagram pipe over a socket is used, as long as it is unbroken nothing is stranded in
its buffer. Where it is not readable the buffer holds the beginning of a frame and no more, and
where a whole frame stands at the front it is readable, and a receive returns that frame and leaves
the socket alone. -/
theorem nothing_stranded {N C : Type} [Sockets N] {start : Tcp} {maxSize : Nat}
    {new p : Datagram Tcp} {turns : List (PipeTurn (Host N C) C)} {w w' : Host N C}
    (hnew : Datagram.wrap start maxSize = .ok new) (hrun : Pipe.useAll turns new w = .ok (p, w'))
    (hsound : (state p).broken = false) :
    ((state p).isReadable = false → Unfinished maxSize p.assembled ∧
      ∀ room, maxSize ≤ room → extract room p = .ok (.ok none, p)) ∧
    ∀ payload rest, payload.length ≤ maxSize → p.assembled = wire payload ++ rest →
      (state p).isReadable = true ∧
      ∀ room, payload.length ≤ room → ∀ v : Host N C, ∃ p' : Datagram Tcp,
        Pipe.recv room p v = .ok (.ok (.data payload), p', v) ∧
        p'.inner = p.inner ∧ p'.assembled = rest := by
  obtain ⟨hmax, rfl⟩ := Datagram.eq_of_wrap hnew
  have hfresh : Datagram.Unstranded maxSize
      ({ inner := { inner := start }, maxSize } : Datagram Tcp).view := ⟨rfl, .inr (.inr rfl)⟩
  have hheld :=
    (Datagram.unstranded_kept (Atomic.keepsReceiveDue Tcp.keepsReceiveDue)).useAll_forall
      hfresh hrun
  have hlimit : p.maxSize = maxSize := hheld.maximal
  rw [Datagram.state_eq, Datagram.View.broken_shown, Bool.or_eq_false_iff] at hsound
  obtain ⟨hbelow, hintact⟩ := hsound
  have hreadable : (state p).isReadable =
      ((state p.inner).isReadable || Datagram.complete p.assembled) := by
    rw [Datagram.state_eq]
    exact Datagram.View.isReadable_shown hbelow hintact
  rw [hreadable]
  constructor
  · intro hdry
    rw [Bool.or_eq_false_iff] at hdry
    have hnone : Datagram.firstFrame maxSize p.assembled = .ok none := by
      rcases hheld.held with hbroken | (hpromise | hgone) | hnone
      · exact Bool.noConfusion (hbroken.symm.trans hintact)
      · exact Bool.noConfusion (hpromise.symm.trans hdry.1)
      · exact Bool.noConfusion (hgone.symm.trans hbelow)
      · exact hnone
    refine ⟨Datagram.unfinished_of_firstFrame hnone, fun room hroom => ?_⟩
    rw [← hlimit] at hroom hnone
    exact Datagram.extract_none hroom hnone
  · intro payload rest hsize hassembled
    have hfirst := Datagram.firstFrame_wire hsize (by omega) rest
    rw [← hassembled] at hfirst
    refine ⟨by rw [Datagram.complete_of_some hfirst, Bool.or_true], fun room hroom v => ?_⟩
    have hmin : payload.length ≤ min p.maxSize room := by omega
    have hlook := Datagram.firstFrame_wire hmin (by omega) rest
    rw [← hassembled] at hlook
    obtain ⟨p', hrecv, hview⟩ :=
      Datagram.recv_found (w := v) hintact hbelow (Datagram.front_eq_some_iff.mpr hlook)
    exact ⟨p', hrecv, congrArg Datagram.View.inner hview, congrArg Datagram.View.assembled hview⟩

/-- Two datagrams and the beginning of a third come in at once, and the first is taken. -/
def crowded : List (PipeTurn (Host SocketPairs Side) Side) :=
  [{ meanwhile := id, use := .attach .left },
    { meanwhile := farSide (·.farWrite [2, 7, 8, 1, 5, 3, 1]), use := .recv 3 }]

/-- After the second one was taken as well, there is nothing to be had for now. -/
def emptied : List (PipeTurn (Host SocketPairs Side) Side) :=
  crowded ++ [{ meanwhile := id, use := .recv 3 }, { meanwhile := id, use := .recv 3 }]

theorem crowded_outcome (turns : List (PipeTurn (Host SocketPairs Side) Side))
    (h : turns = crowded ∨ turns = emptied) :
    (Pipe.useAll turns { inner := { inner := .connected 3 }, maxSize := 3 }
      Bridge.pairedHost).toOption.map (fun x : Datagram Tcp × _ =>
        ((state x.1).broken, (state x.1).isReadable, x.1.assembled)) =
      if turns.length = 2 then some (false, true, [1, 5, 3, 1])
      else some (false, false, [3, 1]) := by
  rcases h with rfl | rfl <;> decide +kernel

theorem nothing_stranded_crowded :
    (∃ (p : Datagram Tcp) (w : Host SocketPairs Side),
      Pipe.useAll crowded { inner := { inner := .connected 3 }, maxSize := 3 } Bridge.pairedHost =
        .ok (p, w) ∧ p.assembled = [1, 5, 3, 1] ∧ (state p).isReadable = true ∧
      ∀ v : Host SocketPairs Side, ∃ p' : Datagram Tcp,
        Pipe.recv 3 p v = .ok (.ok (.data [5]), p', v) ∧ p'.assembled = [3, 1]) ∧
    ∃ (p : Datagram Tcp) (w : Host SocketPairs Side),
      Pipe.useAll emptied { inner := { inner := .connected 3 }, maxSize := 3 } Bridge.pairedHost =
        .ok (p, w) ∧ p.assembled = [3, 1] ∧ (state p).isReadable = false ∧
      Unfinished 3 p.assembled := by
  have hnew : Datagram.wrap (Tcp.connected 3) 3 =
      .ok { inner := { inner := .connected 3 }, maxSize := 3 } := rfl
  constructor
  · obtain ⟨⟨p, w⟩, hrun, houtcome⟩ :=
      Checked.toOption_map_eq_some_iff.mp (crowded_outcome crowded (.inl rfl))
    obtain ⟨hsound, hshown⟩ := Prod.mk.inj houtcome
    obtain ⟨hreadable, hheld⟩ := Prod.mk.inj hshown
    have hwire : wire [5] ++ [3, 1] = [1, 5, 3, 1] := by simp [wire, Varint.encode]
    have hwhole := (nothing_stranded hnew hrun hsound).2 [5] [3, 1] (by decide)
      (hheld.trans hwire.symm)
    refine ⟨p, w, hrun, hheld, hwhole.1, fun v => ?_⟩
    obtain ⟨p', hrecv, _, hleft⟩ := hwhole.2 3 (by decide) v
    exact ⟨p', hrecv, hleft⟩
  · obtain ⟨⟨p, w⟩, hrun, houtcome⟩ :=
      Checked.toOption_map_eq_some_iff.mp (crowded_outcome emptied (.inr rfl))
    obtain ⟨hsound, hshown⟩ := Prod.mk.inj houtcome
    obtain ⟨hdry, hheld⟩ := Prod.mk.inj hshown
    exact ⟨p, w, hrun, hheld, hdry, ((nothing_stranded hnew hrun hsound).1 hdry).1⟩

end DuplexRelay
