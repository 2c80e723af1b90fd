import DuplexRelay.Proofs.Pipe.Intake
import DuplexRelay.Proofs.Pipe.StackOutlook

/-! What a pipe took and holds back. Only a send adds to it, and only where nothing was held back. A
pipe that holds anything back does not take more. -/

namespace DuplexRelay

/-- What is to be known of what a pipe holds back. -/
structure Reserve (P : Type) where
  /-- the pipes that this is about -/
  shape : P → Prop
  /-- bytes were taken that a layer still holds -/
  holding : P → Prop
  /-- the number of these bytes -/
  held : P → Nat
  empty : ∀ {p}, shape p → ¬holding p → held p = 0

namespace Reserve

variable {P W C : Type} {k : Reserve P} {header : Nat} {p p' : P}

/-- Nothing is held back that was not before. -/
structure NothingAdded (k : Reserve P) (p p' : P) : Prop where
  shape : k.shape p'
  holding : k.holding p' → k.holding p
  held : k.held p' ≤ k.held p

/-- So many bytes were taken, of which some may be held back, behind a header. -/
structure Filled (k : Reserve P) (header size : Nat) (result : PipeResult Nat) (p' : P) : Prop where
  shape : k.shape p'
  whole : result = .ok size
  held : k.held p' ≤ size + header

/-- What calls do to what is held back. -/
structure Lawful (k : Reserve P) (W : Type) [Pipe P W C] (header : Nat) : Prop where
  idle : ∀ {p}, k.shape p → (state p).isWritable = true → ¬k.holding p
  attach : ∀ {callback : C} {p p' : P} {w w' : W} {result}, k.shape p →
    Pipe.attach callback p w = .ok (result, p', w') → k.NothingAdded p p'
  recv : ∀ {n : Nat} {p p' : P} {w w' : W} {result}, k.shape p →
    Pipe.recv n p w = .ok (result, p', w') → k.NothingAdded p p'
  send : ∀ {data : Bytes} {p p' : P} {w w' : W} {result}, k.shape p →
    Pipe.send data p w = .ok (result, p', w') →
      k.NothingAdded p p' ∨ k.Filled header data.length result p'
  sendFin : ∀ {p p' : P} {w w' : W} {result}, k.shape p →
    Pipe.sendFin p w = .ok (result, p', w') → k.NothingAdded p p'
  react : ∀ {events : SocketEvents} {p p' : P} {w w' : W} {report}, k.shape p →
    Pipe.react events p w = .ok (report, p', w') → k.NothingAdded p p'

theorem NothingAdded.refl (h : k.shape p) : k.NothingAdded p p := ⟨h, id, Nat.le_refl _⟩

end Reserve

namespace Atomic

variable {P W C : Type}

/-- What an atomic pipe holds back, where the pipe below holds back nothing. -/
def reserve : Reserve (Atomic P) where
  shape _ := True
  holding p := p.queue ≠ none
  held p := p.unsent.length
  empty {p} _ hq := by simp [unsent, not_not.mp hq]

theorem reserve_nothingAdded {p p' : Atomic P} (h : p'.queue = p.queue) :
    reserve.NothingAdded p p' := by
  refine ⟨trivial, ?_, ?_⟩
  · change p'.queue ≠ none → p.queue ≠ none
    rw [h]
    exact id
  · change p'.unsent.length ≤ p.unsent.length
    unfold unsent
    rw [h]

theorem reserve_queueFlushed [Pipe P W C] {events report : PipeEvents} {p p' : Atomic P} {w w' : W}
    (h : QueueFlushed events p w report p' w') : reserve.NothingAdded p p' := by
  cases h with
  | idle => exact .refl trivial
  | refused hq => exact reserve_nothingAdded hq.symm
  | @part queue rest n _ _ hq _ hn hr =>
    obtain ⟨after, hafter, hlive⟩ := ByteBuffer.consume_eq_ok (Nat.le_of_lt hn)
    rw [hr] at hafter
    cases hafter
    refine ⟨trivial, fun _ => by simp [reserve, hq], ?_⟩
    simp [reserve, unsent, hq, hlive]
  | all => exact ⟨trivial, fun hnone => absurd rfl hnone, Nat.zero_le _⟩

theorem reserve_lawful [Pipe P W C] : (reserve : Reserve (Atomic P)).Lawful W 0 where
  idle _ hw hq := hq (queue_of_isWritable hw)
  attach _ h := by
    obtain ⟨⟨_, inner, _⟩, hattach, heq⟩ := Checked.bind_eq_ok_iff.mp h
    cases heq
    exact reserve_nothingAdded rfl
  recv _ h := by
    obtain ⟨⟨_, inner, _⟩, hrecv, heq⟩ := Checked.bind_eq_ok_iff.mp h
    cases heq
    exact reserve_nothingAdded rfl
  send _ h := by
    cases sentWhole h with
    | waiting => exact .inl (.refl trivial)
    | refused | all => exact .inl (reserve_nothingAdded rfl)
    | part => exact .inr ⟨trivial, rfl, by simp [reserve, unsent]⟩
  sendFin _ h := by
    cases closedBehind h with
    | waiting | passed => exact reserve_nothingAdded rfl
  react {_ p _ _ _ _} _ h := by
    cases reacted h with
    | passed => exact reserve_nothingAdded rfl
    | @flushing _ _ _ inner p₁ _ _ _ _ _ _ hq hf =>
      have hflushed := reserve_queueFlushed hq
      have hqueue : reserve.NothingAdded p p₁ := ⟨trivial, hflushed.holding, hflushed.held⟩
      cases hf with
      | skipped => exact hqueue
      | closed => exact ⟨trivial, hqueue.holding, hqueue.held⟩

end Atomic

namespace Datagram

variable {P W C : Type} {k : Reserve (Atomic P)} {p p' : Datagram P}

/-- A datagram pipe holds back what the atomic pipe below it does. -/
def reserve (k : Reserve (Atomic P)) : Reserve (Datagram P) where
  shape p := k.shape p.inner
  holding p := k.holding p.inner
  held p := k.held p.inner
  empty := k.empty

theorem reserve_nothingAdded (h : k.NothingAdded p.inner p'.inner) :
    (reserve k).NothingAdded p p' :=
  ⟨h.shape, h.holding, h.held⟩

theorem inner_isWritable [HasPipeState P] (h : (state p).isWritable = true) :
    (state p.inner).isWritable = true := by
  rw [state_eq] at h
  simp only [View.shown, PipeState.normalized, PipeState.isWritable, Bool.and_eq_true,
    Bool.not_eq_true', Bool.or_eq_false_iff] at h ⊢
  exact ⟨h.1.1, h.2.1⟩

/-- The size of a datagram is told in a few bytes. -/
theorem length_frame_le {data framed : Bytes} (h : frame data = .ok framed) :
    framed.length ≤ data.length + Varint.maxLength := by
  by_cases hmax : data.length ≤ Varint.maxValue
  · have hheader := Varint.encodedLength_le data.length
    rw [eq_wire_of_frame h, wire, List.length_append, Varint.length_encode hmax]
    omega
  · unfold frame Varint.store at h
    rw [if_pos (by omega)] at h
    cases h

theorem reserve_lawful [Pipe P W C] (h : k.Lawful W 0) :
    (reserve k).Lawful W Varint.maxLength where
  idle hs hw := h.idle hs (inner_isWritable hw)
  attach hs hcall := by
    obtain ⟨⟨_, inner, _⟩, hattach, heq⟩ := Checked.bind_eq_ok_iff.mp hcall
    cases heq
    exact reserve_nothingAdded (h.attach hs hattach)
  recv {_ p p' _ _ _} hs hcall := by
    have houtcome := received hcall
    have hview : k.NothingAdded p.view.inner p'.view.inner := by
      generalize p'.view = v' at houtcome
      cases houtcome with
      | broken | found | violated => exact .refl hs
      | refused _ _ _ hr | incomplete _ _ _ hr | completed _ _ _ hr | corrupted _ _ _ hr
      | ended _ _ _ hr | cut _ _ _ _ hr => exact h.recv hs hr
    exact reserve_nothingAdded hview
  send hs hcall := by
    cases sent hcall with
    | broken | waiting => exact .inl (.refl hs)
    | excessive | unframed => exact .inl (reserve_nothingAdded (.refl hs))
    | @passed framed answer inner _ _ _ _ hf hr =>
      rcases h.send hs hr with hkept | ⟨hshape, rfl, hheld⟩
      · exact .inl (reserve_nothingAdded hkept)
      · refine .inr ⟨hshape, rfl, Nat.le_trans hheld ?_⟩
        exact length_frame_le hf
  sendFin hs hcall := by
    obtain ⟨_, _, rfl, rfl⟩ | ⟨_, inner, hc, rfl⟩ := closed hcall
    · exact .refl hs
    · exact reserve_nothingAdded (h.sendFin hs hc)
  react hs hcall := by
    obtain ⟨⟨_, inner, _⟩, hr, heq⟩ := Checked.bind_eq_ok_iff.mp hcall
    cases heq
    exact reserve_nothingAdded (h.react hs hr)

end Datagram

namespace Stack

variable {N C : Type} [Sockets N] {s s' : Stack Tcp} {w w' : Host N C}

theorem holding_framed (p : Datagram Tcp) :
    outlook.holding ⟨[.datagram], p⟩ ↔ p.inner.queue ≠ none :=
  Iff.of_eq (or_false _)

/-- What a connection holds back, with or without framing. -/
def reserve : Reserve (Stack Tcp) where
  shape := IsLink
  holding := outlook.holding
  held s := s.held.length
  empty := by
    rintro ⟨layers, top⟩ (rfl | rfl) hnone
    · rfl
    · exact (Datagram.reserve Atomic.reserve).empty trivial (mt (holding_framed top).mpr hnone)

theorem reserve_bare {p p' : Tcp} : reserve.NothingAdded (bare p) (bare p') :=
  ⟨.inl rfl, id, Nat.le_refl _⟩

theorem reserve_framed {p p' : Datagram Tcp}
    (h : (Datagram.reserve Atomic.reserve).NothingAdded p p') :
    reserve.NothingAdded ⟨[.datagram], p⟩ ⟨[.datagram], p'⟩ := by
  refine ⟨.inr rfl, fun hholding => ?_, h.held⟩
  exact (holding_framed p).mpr (h.holding ((holding_framed p').mp hholding))

/-- The size of a datagram is told in four bytes at most. -/
theorem reserve_lawful : reserve.Lawful (C := C) (Host N C) 4 := by
  have hframed : (Datagram.reserve (Atomic.reserve (P := Tcp))).Lawful (Host N C) 4 :=
    Datagram.reserve_lawful Atomic.reserve_lawful
  constructor
  · rintro ⟨layers, top⟩ (rfl | rfl) hw
    · exact id
    · exact mt (holding_framed top).mp (hframed.idle trivial hw)
  · rintro callback ⟨layers, top⟩ s' w w' result (rfl | rfl) h
    · obtain ⟨top', _, rfl⟩ := rewrap_eq_ok h
      exact reserve_bare
    · obtain ⟨top', hattach, rfl⟩ := rewrap_eq_ok h
      exact reserve_framed (hframed.attach trivial hattach)
  · rintro n ⟨layers, top⟩ s' w w' result (rfl | rfl) h
    · obtain ⟨top', _, rfl⟩ := rewrap_eq_ok h
      exact reserve_bare
    · obtain ⟨top', hrecv, rfl⟩ := rewrap_eq_ok h
      exact reserve_framed (hframed.recv trivial hrecv)
  · rintro data ⟨layers, top⟩ s' w w' result (rfl | rfl) h
    · obtain ⟨top', _, rfl⟩ := rewrap_eq_ok h
      exact .inl reserve_bare
    · obtain ⟨top', hsend, rfl⟩ := rewrap_eq_ok h
      rcases hframed.send trivial hsend with hkept | ⟨_, hwhole, hheld⟩
      · exact .inl (reserve_framed hkept)
      · exact .inr ⟨.inr rfl, hwhole, hheld⟩
  · rintro ⟨layers, top⟩ s' w w' result (rfl | rfl) h
    · obtain ⟨top', _, rfl⟩ := rewrap_eq_ok h
      exact reserve_bare
    · obtain ⟨top', hclose, rfl⟩ := rewrap_eq_ok h
      exact reserve_framed (hframed.sendFin trivial hclose)
  · rintro events ⟨layers, top⟩ s' w w' report (rfl | rfl) h
    · obtain ⟨top', _, rfl⟩ := rewrap_eq_ok h
      exact reserve_bare
    · obtain ⟨top', hreact, rfl⟩ := rewrap_eq_ok h
      exact reserve_framed (hframed.react trivial hreact)

theorem recv_le [LawfulSockets N] {n : Nat} {chunk : Bytes} (hs : s.IsLink)
    (h : Pipe.recv n s w = .ok (.ok (.data chunk), s', w')) : chunk.length ≤ n := by
  obtain ⟨layers, top⟩ := s
  rcases hs with rfl | rfl
  · obtain ⟨top', hrecv, rfl⟩ := rewrap_eq_ok h
    exact Tcp.recv_le (p := (top : Tcp)) hrecv
  · obtain ⟨top', hrecv, rfl⟩ := rewrap_eq_ok h
    exact Datagram.recv_le (P := Tcp) hrecv

end Stack

end DuplexRelay
