import DuplexRelay.Proofs.Pipe.Depletion

/-! Sockets after the end of what comes in. Once they told of the end they yield nothing any more,
whatever is done with them. -/

namespace DuplexRelay

/-- A socket that yields nothing any more after it told of the end of its stream. The network is
`spent` from then on. -/
structure Sockets.Final {N : Type} [Sockets N] (fd : Fd) (spent : N → Prop) : Prop where
  ended : ∀ {n : Nat} {net net' : N}, n ≠ 0 → Sockets.read fd n net = (.ok [], net') → spent net'
  silent : ∀ {n : Nat} {data : Bytes} {net net' : N}, spent net →
    Sockets.read fd n net = (.ok data, net') → data = []
  read : ∀ {n : Nat} {net net' : N} {answer}, spent net → Sockets.read fd n net = (answer, net') →
    spent net'
  send : ∀ {data : Bytes} {net net' : N} {answer}, spent net →
    Sockets.send fd data net = (answer, net') → spent net'
  shutdown : ∀ {net net' : N} {answer}, spent net → Sockets.shutdown fd net = (answer, net') →
    spent net'
  takeError : ∀ {net net' : N} {answer}, spent net → Sockets.takeError fd net = (answer, net') →
    spent net'

namespace SocketPairs

variable {fd : Fd} {p : SocketPair} {net net' : SocketPairs}

/-- All that came in over a connection was read, and there is nothing to come. -/
def Drained (p : SocketPair) : Prop := p.inbound.toList = [] ∧ p.ended = true

/-- Nothing more is to be read from a descriptor. -/
def ReadOut (fd : Fd) (net : SocketPairs) : Prop := ∀ p, net.pair? fd = some p → Drained p

theorem readOut_put (h : Drained p) : ReadOut fd (net.put fd p) := by
  intro q hq
  rw [pair?_put_self] at hq
  cases hq
  exact h

theorem readOut_update {f : SocketPair → SocketPair} (hf : ∀ p, Drained p → Drained (f p))
    (h : ReadOut fd net) : ReadOut fd (net.update fd f) := by
  unfold update
  cases hp : net.pair? fd with
  | none => exact h
  | some p => exact readOut_put (hf p (h p hp))

theorem readOut_atNearEnd {α : Type} {f : SocketPair → Except OsError α × SocketPair}
    {answer : Except OsError α} (hf : ∀ p, Drained p → Drained (f p).2) (h : ReadOut fd net)
    (hcall : atNearEnd fd f net = (answer, net')) : ReadOut fd net' := by
  unfold atNearEnd at hcall
  cases hp : net.pair? fd with
  | none =>
    simp only [hp] at hcall
    cases hcall
    exact h
  | some p =>
    simp only [hp] at hcall
    split at hcall
    · cases hcall
      exact readOut_put (hf p (h p hp))
    · cases hcall
      exact h

theorem drained_read (n : Nat) (p : SocketPair) (h : Drained p) : Drained (p.read n).2 := by
  have hempty : p.inbound.isEmpty = true := (ByteQueue.isEmpty_iff _).mpr h.1
  unfold SocketPair.read
  rw [if_pos hempty]
  cases p.error with
  | some e => exact h
  | none => rw [h.2]; exact h

theorem drained_send (data : Bytes) (p : SocketPair) (h : Drained p) :
    Drained (p.send data).2 := by
  refine ⟨?_, ?_⟩
  · rw [SocketPair.inbound_send]
    exact h.1
  · rw [← h.2]
    unfold SocketPair.send
    dsimp only
    split
    · rfl
    split
    · rfl
    split
    · rfl
    split <;> rfl

theorem drained_farWrite (data : Bytes) (p : SocketPair) (h : Drained p) :
    Drained (p.farWrite data) := by
  unfold SocketPair.farWrite
  rw [if_neg]
  · exact h
  · intro hopen
    simp only [Bool.and_eq_true, Bool.not_eq_true'] at hopen
    have hended := h.2
    simp [SocketPair.ended, hopen.1.1, hopen.1.2] at hended

theorem drained_of_read {n : Nat} {p' : SocketPair} (hn : n ≠ 0)
    (h : p.read n = (.ok [], p')) : Drained p' := by
  unfold SocketPair.read at h
  split at h
  · rename_i hempty
    cases he : p.error with
    | some e => simp [he] at h
    | none =>
      simp only [he] at h
      split at h
      · rename_i hended
        cases h
        exact ⟨(ByteQueue.isEmpty_iff _).mp hempty, hended⟩
      · cases h
  · rename_i hsome
    simp only [Prod.mk.injEq, Except.ok.injEq] at h
    have hnone := h.1
    rw [ByteQueue.pop_fst, List.take_eq_nil_iff] at hnone
    exact absurd ((ByteQueue.isEmpty_iff _).mpr (hnone.resolve_left hn)) hsome

theorem final (fd : Fd) : Sockets.Final fd (ReadOut fd) where
  ended := by
    intro n net net' hn h
    have h : atNearEnd fd (·.read n) net = (.ok [], net') := h
    unfold atNearEnd at h
    cases hp : net.pair? fd with
    | none => simp [hp] at h
    | some p =>
      simp only [hp] at h
      split at h
      · simp only [Prod.mk.injEq] at h
        obtain ⟨hread, rfl⟩ := h
        exact readOut_put (drained_of_read hn (Prod.ext hread rfl))
      · cases h
  silent := by
    intro n data net net' hover h
    have h : atNearEnd fd (·.read n) net = (.ok data, net') := h
    unfold atNearEnd at h
    cases hp : net.pair? fd with
    | none => simp [hp] at h
    | some p =>
      have hdrained := hover p hp
      have hempty : p.inbound.isEmpty = true := (ByteQueue.isEmpty_iff _).mpr hdrained.1
      simp only [hp] at h
      split at h
      · unfold SocketPair.read at h
        rw [if_pos hempty, hdrained.2] at h
        cases he : p.error with
        | some e => simp [he] at h
        | none =>
          simp only [he, if_true, Prod.mk.injEq, Except.ok.injEq] at h
          exact h.1.symm
      · cases h
  read h hcall := readOut_atNearEnd (drained_read _) h hcall
  send h hcall := readOut_atNearEnd (drained_send _) h hcall
  shutdown h hcall := readOut_atNearEnd (fun _ hd => hd) h hcall
  takeError := by
    intro net net' answer hover h
    cases hp : net.pair? fd with
    | none =>
      simp only [Sockets.takeError, hp] at h
      cases h
      exact hover
    | some p =>
      simp only [Sockets.takeError, hp] at h
      cases h
      exact readOut_put (hover p hp)

end SocketPairs

end DuplexRelay
