import DuplexRelay.Socket.Pairs

/-! What is relied upon of sockets: a call takes and gives no more than it was asked for. Nothing is
said of how much less it may be, or of when a call fails. -/

namespace DuplexRelay

/-- Sockets that keep to the sizes they are given. -/
class LawfulSockets (N : Type) [Sockets N] : Prop where
  read_le : ∀ {fd : Fd} {n : Nat} {data : Bytes} {net net' : N},
    Sockets.read fd n net = (.ok data, net') → data.length ≤ n
  send_le : ∀ {fd : Fd} {data : Bytes} {n : Nat} {net net' : N},
    Sockets.send fd data net = (.ok n, net') → n ≤ data.length

namespace SocketPair

theorem read_le {n : Nat} {p p' : SocketPair} {data : Bytes} (h : p.read n = (.ok data, p')) :
    data.length ≤ n := by
  unfold read at h
  split at h
  · split at h
    · cases h
    · split at h
      · cases h
        exact Nat.zero_le n
      · cases h
  · simp only [Prod.mk.injEq, Except.ok.injEq] at h
    rw [← h.1, ByteQueue.pop_fst]
    exact List.length_take_le n _

theorem send_le {data : Bytes} {n : Nat} {p p' : SocketPair} (h : p.send data = (.ok n, p')) :
    n ≤ data.length := by
  unfold send at h
  dsimp only at h
  split at h
  · cases h
  split at h
  · cases h
    exact Nat.zero_le _
  split at h
  · cases h
  split at h
  · cases h
    exact Nat.le_refl _
  · rename_i hsize
    cases h
    unfold partialSend at hsize
    unfold wayOutSize
    omega

end SocketPair

namespace SocketPairs

theorem atNearEnd_eq_ok {α : Type} {fd : Fd} {f : SocketPair → Except OsError α × SocketPair}
    {net net' : SocketPairs} {a : α} (h : atNearEnd fd f net = (.ok a, net')) :
    ∃ p p', f p = (.ok a, p') := by
  unfold atNearEnd at h
  cases hp : net.pair? fd with
  | none => simp [hp] at h
  | some p =>
    simp only [hp] at h
    split at h
    · simp only [Prod.mk.injEq] at h
      exact ⟨p, (f p).2, Prod.ext h.1 rfl⟩
    · cases h

instance : LawfulSockets SocketPairs where
  read_le h := by
    obtain ⟨p, p', hp⟩ := atNearEnd_eq_ok h
    exact SocketPair.read_le hp
  send_le h := by
    obtain ⟨p, p', hp⟩ := atNearEnd_eq_ok h
    exact SocketPair.send_le hp

end SocketPairs

end DuplexRelay
