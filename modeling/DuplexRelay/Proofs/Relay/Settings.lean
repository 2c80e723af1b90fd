import DuplexRelay.Proofs.Bridge.NoStall
import DuplexRelay.Proofs.Pipe.Gauged

/-! What settings that can be used are worth. The pipes of a relay and its bridge can be had with
them, and the sizes that the framing works with fit those of the bridge. -/

namespace DuplexRelay

namespace RelayConfig

variable {c : RelayConfig}

theorem usable_of_validate (h : c.validate = .ok ()) : c.bridge.validate = .ok () ∧
    c.statusInterval ≠ 0 ∧ (c.mode ≠ .plain → c.maxDatagramSize ≤ Varint.maxValue ∧
      c.maxDatagramSize ≤ c.framedAndUnframed.1 ∧ c.framedAndUnframed.2 ≤ c.maxDatagramSize) := by
  unfold validate at h
  cases hb : c.bridge.validate with
  | error e =>
    rw [hb] at h
    cases h
  | ok =>
    rw [hb] at h
    simp only [bind, Except.bind, throw, throwThe, MonadExceptOf.throw] at h
    split at h
    · cases h
    split at h
    · cases h
    split at h
    · cases h
    rename_i hinterval
    refine ⟨rfl, hinterval, fun hm => ?_⟩
    rw [if_pos hm] at h
    unfold validateFraming at h
    simp only [bind, Except.bind, throw, throwThe, MonadExceptOf.throw] at h
    split at h
    · cases h
    split at h
    · cases h
    split at h
    · cases h
    omega

/-- The largest datagram of a side, if that side is framed. -/
def limit (c : RelayConfig) : Side → Option Nat
  | .left => if c.mode.framesAccepted then some c.maxDatagramSize else none
  | .right => if c.mode.framesTarget then some c.maxDatagramSize else none

theorem sizes_of_limit (h : c.validate = .ok ()) {s : Side} {n : Nat} (hn : c.limit s = some n) :
    n ≤ Varint.maxValue ∧ n ≤ c.bridge.recvSize s ∧ c.bridge.recvSize s.peer ≤ n := by
  obtain ⟨_, _, hsizes⟩ := usable_of_validate h
  have hframed : c.mode ≠ .plain := by
    intro hm
    cases s <;> simp [limit, hm, RelayMode.framesAccepted, RelayMode.framesTarget] at hn
  obtain ⟨hmax, hroom, hmost⟩ := hsizes hframed
  unfold framedAndUnframed at hroom hmost
  unfold limit at hn
  cases hm : c.mode with
  | plain => exact absurd hm hframed
  | client =>
    rw [hm] at hroom hmost hn
    cases s with
    | left => cases hn
    | right =>
      cases hn
      exact ⟨hmax, hroom, hmost⟩
  | server =>
    rw [hm] at hroom hmost hn
    cases s with
    | left =>
      cases hn
      exact ⟨hmax, hroom, hmost⟩
    | right => cases hn

end RelayConfig

namespace Relay

open Bridge (IsNew)

variable {c : RelayConfig}

def linked (tcp : Tcp) : Option Nat → Link
  | none => .bare tcp
  | some maxSize => ⟨[.datagram], ({ inner := { inner := tcp }, maxSize } : Datagram Tcp)⟩

theorem base_linked (tcp : Tcp) (limit : Option Nat) : (linked tcp limit).base = tcp := by
  cases limit <;> rfl

theorem limited_linked (tcp : Tcp) (limit : Option Nat) : (linked tcp limit).Limited limit := by
  cases limit with
  | none => exact .bare tcp
  | some maxSize => exact .framed { inner := { inner := tcp }, maxSize }

theorem link_eq_ok (tcp : Tcp) {wrapped : Bool} {maxSize : Nat}
    (h : wrapped = true → maxSize ≤ Varint.maxValue) :
    link tcp wrapped maxSize = .ok (linked tcp (if wrapped then some maxSize else none)) := by
  unfold link
  cases wrapped with
  | false => rfl
  | true =>
    unfold Stack.datagram Datagram.wrap
    rw [if_pos rfl, if_pos (h rfl)]
    rfl

theorem links_eq_ok (h : c.validate = .ok ()) (accepted target : Fd) :
    links c accepted target = .ok (linked (.connected accepted) (c.limit .left),
        linked (.connecting target) (c.limit .right)) ∧
      IsNew (linked (.connected accepted) (c.limit .left)) ∧
      IsNew (linked (.connecting target) (c.limit .right)) := by
  have hleft : link (.connected accepted) c.mode.framesAccepted c.maxDatagramSize =
      .ok (linked (.connected accepted) (c.limit .left)) :=
    link_eq_ok _ fun hf => (RelayConfig.sizes_of_limit (s := .left) h (if_pos hf)).1
  have hright : link (.connecting target) c.mode.framesTarget c.maxDatagramSize =
      .ok (linked (.connecting target) (c.limit .right)) :=
    link_eq_ok _ fun hf => (RelayConfig.sizes_of_limit (s := .right) h (if_pos hf)).1
  refine ⟨?_, ⟨_, _, _, .inr hleft⟩, ⟨_, _, _, .inl hright⟩⟩
  unfold links
  rw [hleft, hright]
  rfl

end Relay

/-- With settings that can be used, a bridge can be had unless its buffer would be larger than any
store. -/
theorem Bridge.between_cases {P : Type} (left right : P) {config : BridgeConfig}
    (h : config.validate = .ok ()) : (∃ b, between left right config = .ok (.ok b)) ∨
      between left right config = .error .capacityExceeded ∧
        ByteBuffer.maxCapacity < config.bufferSize := by
  unfold between
  rw [h]
  have hempty : ([] : Bytes).length ≤ config.bufferSize := Nat.zero_le _
  rcases Datagram.seeded_cases hempty with hnew | ⟨hnone, hlarge⟩
  · refine .inl ⟨{
      left := { pipe := left, recvSize := config.leftRecvSize }
      right := { pipe := right, recvSize := config.rightRecvSize }
      budget := config.maxRelayPerEvent }, ?_⟩
    dsimp only
    rw [ByteBuffer.alloc, hnew]
    rfl
  · refine .inr ⟨?_, hlarge⟩
    dsimp only
    rw [ByteBuffer.alloc, hnone]
    rfl

end DuplexRelay
