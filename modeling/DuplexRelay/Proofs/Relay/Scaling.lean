import DuplexRelay.CommandLine

/-! The budget that goes with a receive size. It is eight times that size as long as the product
is a size itself, and then the bridge can be had with it unless the size is zero. A product that
is no size ends the run before any check, also where the command line sets the budget to something
else. -/

namespace DuplexRelay

theorem BridgeConfig.validate_eq_ok_iff {c : BridgeConfig} :
    c.validate = .ok () ↔
      0 < c.leftRecvSize ∧ 0 < c.rightRecvSize ∧ c.bufferSize ≤ c.maxRelayPerEvent := by
  unfold validate
  constructor
  · intro h
    split at h
    · cases h
    split at h
    · cases h
    omega
  · rintro ⟨hleft, hright, hbudget⟩
    rw [if_neg (by omega), if_neg (by omega)]

namespace RelayConfig

/-- Both receive sizes are this one, and the budget covers eight receives. Nothing else differs. -/
structure Scaled (recvSize : Nat) (start c : RelayConfig) : Prop where
  settings : c = { start with
    leftRecvSize := recvSize
    rightRecvSize := recvSize
    maxRelayPerEvent := 8 * recvSize }
  fits : 8 * recvSize < sizeLimit

theorem setRecvSize_eq_ok_iff {recvSize : Nat} {start c : RelayConfig} :
    start.setRecvSize recvSize = .ok c ↔ Scaled recvSize start c := by
  unfold setRecvSize budgetFor
  constructor
  · intro h
    split at h
    · rename_i hfits
      cases h
      exact ⟨rfl, hfits⟩
    · cases h
  · rintro ⟨rfl, hfits⟩
    rw [if_pos hfits]

theorem setRecvSize_eq_error_iff {recvSize : Nat} {start : RelayConfig} {v : Violation} :
    start.setRecvSize recvSize = .error v ↔ v = .sizeOverflow ∧ sizeLimit ≤ 8 * recvSize := by
  unfold setRecvSize budgetFor
  constructor
  · intro h
    split at h
    · cases h
    · rename_i hlarge
      cases h
      exact ⟨rfl, by omega⟩
  · rintro ⟨rfl, hlarge⟩
    rw [if_neg (by omega)]

/-- The buffer of the bridge is as large as a receive, and the budget covers it. -/
theorem Scaled.bridge {recvSize : Nat} {start c : RelayConfig} (h : Scaled recvSize start c) :
    c.bridge.bufferSize = recvSize ∧ c.bridge.bufferSize ≤ c.bridge.maxRelayPerEvent ∧
      (c.bridge.validate = .ok () ↔ 0 < recvSize) := by
  have hbuffer : c.bridge.bufferSize = recvSize := by
    rw [h.settings]
    exact Nat.max_self recvSize
  have hcovered : c.bridge.bufferSize ≤ c.bridge.maxRelayPerEvent := by
    rw [hbuffer, h.settings]
    change recvSize ≤ 8 * recvSize
    omega
  refine ⟨hbuffer, hcovered, ?_⟩
  rw [BridgeConfig.validate_eq_ok_iff]
  constructor
  · rintro ⟨hleft, _, _⟩
    rwa [h.settings] at hleft
  · intro hpos
    refine ⟨?_, ?_, hcovered⟩ <;> rwa [h.settings]

end RelayConfig

namespace CommandLine

theorem Arguments.config_eq_error {a : Arguments} {c : RelayConfig} {recvSize : Nat}
    (hsize : a.recvSize = some recvSize)
    (hparsed : RelayConfig.parse (a.listen.getD "0.0.0.0:55555") (a.target.getD "127.0.0.1:22")
      (a.mode.getD "plain") = .ok c)
    (hlarge : RelayConfig.sizeLimit ≤ 8 * recvSize) : a.config = .error .sizeOverflow := by
  have hstop : c.setRecvSize recvSize = .error .sizeOverflow :=
    RelayConfig.setRecvSize_eq_error_iff.mpr ⟨rfl, hlarge⟩
  unfold Arguments.config
  rw [hparsed]
  dsimp only
  rw [hsize]
  dsimp only
  rw [hstop]
  rfl

end CommandLine

namespace RelayConfig

/-- The settings of any mode take on every receive size that is an eighth of a size at most. The
budget is then the product, and the bridge can be had exactly with a positive receive size. -/
theorem budget_scales (listen target : SocketAddress) (mode : RelayMode) (recvSize : Nat) :
    (8 * recvSize < sizeLimit →
      ∃ c, (new listen target mode).setRecvSize recvSize = .ok c ∧
        c.leftRecvSize = recvSize ∧ c.rightRecvSize = recvSize ∧
        c.maxRelayPerEvent = 8 * recvSize ∧ c.bridge.bufferSize ≤ c.maxRelayPerEvent ∧
        (c.bridge.validate = .ok () ↔ 0 < recvSize)) ∧
    (sizeLimit ≤ 8 * recvSize →
      (new listen target mode).setRecvSize recvSize = .error .sizeOverflow ∧
      ∀ (a : CommandLine.Arguments) (c : RelayConfig), a.recvSize = some recvSize →
        parse (a.listen.getD "0.0.0.0:55555") (a.target.getD "127.0.0.1:22")
          (a.mode.getD "plain") = .ok c → a.config = .error .sizeOverflow) := by
  constructor
  · intro hfits
    have hscaled : Scaled recvSize (new listen target mode) _ := ⟨rfl, hfits⟩
    obtain ⟨_, hcovered, hvalid⟩ := hscaled.bridge
    exact ⟨_, setRecvSize_eq_ok_iff.mpr hscaled, rfl, rfl, rfl, hcovered, hvalid⟩
  · intro hlarge
    refine ⟨setRecvSize_eq_error_iff.mpr ⟨rfl, hlarge⟩, ?_⟩
    intro a c hsize hparsed
    exact CommandLine.Arguments.config_eq_error hsize hparsed hlarge

/-- The largest receive size that has a budget, and the next one, which is refused even where the
command line gives a budget. -/
theorem budget_scales_to_limit :
    (∃ c, (new (.v4 ⟨0, 0, 0, 0⟩ 1) (.v4 ⟨127, 0, 0, 1⟩ 22) .client).setRecvSize
        0x1fffffffffffffff = .ok c ∧
      c.maxRelayPerEvent = 0xfffffffffffffff8 ∧ c.bridge.validate = .ok ()) ∧
    CommandLine.Arguments.config
      { recvSize := some 0x2000000000000000, maxRelayPerEvent := some 0x4000000000000000 } =
        .error .sizeOverflow := by
  constructor
  · obtain ⟨c, hset, _, _, hbudget, _, hvalid⟩ := (budget_scales (.v4 ⟨0, 0, 0, 0⟩ 1)
      (.v4 ⟨127, 0, 0, 1⟩ 22) .client 0x1fffffffffffffff).1 (by decide)
    exact ⟨c, hset, hbudget, hvalid.mpr (by decide)⟩
  · have hparsed : parse "0.0.0.0:55555" "127.0.0.1:22" "plain" =
        .ok (new (.v4 ⟨0, 0, 0, 0⟩ 55555) (.v4 ⟨127, 0, 0, 1⟩ 22) .plain) := rfl
    exact ((budget_scales (.v4 ⟨0, 0, 0, 0⟩ 1) (.v4 ⟨127, 0, 0, 1⟩ 22) .client
      0x2000000000000000).2 (by decide)).2 _ _ rfl hparsed

end RelayConfig

end DuplexRelay
