import DuplexRelay.Failure

/-! # Settings of a bridge -/

namespace DuplexRelay

/-- The sizes that a bridge works with. -/
structure BridgeConfig where
  /-- bytes taken from the left pipe in one receive; a framed pipe needs room for a datagram -/
  leftRecvSize : Nat := 8 * 1024
  rightRecvSize : Nat := 8 * 1024
  /-- bytes relayed in one direction before the bridge yields -/
  maxRelayPerEvent : Nat := 64 * 1024

namespace BridgeConfig

def bufferSize (c : BridgeConfig) : Nat := max c.leftRecvSize c.rightRecvSize

/-- Receive sizes must be positive, and the budget must cover a receive. -/
def validate (c : BridgeConfig) : Except ConfigError Unit :=
  if c.leftRecvSize = 0 ∨ c.rightRecvSize = 0 then .error .receiveSizeZero
  else if c.maxRelayPerEvent < c.bufferSize then
    .error (.budgetBelowReceiveSize c.maxRelayPerEvent c.bufferSize)
  else .ok ()

end BridgeConfig

end DuplexRelay
