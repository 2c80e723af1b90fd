import DuplexRelay.Bridge.Config
import DuplexRelay.Relay.Address
import DuplexRelay.Relay.Mode
import DuplexRelay.Varint

/-!
# Settings of a relay

The accepted connection is the left side of the relay's bridge, and the connection to the target
is the right side. A framed connection is received from with room for a whole datagram. Every chunk
that is received from the other connection becomes one datagram, so it must not be larger than a
datagram may be.
-/

namespace DuplexRelay

structure RelayConfig where
  listen : SocketAddress
  target : SocketAddress
  mode : RelayMode
  /-- clients that may wait to be accepted -/
  backlog : Int
  leftRecvSize : Nat
  rightRecvSize : Nat
  /-- bytes relayed in one direction before other connections get their turn -/
  maxRelayPerEvent : Nat
  maxDatagramSize : Nat
  /-- how long a pass waits for readiness, in microseconds -/
  pollMicros : Nat
  /-- passes between two status lines -/
  statusInterval : Nat

namespace RelayConfig

/-- Sizes are 64 bits wide, that is, below this number. -/
def sizeLimit : Nat := 0x10000000000000000

def plainRecvSize : Nat := 8 * 1024

def framedRecvSize : Nat := 512 * 1024

def budgetFor (recvSize : Nat) : Nat := 8 * recvSize

/-- Sets both receive sizes, and the budget along with them, which must be a size as well. -/
def setRecvSize (recvSize : Nat) (c : RelayConfig) : Checked RelayConfig :=
  if budgetFor recvSize < sizeLimit then
    .ok { c with
      leftRecvSize := recvSize
      rightRecvSize := recvSize
      maxRelayPerEvent := budgetFor recvSize }
  else .error .sizeOverflow

def new (listen target : SocketAddress) (mode : RelayMode) : RelayConfig :=
  let recvSize := if mode = .plain then plainRecvSize else framedRecvSize
  { listen, target, mode
    backlog := 8
    leftRecvSize := recvSize
    rightRecvSize := recvSize
    maxRelayPerEvent := budgetFor recvSize
    maxDatagramSize := 512 * 1024
    pollMicros := 100000
    statusInterval := 17 }

def parseAddress (text : String) : Except ConfigError SocketAddress :=
  match SocketAddress.parse text with
  | some a => .ok a
  | none => .error .addressSyntax

def parse (listen target mode : String) : Except ConfigError RelayConfig := do
  let listen ← parseAddress listen
  let target ← parseAddress target
  return new listen target (← RelayMode.parse mode)

def bridge (c : RelayConfig) : BridgeConfig where
  leftRecvSize := c.leftRecvSize
  rightRecvSize := c.rightRecvSize
  maxRelayPerEvent := c.maxRelayPerEvent

def framedAndUnframed (c : RelayConfig) : Nat × Nat :=
  if c.mode.framesAccepted then (c.leftRecvSize, c.rightRecvSize)
  else (c.rightRecvSize, c.leftRecvSize)

/-- The sizes of a relay with framing fit together. -/
def validateFraming (c : RelayConfig) : Except ConfigError Unit := do
  if c.maxDatagramSize = 0 ∨ Varint.maxValue < c.maxDatagramSize then
    throw (.datagramSizeRange Varint.maxValue)
  let (framed, unframed) := c.framedAndUnframed
  if framed < c.maxDatagramSize then
    throw (.framedReceiveTooSmall framed c.maxDatagramSize)
  if c.maxDatagramSize < unframed then
    throw (.unframedReceiveTooLarge unframed c.maxDatagramSize)

def validate (c : RelayConfig) : Except ConfigError Unit := do
  c.bridge.validate
  if c.backlog ≤ 0 then throw .backlogNotPositive
  if c.pollMicros = 0 then throw .pollIntervalZero
  if c.statusInterval = 0 then throw .statusIntervalZero
  if c.mode ≠ .plain then c.validateFraming

end RelayConfig

end DuplexRelay
