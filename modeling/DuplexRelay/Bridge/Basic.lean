import DuplexRelay.Bridge.Config
import DuplexRelay.Bridge.Stats
import DuplexRelay.ByteBuffer
import DuplexRelay.Pipe.Basic

/-!
# Bridges

A bridge relays data between two pipes in both directions. A side is read only while the other
side is writable. If a side does not take all of a chunk, the rest is queued for it, and nothing
is read from the other side until the queue is gone. The end of a stream on one side is passed on
to the other.

A bridge ends in good order once both sides have sent and received the end of the stream, and
abruptly as soon as either side fails. Its end is reported once, and after that the bridge calls
its pipes no more.
-/

namespace DuplexRelay

structure BridgeSide (P : Type) where
  pipe : P
  /-- data from the other side that this side's pipe did not take yet -/
  pending : Option ByteBuffer := none
  recvSize : Nat
  traffic : Traffic := {}

structure Bridge (P : Type) where
  left : BridgeSide P
  right : BridgeSide P
  /-- bytes relayed in one direction before the bridge yields -/
  budget : Nat
  initialized : Bool := false
  dead : Bool := false
  /-- the figures at the end, after which the pipes are not called any more -/
  finalStats : Option BridgeStats := none

namespace Bridge

variable {P W C : Type}

/-- A bridge between two pipes, with valid settings. Both directions share a buffer for what is
received at once, so there must be one that large. -/
def between (left right : P) (config : BridgeConfig) :
    Checked (Except ConfigError (Bridge P)) := do
  match config.validate with
  | .error e => return .error e
  | .ok () =>
    let _ ← ByteBuffer.alloc config.bufferSize
    return .ok {
      left := { pipe := left, recvSize := config.leftRecvSize }
      right := { pipe := right, recvSize := config.rightRecvSize }
      budget := config.maxRelayPerEvent }

def side (b : Bridge P) : Side → BridgeSide P
  | .left => b.left
  | .right => b.right

def setSide (s : Side) (new : BridgeSide P) (b : Bridge P) : Bridge P :=
  match s with
  | .left => { b with left := new }
  | .right => { b with right := new }

def setPipe (s : Side) (pipe : P) (b : Bridge P) : Bridge P :=
  b.setSide s { b.side s with pipe }

@[simp] theorem side_setSide (b : Bridge P) (s : Side) (new : BridgeSide P) :
    (b.setSide s new).side s = new := by
  cases s <;> rfl

@[simp] theorem side_setSide_peer (b : Bridge P) (s : Side) (new : BridgeSide P) :
    (b.setSide s new).side s.peer = b.side s.peer := by
  cases s <;> rfl

section States

variable [HasPipeState P]

def sideStats (b : Bridge P) (s : Side) : SideStats where
  traffic := (b.side s).traffic
  state := state (b.side s).pipe

/-- The figures, which do not change any more once the bridge is dead. -/
def stats (b : Bridge P) : BridgeStats :=
  b.finalStats.getD { left := b.sideStats .left, right := b.sideStats .right }

def isClosed (b : Bridge P) : Bool :=
  (state b.left.pipe).isClosed && (state b.right.pipe).isClosed

def die (b : Bridge P) : Bridge P := { b with dead := true, finalStats := some b.stats }

inductive Verdict where
  /-- the side is not readable, or the other one not writable -/
  | stop
  /-- the budget of this activity is used up -/
  | yield
  | go
  deriving DecidableEq

/-- Whether the relaying from `src` goes on after so many bytes. -/
def verdict (src : Side) (relayed : Nat) (b : Bridge P) : Verdict :=
  if (state (b.side src).pipe).isReadable && (state (b.side src.peer).pipe).isWritable then
    if b.budget ≤ relayed then .yield else .go
  else .stop

end States

variable [Pipe P W C]

def attach (callback : Side → C) (b : Bridge P) (w : W) :
    Checked (Except Failure Unit × Bridge P × W) := do
  if b.initialized then throw .bridgeInitializedTwice
  let b := { b with initialized := true }
  let (result, pipe, w) ← Pipe.attach (callback .left) b.left.pipe w
  let b := b.setPipe .left pipe
  match result with
  | .error e => return (.error e, b, w)
  | .ok () =>
    let (result, pipe, w) ← Pipe.attach (callback .right) b.right.pipe w
    return (result, b.setPipe .right pipe, w)

/-- Sends what is queued for a side. Once the queue is gone, an end of the stream that came from
the other side meanwhile is passed on. -/
def flush (dst : Side) (b : Bridge P) (w : W) : Checked (PipeResult Unit × Bridge P × W) := do
  let this := b.side dst
  match this.pending with
  | none => return (.ok (), b, w)
  | some pending =>
    let (result, pipe, w) ← Pipe.send pending.live this.pipe w
    match result with
    | .error .wouldBlock => return (.ok (), b.setPipe dst pipe, w)
    | .error e => return (.error e, b.setPipe dst pipe, w)
    | .ok n =>
      let this := { this with
        pipe, traffic := { this.traffic with sent := this.traffic.sent + n } }
      if n < pending.size then
        return (.ok (), b.setSide dst { this with pending := some (← pending.consume n) }, w)
      else
        let b := b.setSide dst { this with pending := none }
        if (state (b.side dst.peer).pipe).finRcvd && !(state pipe).finSent then
          let (result, pipe, w) ← Pipe.sendFin pipe w
          return (result.map fun _ => (), b.setPipe dst pipe, w)
        else
          return (.ok (), b, w)

/-- Sends a chunk that came from the other side. What is not taken is queued. -/
def deliver (dst : Side) (chunk : Bytes) (b : Bridge P) (w : W) :
    Checked (PipeResult Unit × Bridge P × W) := do
  let target := b.side dst
  let (result, pipe, w) ← Pipe.send chunk target.pipe w
  let accepted : PipeResult Nat := match result with
    | .error .wouldBlock => .ok 0
    | other => other
  match accepted with
  | .error e => return (.error e, b.setPipe dst pipe, w)
  | .ok sent =>
    let traffic := { target.traffic with sent := target.traffic.sent + sent }
    if sent < chunk.length then
      let traffic := { traffic with congestions := traffic.congestions + 1 }
      let pending := some (.copyOf (chunk.drop sent))
      return (.ok (), b.setSide dst { target with pipe, pending, traffic }, w)
    else
      return (.ok (), b.setSide dst { target with pipe, traffic }, w)

/-- Receives once from a side and passes on what came. Gives the number of bytes received. The other
side must have nothing queued, or bytes would overtake each other. -/
def transfer (src : Side) (b : Bridge P) (w : W) : Checked (PipeResult Nat × Bridge P × W) := do
  if (b.side src.peer).pending.isSome then throw .queuePassedOver
  let origin := b.side src
  let (result, pipe, w) ← Pipe.recv origin.recvSize origin.pipe w
  let b := b.setPipe src pipe
  match result with
  | .error .wouldBlock => return (.ok 0, b, w)
  | .error e => return (.error e, b, w)
  | .ok .fin =>
    let (result, pipe, w) ← Pipe.sendFin (b.side src.peer).pipe w
    return (result.map fun _ => 0, b.setPipe src.peer pipe, w)
  | .ok (.data chunk) =>
    let origin := b.side src
    let traffic := { origin.traffic with received := origin.traffic.received + chunk.length }
    let (result, b, w) ← deliver src.peer chunk (b.setSide src { origin with traffic }) w
    return (result.map fun _ => chunk.length, b, w)

/-- Relays from a side until it runs dry, the other side is not writable, or the budget is used
up. At most `fuel` receives are made. -/
def relayWithin (src : Side) :
    (fuel relayed : Nat) → Bridge P → W → Checked (PipeResult Unit × Bridge P × W)
  | fuel, relayed, b, w =>
    match b.verdict src relayed, fuel with
    | .stop, _ => .ok (.ok (), b, w)
    | .yield, _ => .ok (.ok (), b, Pipe.rescheduleRead (b.side src).pipe w)
    | .go, 0 => .error .backlogExceeded
    | .go, fuel + 1 => do
      let (result, b, w) ← transfer src b w
      match result with
      | .error e => return (.error e, b, w)
      | .ok n => relayWithin src fuel (relayed + n) b w

/-- Relays from a side. The pipe announces how many receives it can yield at most. -/
def relay (src : Side) (b : Bridge P) (w : W) : Checked (PipeResult Unit × Bridge P × W) :=
  relayWithin src (Pipe.backlog (b.side src).pipe w) 0 b w

def handle (s : Side) (report : PipeEvents) (b : Bridge P) (w : W) :
    Checked (PipeResult Unit × Bridge P × W) := do
  if report.broken then return (.error .broken, b, w)
  let (result, b, w) ←
    if report.writable then do
      let (result, b, w) ← flush s b w
      match result with
      | .error e => pure (.error e, b, w)
      | .ok () =>
        if (state (b.side s).pipe).isWritable then relay s.peer b w else pure (.ok (), b, w)
    else pure (.ok (), b, w)
  match result with
  | .error e => return (.error e, b, w)
  | .ok () =>
    if report.readable && (state (b.side s.peer).pipe).isWritable then relay s b w
    else return (.ok (), b, w)

/-- Acts on readiness of a side's transport. If that ends the bridge, tells whether it ended in
good order. -/
def onActivity (s : Side) (events : SocketEvents) (b : Bridge P) (w : W) :
    Checked (Option Bool × Bridge P × W) := do
  if b.dead then return (none, b, w)
  let (report, pipe, w) ← Pipe.react events (b.side s).pipe w
  let (result, b, w) ← handle s report (b.setPipe s pipe) w
  match result with
  | .error _ => return (some false, b.die, w)
  | .ok () => if b.isClosed then return (some true, b.die, w) else return (none, b, w)

def release (b : Bridge P) (w : W) : W := Pipe.release b.right.pipe (Pipe.release b.left.pipe w)

end Bridge

end DuplexRelay
