import DuplexRelay.Bridge.Basic
import DuplexRelay.Reactor.Pass
import DuplexRelay.Session.Testbed

/-!
# Sessions with a bridge

A session drives a bridge between two stacks and the reactor that both register with. The end of
the bridge is logged together with the calls of scripted pipes, in the order in which they happen.
-/

namespace DuplexRelay.Session.Bridge

inductive Action where
  | attach
  /-- calls the callback that a side's scripted pipe was given -/
  | event (side : Side) (events : SocketEvents)
  | monitor
  | pump
  | discard
  | discardReactor
  | look
  | far (side : Side) (action : FarAction)
  | arrange (side : Side) (a : Arrangement)

inductive Result where
  | done
  | noCallback
  | count (n : Nat)
  | truth (b : Bool)
  | received (x : Received)
  | pumped (all : List Received)

/-- How a session starts. -/
structure Plan where
  left : StackPlan
  right : StackPlan
  config : BridgeConfig := {}
  discardOnShutdown : Bool := false

structure World where
  bed : Testbed := {}
  /-- gone once it was discarded -/
  bridge : Option (Bridge (Stack Ground)) := none
  plan : Plan
  /-- the sides whose scripted pipe was given a callback -/
  callbacks : List Side := []

/-- A reactor whose callbacks are the sides of the bridge, and the rest of the session. -/
abbrev State := Reactor Side × World

/-- The network and the reactor, as pipes see them. -/
def host (s : State) : Host Testbed Side := { net := s.2.bed, reactor := s.1 }

def Plan.side (p : Plan) : Side → StackPlan
  | .left => p.left
  | .right => p.right

/-- The descriptors of the socket pipes, the left one first. -/
def Plan.fds (p : Plan) : List Fd := p.left.fd?.toList ++ p.right.fd?.toList

/-- The scripted pipe of a side has a callback. -/
def isAttached (b : Bridge (Stack Ground)) (side : Side) : Bool :=
  match (b.side side).pipe.base with
  | .scripted p => p.attached
  | .tcp _ => false

/-- Gives up the bridge, and tells whether there was one. -/
def discard (s : State) : Bool × State :=
  match s.2.bridge with
  | none => (false, s)
  | some b =>
    let host : Host Testbed Side := b.release (host s)
    (true, host.reactor, { s.2 with bed := host.net, bridge := none })

def shutDown (graceful : Bool) (s : State) : State :=
  let s : State := (s.1, { s.2 with bed := CallLog.record (.shutdown graceful) s.2.bed })
  if s.2.plan.discardOnShutdown then (discard s).2 else s

def invoke (side : Side) (events : SocketEvents) (r : Reactor Side) (w : World) :
    Checked State := do
  match w.bridge with
  | none => return (r, w)
  | some b =>
    let (ending, b, host) ← b.onActivity side events (host (r, w))
    let s : State := (host.reactor, { w with bed := host.net, bridge := some b })
    return ending.elim s (shutDown · s)

def monitor (s : State) : Checked (Except Failure Nat × State) :=
  s.1.monitor (Polls.poll · s.2.bed) invoke s.2

/-- Reads at the far ends of the socket pipes. -/
def readFarEnds (s : State) : List Received × State :=
  let (received, pairs) := Session.readFarEnds s.2.bed.pairs s.2.plan.fds
  (received, s.1, { s.2 with bed := { s.2.bed with pairs } })

def start (plan : Plan) : Checked (Except ConfigError State) := do
  let left ← plan.left.build
  let right ← plan.right.build
  let bridge ← Bridge.between left right plan.config
  return bridge.map fun b =>
    ({}, { bed := plan.right.connect (plan.left.connect {}), bridge := some b, plan })

def attach (s : State) : Checked (Except Failure Result × State) := do
  match s.2.bridge with
  | none => return (.ok .done, s)
  | some b =>
    let (result, b, host) ← b.attach id (host s)
    let callbacks := [Side.left, .right].filter (isAttached b)
    return (result.map fun _ => .done, host.reactor,
      { s.2 with bed := host.net, bridge := some b, callbacks })

def act (s : State) : Action → Checked (Except Failure Result × State)
  | .attach => attach s
  | .event side events => do
    if s.2.callbacks.contains side then
      return (.ok .done, ← invoke side events s.1 s.2)
    else
      return (.ok .noCallback, s)
  | .monitor => do
    let (result, s) ← monitor s
    return (result.map .count, s)
  | .pump => do
    let seen := s.2.plan.fds.map fun _ => ({} : Received)
    let (result, s) ← Session.pump readFarEnds monitor (pumpRounds s.2.bed.pairs) seen s
    return (result.map .pumped, s)
  | .discard =>
    let (existed, s) := discard s
    .ok (.ok (.truth existed), s)
  | .discardReactor => do return (.ok .done, ← s.1.discard, s.2)
  | .look => .ok (.ok .done, s)
  | .far side action =>
    match (s.2.plan.side side).fd? with
    | none => .ok (.ok .done, s)
    | some fd =>
      let (received, pairs) := action.run fd s.2.bed.pairs
      .ok (.ok (received.elim .done .received), s.1, { s.2 with bed := { s.2.bed with pairs } })
  | .arrange side a =>
    let change (b : Bridge (Stack Ground)) := b.setPipe side (a.applyAt (b.side side).pipe)
    .ok (.ok .done, s.1, { s.2 with bridge := s.2.bridge.map change })

/-- Runs a step of the session. What was logged before it is forgotten. -/
def run (s : State) (action : Action) : Checked (Except Failure Result × State) :=
  act (s.1, { s.2 with bed := { s.2.bed with log := [] } }) action

end DuplexRelay.Session.Bridge
