import DuplexRelay.Bridge.Basic
import DuplexRelay.Pipe.Stack
import DuplexRelay.Reactor.Pass
import DuplexRelay.Relay.Config

/-!
# A relay at work

A relay bridges an accepted connection and a connection to its target that may still be in the
making, and makes passes of a reactor until the bridge reports its end.

The network is that of the relay together with everything around it. What the other parties do
between two passes is a parameter, so that a run is a function of their behaviour.
-/

namespace DuplexRelay.Relay

abbrev Link := Stack Tcp

def link (tcp : Tcp) (framed : Bool) (maxDatagramSize : Nat) : Checked Link :=
  if framed then (Stack.bare tcp).datagram maxDatagramSize else .ok (.bare tcp)

/-- The pipes over the accepted connection and over the connection to the target. -/
def links (c : RelayConfig) (accepted target : Fd) : Checked (Link × Link) := do
  let left ← link (.connected accepted) c.mode.framesAccepted c.maxDatagramSize
  let right ← link (.connecting target) c.mode.framesTarget c.maxDatagramSize
  return (left, right)

structure World (N : Type) where
  net : N
  bridge : Bridge Link
  /-- how the bridge ended, once it did -/
  ending : Option Bool := none

variable {N : Type} [Sockets N]

def invoke (side : Side) (events : SocketEvents) (r : Reactor Side) (w : World N) :
    Checked (Reactor Side × World N) := do
  let host : Host N Side := { net := w.net, reactor := r }
  let (ending, bridge, host) ← w.bridge.onActivity side events host
  return (host.reactor, { net := host.net, bridge, ending := w.ending.or ending })

variable [Polls N]

/-- Makes passes until the bridge ends, and tells how it ended. The list says what the other parties
do before each pass. The bridge may still be at work when the list ends. A status line is due after
every so many passes, which no pass can be if that number is zero. -/
def drive (statusInterval : Nat) : (others : List (N → N)) → Reactor Side → World N →
    Checked (Except Failure (Option Bool) × Reactor Side × World N)
  | [], r, w => .ok (.ok w.ending, r, w)
  | act :: others, r, w =>
    if w.ending.isSome then .ok (.ok w.ending, r, w)
    else do
      let w := { w with net := act w.net }
      let (result, r, w) ← r.monitor (Polls.poll · w.net) invoke w
      match result with
      | .error e => return (.error e, r, w)
      | .ok _ =>
        if statusInterval = 0 then throw .reportIntervalZero
        drive statusInterval others r w

/-- Bridges two connections until the bridge ends, while the other parties act before each pass,
and closes them. -/
def run (others : List (N → N)) (c : RelayConfig) (accepted target : Fd) (net : N) :
    Checked (Except Failure (Option Bool) × N) := do
  let (left, right) ← links c accepted target
  match ← Bridge.between left right c.bridge with
  | .error e => return (.error (.config e), Sockets.close target (Sockets.close accepted net))
  | .ok bridge =>
    let host : Host N Side := { net, reactor := {} }
    let (result, bridge, host) ← bridge.attach id host
    let (result, reactor, w) ← match result with
      | .error e => pure (.error e, host.reactor, { net := host.net, bridge })
      | .ok () => drive c.statusInterval others host.reactor { net := host.net, bridge }
    let host : Host N Side := w.bridge.release { net := w.net, reactor }
    return (result, host.net)

end DuplexRelay.Relay
