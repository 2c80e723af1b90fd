import DuplexRelay.Reactor.Pass
import DuplexRelay.Session.Testbed

/-!
# Sessions with a pipe stack

A session drives one stack of pipes and the reactor that it registers with. The callback hands the
readiness to the top of the stack, and what the top reports is recorded.
-/

namespace DuplexRelay.Session.Pipe

inductive Action where
  | attach
  | recv (room : Nat)
  | send (data : Bytes)
  | fin
  | react (events : SocketEvents)
  | reschedule
  | look
  | monitor
  | release
  | interest
  | pump
  | far (action : FarAction)
  | arrange (a : Arrangement)

inductive Result where
  | done
  | recv (r : PipeResult Recv)
  /-- how many bytes of how many were accepted -/
  | send (r : PipeResult Nat) (offered : Nat)
  | fin (r : PipeResult FinStatus)
  | events (e : PipeEvents)
  | count (n : Nat)
  | interest (i : Option SocketEvents)
  | received (x : Received)
  | pumped (all : List Received)

structure World where
  bed : Testbed := {}
  /-- gone once it was released -/
  stack : Option (Stack Ground) := none
  /-- the descriptor of a socket pipe at the bottom -/
  fd? : Option Fd := none
  /-- what the stack reported to its callback in the present step, the last first -/
  reports : List PipeEvents := []

/-- A reactor, with callbacks that need no name, and the rest of the session. -/
abbrev State := Reactor Unit × World

def onStack {α : Type} (absent : α)
    (f : Stack Ground → Host Testbed Unit → Checked (α × Stack Ground × Host Testbed Unit))
    (s : State) : Checked (α × State) :=
  match s.2.stack with
  | none => .ok (absent, s)
  | some stack => do
    let (a, stack, host) ← f stack { net := s.2.bed, reactor := s.1 }
    return (a, host.reactor, { s.2 with bed := host.net, stack := some stack })

/-- The callback: the top of the stack takes notice, and its report is recorded. -/
def invoke (_ : Unit) (events : SocketEvents) (r : Reactor Unit) (w : World) : Checked State := do
  let (report, r, w) ← onStack none (fun stack host => do
    let (report, rest) ← DuplexRelay.Pipe.react events stack host
    return (some report, rest)) (r, w)
  return (r, { w with reports := report.toList ++ w.reports })

def monitor (s : State) : Checked (Except Failure Nat × State) :=
  s.1.monitor (Polls.poll · s.2.bed) invoke s.2

def readFarEnd (s : State) : List Received × State :=
  let (received, pairs) := readFarEnds s.2.bed.pairs s.2.fd?.toList
  (received, s.1, { s.2 with bed := { s.2.bed with pairs } })

def attach (s : State) : Checked (Except Failure Unit × State) :=
  onStack (.ok ()) (DuplexRelay.Pipe.attach ()) s

/-- Starts a session, and registers the stack with the reactor if that is wanted. -/
def start (plan : StackPlan) (attached : Bool) : Checked (Except Failure State) := do
  let stack ← plan.build
  let s : State := ({}, { bed := plan.connect {}, stack := some stack, fd? := plan.fd? })
  if attached then
    let (result, s) ← attach s
    return result.map fun _ => s
  else
    return .ok s

def act (s : State) : Action → Checked (Except Failure Result × State)
  | .attach => do
    let (result, s) ← attach s
    return (result.map fun _ => .done, s)
  | .recv room => do
    let buffer ← ByteBuffer.alloc room
    onStack (.ok .done) (fun stack host => do
      let (result, rest) ← DuplexRelay.Pipe.recv buffer.tailRoom stack host
      return (.ok (.recv result), rest)) s
  | .send data => onStack (.ok .done) (fun stack host => do
      let (result, rest) ← DuplexRelay.Pipe.send data stack host
      return (.ok (.send result data.length), rest)) s
  | .fin => onStack (.ok .done) (fun stack host => do
      let (result, rest) ← DuplexRelay.Pipe.sendFin stack host
      return (.ok (.fin result), rest)) s
  | .react events => onStack (.ok .done) (fun stack host => do
      let (report, rest) ← DuplexRelay.Pipe.react events stack host
      return (.ok (.events report), rest)) s
  | .reschedule => onStack (.ok .done) (fun stack host =>
      .ok (.ok .done, stack, DuplexRelay.Pipe.rescheduleRead stack host)) s
  | .look => .ok (.ok .done, s)
  | .monitor => do
    let (result, s) ← monitor s
    return (result.map .count, s)
  | .release => do
    let (result, r, w) ← onStack (.ok .done) (fun stack host =>
      .ok (.ok .done, stack, DuplexRelay.Pipe.release stack host)) s
    return (result, r, { w with stack := none })
  | .interest => .ok (.ok (.interest (s.2.fd?.bind s.1.interest?)), s)
  | .pump => do
    let (result, r, w) ←
      Session.pump readFarEnd monitor (pumpRounds s.2.bed.pairs) (s.2.fd?.toList.map fun _ => {}) s
    return (result.map .pumped, r, { w with reports := [] })
  | .far action =>
    match s.2.fd? with
    | none => .ok (.ok .done, s)
    | some fd =>
      let (received, pairs) := action.run fd s.2.bed.pairs
      .ok (.ok (received.elim .done .received), s.1, { s.2 with bed := { s.2.bed with pairs } })
  | .arrange a => .ok (.ok .done, s.1, { s.2 with stack := s.2.stack.map a.applyAt })

/-- Runs a step of the session. What was logged and reported before it is forgotten. -/
def run (s : State) (action : Action) : Checked (Except Failure Result × State) :=
  act (s.1, { s.2 with bed := { s.2.bed with log := [] }, reports := [] }) action

end DuplexRelay.Session.Pipe
