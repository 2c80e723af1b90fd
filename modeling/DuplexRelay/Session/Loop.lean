import DuplexRelay.Reactor.Pass
import DuplexRelay.Session.FarEnd

/-!
# Sessions with a reactor

A session drives one reactor over connections in memory. Its callbacks are scripted: the first
call of a callback does the first list of actions of its script, and so on. Every call is logged
with the results of its actions.
-/

namespace DuplexRelay.Session.Loop

inductive Action where
  | add (fd : Fd) (interest : SocketEvents) (script : List (List Action))
  | tryAdd (fd : Fd) (interest : SocketEvents) (script : List (List Action))
  | modify (fd : Fd) (interest : SocketEvents)
  | tryModify (fd : Fd) (interest : SocketEvents)
  | del (fd : Fd)
  | reschedule (fd : Fd) (events : SocketEvents)
  | discard
  | query (fd : Fd)
  | monitor
  | connect (fds : List Fd)
  | close (fd : Fd)
  | read (fd : Fd)
  | far (fd : Fd) (action : FarAction)

inductive Result where
  | done
  | failed (e : Failure)
  | registered
  | absent
  | truth (b : Bool)
  | count (n : Option Nat)
  | view (registered : Bool) (interest : Option SocketEvents) (registrations : Nat)
      (disposed : Bool)
  | received (x : Received)

/-- A callback: its descriptor, and the number under which its script is kept. -/
structure Callback where
  fd : Fd
  script : Nat

structure Call where
  fd : Fd
  events : SocketEvents
  results : List Result

structure World where
  net : SocketPairs := {}
  /-- what is left of each callback's script -/
  scripts : Array (List (List Action)) := #[]
  /-- the calls of the present step, the last first -/
  calls : List Call := []

abbrev State := Reactor Callback × World

def register (fd : Fd) (interest : SocketEvents) (script : List (List Action)) (s : State) :
    Checked (Result × State) := do
  let (r, w) := s
  match ← r.add fd interest ⟨fd, w.scripts.size⟩ with
  | .ok r => return (.done, r, { w with scripts := w.scripts.push script })
  | .error e => return (.failed e, r, w)

/-- Does an action inside a callback. A pass can not be started there. -/
def act (s : State) : Action → Checked (Result × State)
  | .add fd interest script => register fd interest script s
  | .tryAdd fd interest script =>
    if s.1.isRegistered fd then .ok (.registered, s) else register fd interest script s
  | .modify fd interest => do return (.done, ← s.1.modify fd interest, s.2)
  | .tryModify fd interest =>
    if s.1.isRegistered fd then do return (.done, ← s.1.modify fd interest, s.2)
    else .ok (.absent, s)
  | .del fd => .ok (.done, s.1.del fd, s.2)
  | .reschedule fd events =>
    let (known, r) := s.1.reschedule fd events
    .ok (.truth known, r, s.2)
  | .discard => do return (.done, ← s.1.discard, s.2)
  | .query fd =>
    .ok (.view (s.1.isRegistered fd) (s.1.interest? fd) s.1.count s.1.isDisposed, s)
  | .monitor => do
    match ← s.1.admitPass with
    | .ok () => return (.count (some 0), s)
    | .error e => return (.failed e, s)
  | .connect fds =>
    .ok (.done, s.1, { s.2 with net := fds.foldl (fun net fd => net.connect fd) s.2.net })
  | .close fd => .ok (.done, s.1, { s.2 with net := s.2.net.remove fd })
  | .read fd =>
    let (result, net) := Sockets.read fd 65536 s.2.net
    .ok (.count (result.toOption.map (·.length)), s.1, { s.2 with net })
  | .far fd action =>
    let (received, net) := action.run fd s.2.net
    .ok (received.elim .done .received, s.1, { s.2 with net })

def actAll (s : State) : List Action → Checked (List Result × State)
  | [] => .ok ([], s)
  | action :: rest => do
    let (result, s) ← act s action
    let (results, s) ← actAll s rest
    return (result :: results, s)

/-- Calls a callback: it does the next list of actions of its script. -/
def invoke (callback : Callback) (events : SocketEvents) (r : Reactor Callback) (w : World) :
    Checked State := do
  let script := w.scripts[callback.script]?.getD []
  let w := { w with scripts := w.scripts.modify callback.script (·.drop 1) }
  let (results, r, w) ← actAll (r, w) (script.head?.getD [])
  return (r, { w with calls := ⟨callback.fd, events, results⟩ :: w.calls })

/-- Runs a step of the session: its result, and the calls that it led to. -/
def run (s : State) (action : Action) : Checked ((Result × List Call) × State) := do
  let (result, r, w) ← match action with
    | .monitor => do
      let (result, s) ← s.1.monitor (Polls.poll · s.2.net) invoke s.2
      let result := match result with
        | .ok n => Result.count (some n)
        | .error e => .failed e
      pure (result, s)
    | action => act s action
  return ((result, w.calls.reverse), r, { w with calls := [] })

end DuplexRelay.Session.Loop
