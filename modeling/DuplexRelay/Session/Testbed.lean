import DuplexRelay.Pipe.Stack
import DuplexRelay.Session.FarEnd

/-!
# Where pipe stacks are tried out

A testbed is a network in memory with a log. Stacks are put together from a plan, over a socket
pipe whose far end the session plays, or over a scripted pipe that the session arranges.
-/

namespace DuplexRelay.Session

/-- Connections in memory and a log. -/
structure Testbed where
  pairs : SocketPairs := {}
  /-- the lines of the log, the last first -/
  log : List LogLine := []

namespace Testbed

def onPairs {α : Type} (f : SocketPairs → α × SocketPairs) (t : Testbed) : α × Testbed :=
  let (a, pairs) := f t.pairs
  (a, { t with pairs })

instance : Sockets Testbed where
  read fd n := onPairs (Sockets.read fd n)
  send fd data := onPairs (Sockets.send fd data)
  shutdown fd := onPairs (Sockets.shutdown fd)
  takeError fd := onPairs (Sockets.takeError fd)
  close fd t := { t with pairs := Sockets.close fd t.pairs }
  queued fd t := Sockets.queued fd t.pairs

instance : Polls Testbed where
  poll fds t := Polls.poll fds t.pairs

instance : CallLog Testbed where
  record line t := { t with log := line :: t.log }

end Testbed

inductive LayerPlan where
  | atomic
  | datagram (maxSize : Nat)

structure StackPlan where
  ground : Ground
  /-- the innermost layer first -/
  layers : List LayerPlan

namespace StackPlan

def cover (s : Stack Ground) : LayerPlan → Checked (Stack Ground)
  | .atomic => .ok s.atomic
  | .datagram maxSize => s.datagram maxSize

def build (p : StackPlan) : Checked (Stack Ground) := p.layers.foldlM cover (.bare p.ground)

/-- The descriptor of a socket pipe at the bottom. -/
def fd? (p : StackPlan) : Option Fd :=
  match p.ground with
  | .tcp t => some t.fd
  | .scripted _ => none

/-- Makes the connection that the stack is about to use, if any. -/
def connect (p : StackPlan) (t : Testbed) : Testbed :=
  match p.fd? with
  | some fd => { t with pairs := t.pairs.connect fd }
  | none => t

end StackPlan

/-- A change to what a scripted pipe will answer. -/
inductive Arrangement where
  | feed (items : List RecvItem)
  | sends (items : List SendItem)
  | fins (items : List FinItem)
  | set (bits : PipeState)

def Arrangement.apply (p : Scripted) : Arrangement → Scripted
  | feed items => { p with recvs := p.recvs ++ items }
  | sends items => { p with sends := p.sends ++ items }
  | fins items => { p with fins := p.fins ++ items }
  | set bits => { p with bits }

/-- Changes what the scripted pipe at the bottom of a stack will answer. -/
def Arrangement.applyAt (s : Stack Ground) (a : Arrangement) : Stack Ground :=
  s.mapBase fun
    | .scripted p => .scripted (a.apply p)
    | .tcp p => .tcp p

/-- Reads at far ends and runs passes of the reactor in turn, until neither yields anything, and
gives all that was read at each far end. There may be no rest at all, since a bridge that came to
its end does not take notice of its sockets any more, so the rounds are limited. -/
def pump {σ : Type} (read : σ → List Received × σ)
    (pass : σ → Checked (Except Failure Nat × σ)) :
    (rounds : Nat) → List Received → σ → Checked (Except Failure (List Received) × σ)
  | 0, seen, s => .ok (.ok seen, s)
  | rounds + 1, seen, s => do
    let (new, s) := read s
    let seen := seen.zipWith (fun a b => ⟨a.data ++ b.data, a.ended || b.ended⟩) new
    let (result, s) ← pass s
    match result with
    | .error e => return (.error e, s)
    | .ok n =>
      if n = 0 && new.all (·.data.isEmpty) then return (.ok seen, s)
      else pump read pass rounds seen s

/-- A limit for the rounds. Where there is a rest, each round before it takes something out of the
connections. -/
def pumpRounds (net : SocketPairs) : Nat :=
  64 + 4 * net.table.foldr (fun (_, p) n => p.inbound.size + p.outbound.size + n) 0

def readFarEnds (net : SocketPairs) : List Fd → List Received × SocketPairs
  | [] => ([], net)
  | fd :: rest =>
    let (received, net) := readFar fd net
    let (others, net) := readFarEnds net rest
    (received :: others, net)

end DuplexRelay.Session
