import DuplexRelay.Pipe.Datagram
import DuplexRelay.Pipe.Scripted
import DuplexRelay.Pipe.Tcp

/-!
# Stacks of pipes

Layers can be put on a pipe in any number and order. The type of a stack follows from the list of
its layers, the outermost first, and its operations are those of its outermost layer.
-/

namespace DuplexRelay

/-- What can be put on a pipe. -/
inductive Layer where
  | atomic
  | datagram
  deriving DecidableEq

/-- Pipes with the given layers on a pipe of type `B`. -/
def Stacked (B : Type) : List Layer → Type
  | [] => B
  | .atomic :: rest => Atomic (Stacked B rest)
  | .datagram :: rest => Datagram (Stacked B rest)

namespace Stacked

variable {B W C : Type}

/-- The state of a stack is that of its outermost layer. -/
@[reducible]
def hasPipeState [HasPipeState B] : (layers : List Layer) → HasPipeState (Stacked B layers)
  | [] => inferInstanceAs (HasPipeState B)
  | .atomic :: rest =>
    have := hasPipeState rest
    inferInstanceAs (HasPipeState (Atomic (Stacked B rest)))
  | .datagram :: rest =>
    have := hasPipeState rest
    inferInstanceAs (HasPipeState (Datagram (Stacked B rest)))

/-- The operations of a stack are those of its outermost layer. -/
@[reducible]
def pipe [Pipe B W C] : (layers : List Layer) → Pipe (Stacked B layers) W C
  | [] => inferInstanceAs (Pipe B W C)
  | .atomic :: rest =>
    have := pipe rest
    inferInstanceAs (Pipe (Atomic (Stacked B rest)) W C)
  | .datagram :: rest =>
    have := pipe rest
    inferInstanceAs (Pipe (Datagram (Stacked B rest)) W C)

def base : (layers : List Layer) → Stacked B layers → B
  | [], p => p
  | .atomic :: rest, p => base rest (Atomic.inner p)
  | .datagram :: rest, p => base rest (Datagram.inner p).inner

def mapBase (f : B → B) : (layers : List Layer) → Stacked B layers → Stacked B layers
  | [], p => f p
  | .atomic :: rest, (p : Atomic (Stacked B rest)) =>
    ({ p with inner := mapBase f rest p.inner } : Atomic (Stacked B rest))
  | .datagram :: rest, (p : Datagram (Stacked B rest)) =>
    ({ p with inner := { p.inner with inner := mapBase f rest p.inner.inner } } :
      Datagram (Stacked B rest))

end Stacked

/-- A pipe with any layers. -/
structure Stack (B : Type) where
  layers : List Layer
  top : Stacked B layers

namespace Stack

variable {B W C : Type}

def bare (b : B) : Stack B := ⟨[], b⟩

/-- Puts an atomic layer on top. -/
def atomic (s : Stack B) : Stack B :=
  ⟨.atomic :: s.layers, ({ inner := s.top } : Atomic (Stacked B s.layers))⟩

/-- Puts a datagram layer on top. -/
def datagram (maxSize : Nat) (s : Stack B) : Checked (Stack B) := do
  let top ← Datagram.wrap s.top maxSize
  return ⟨.datagram :: s.layers, top⟩

def base (s : Stack B) : B := Stacked.base s.layers s.top

def mapBase (f : B → B) (s : Stack B) : Stack B := ⟨s.layers, Stacked.mapBase f s.layers s.top⟩

instance [HasPipeState B] : HasPipeState (Stack B) where
  state s := (Stacked.hasPipeState s.layers).state s.top

/-- Puts the outermost layer back into its stack after an operation. -/
def rewrap {α : Type} (layers : List Layer)
    (result : Checked (α × Stacked B layers × W)) : Checked (α × Stack B × W) := do
  let (a, top, w) ← result
  return (a, ⟨layers, top⟩, w)

instance [Pipe B W C] : Pipe (Stack B) W C where
  attach callback s w := rewrap s.layers ((Stacked.pipe s.layers).attach callback s.top w)
  recv n s w := rewrap s.layers ((Stacked.pipe s.layers).recv n s.top w)
  send data s w := rewrap s.layers ((Stacked.pipe s.layers).send data s.top w)
  sendFin s w := rewrap s.layers ((Stacked.pipe s.layers).sendFin s.top w)
  react events s w := rewrap s.layers ((Stacked.pipe s.layers).react events s.top w)
  rescheduleRead s w := (Stacked.pipe s.layers).rescheduleRead s.top w
  release s w := (Stacked.pipe s.layers).release s.top w
  backlog s w := (Stacked.pipe s.layers).backlog s.top w

/-- What the outermost layer shows of itself. -/
inductive View where
  | bare
  | atomic (queued : Nat) (inner : PipeState)
  | datagram (buffered maxSize : Nat)

def view [HasPipeState B] (s : Stack B) : View :=
  match s.layers, s.top with
  | [], _ => .bare
  | .atomic :: rest, (p : Atomic (Stacked B rest)) =>
    .atomic p.queued ((Stacked.hasPipeState rest).state p.inner)
  | .datagram :: _, p => .datagram (Datagram.buffered p) (Datagram.maxSize p)

end Stack

/-- The pipe at the bottom of a stack. -/
inductive Ground where
  | tcp (p : Tcp)
  | scripted (p : Scripted)

namespace Ground

instance : HasPipeState Ground where
  state
    | tcp p => state p
    | scripted p => state p

variable {N C α : Type}

def ofTcp (result : Checked (α × Tcp × Host N C)) : Checked (α × Ground × Host N C) := do
  let (a, p, w) ← result
  return (a, tcp p, w)

def ofScripted (result : Checked (α × Scripted × Host N C)) : Checked (α × Ground × Host N C) := do
  let (a, p, w) ← result
  return (a, scripted p, w)

instance [Sockets N] [CallLog N] : Pipe Ground (Host N C) C where
  attach callback
    | tcp p, w => ofTcp (Pipe.attach callback p w)
    | scripted p, w => ofScripted (Pipe.attach callback p w)
  recv n
    | tcp p, w => ofTcp (Pipe.recv n p w)
    | scripted p, w => ofScripted (Pipe.recv n p w)
  send data
    | tcp p, w => ofTcp (Pipe.send data p w)
    | scripted p, w => ofScripted (Pipe.send data p w)
  sendFin
    | tcp p, w => ofTcp (Pipe.sendFin p w)
    | scripted p, w => ofScripted (Pipe.sendFin p w)
  react events
    | tcp p, w => ofTcp (Pipe.react events p w)
    | scripted p, w => ofScripted (Pipe.react events p w)
  rescheduleRead
    | tcp p, w => Pipe.rescheduleRead p w
    | scripted p, w => Pipe.rescheduleRead p w
  release
    | tcp p, w => Pipe.release p w
    | scripted p, w => Pipe.release p w
  backlog
    | tcp p, w => Pipe.backlog p w
    | scripted p, w => Pipe.backlog p w

end Ground

end DuplexRelay
