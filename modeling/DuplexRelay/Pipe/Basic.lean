import DuplexRelay.Bytes
import DuplexRelay.Failure
import DuplexRelay.Pipe.Error
import DuplexRelay.Pipe.State
import DuplexRelay.SocketEvents

/-!
# Pipes

A pipe is one end of a duplex stream that never blocks. Pipes stack: an outer pipe owns the pipe
below it, and only the one at the bottom talks to sockets. Its owner registers a callback for the
bottom with `attach`, and hands the readiness that the callback is told to the top of the stack
with `react`. Each layer passes it down, brings its own state up to date, and reports upwards what
changed for its owner.

All operations are functions of the pipe and of the world `W` that it lives in. A violated
contract ends the run; every other fault is a result.
-/

namespace DuplexRelay

inductive Recv where
  | data (bytes : Bytes)
  /-- the other end will send nothing more -/
  | fin
  deriving DecidableEq

/-- What became of a request to close the way out. -/
inductive FinStatus where
  | sent
  /-- it waits for bytes that were accepted before -/
  | pending
  deriving DecidableEq

class HasPipeState (P : Type) where
  /-- the state as the owner sees it -/
  state : P → PipeState

export HasPipeState (state)

/-- The operations of a pipe `P` in a world `W`, where callbacks are of type `C`. -/
class Pipe (P W : Type) (C : outParam Type) extends HasPipeState P where
  attach : C → P → W → Checked (Except Failure Unit × P × W)
  /-- receives up to so many bytes -/
  recv : Nat → P → W → Checked (PipeResult Recv × P × W)
  /-- sends bytes, and tells how many were accepted from the front -/
  send : Bytes → P → W → Checked (PipeResult Nat × P × W)
  sendFin : P → W → Checked (PipeResult FinStatus × P × W)
  react : SocketEvents → P → W → Checked (PipeEvents × P × W)
  /-- asks to be told of readability again soon -/
  rescheduleRead : P → W → W
  release : P → W → W
  /-- a bound on the receives that can go by before the pipe runs dry, if nothing more arrives -/
  backlog : P → W → Nat

end DuplexRelay
