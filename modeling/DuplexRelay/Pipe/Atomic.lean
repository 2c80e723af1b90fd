import DuplexRelay.ByteBuffer
import DuplexRelay.Pipe.Basic

/-!
# Sends that are accepted as a whole

An atomic pipe accepts all of a buffer or nothing. What the pipe below does not take at once is
queued and sent when that pipe becomes writable again. While something is queued the pipe is not
writable and refuses further sends, and a request to close the way out waits for the queue. The
delayed closing is reported as `finSent`.
-/

namespace DuplexRelay

structure Atomic (P : Type) where
  inner : P
  /-- bytes that were accepted and that the pipe below did not take yet -/
  queue : Option ByteBuffer := none
  /-- the way out is to be closed behind the queue -/
  finWanted : Bool := false

namespace Atomic

variable {P W C : Type}

def queued (p : Atomic P) : Nat := (p.queue.map (·.size)).getD 0

instance [HasPipeState P] : HasPipeState (Atomic P) where
  state p :=
    if p.queue.isSome then { state p.inner with writable := false } else state p.inner

variable [Pipe P W C]

/-- Offers the queue to the pipe below, and takes out of the report what did not come true. -/
def flushQueue (events : PipeEvents) (p : Atomic P) (w : W) :
    Checked (PipeEvents × Atomic P × W) := do
  match p.queue with
  | none => return (events, p, w)
  | some queue =>
    let (result, inner, w) ← Pipe.send queue.live p.inner w
    let p := { p with inner }
    match result with
    | .error e =>
      return ({ events with broken := events.broken || e.isFatal, writable := false }, p, w)
    | .ok n =>
      if n < queue.size then
        let rest ← queue.consume n
        return ({ events with writable := false }, { p with queue := some rest }, w)
      else
        let writable := events.writable && (state inner).isWritable
        return ({ events with writable }, { p with queue := none }, w)

/-- Closes the way out once nothing is queued before the closing any more. -/
def flushFin (events : PipeEvents) (p : Atomic P) (w : W) :
    Checked (PipeEvents × Atomic P × W) := do
  if p.queue.isNone && p.finWanted then
    let (result, inner, w) ← Pipe.sendFin p.inner w
    let p := { p with inner, finWanted := false }
    let events := { events with writable := false }
    match result with
    | .ok .sent => return ({ events with finSent := true }, p, w)
    | .ok .pending => return (events, p, w)
    | .error e => return ({ events with broken := events.broken || e.isFatal }, p, w)
  else
    return (events, p, w)

def sendWhole (data : Bytes) (p : Atomic P) (w : W) :
    Checked (PipeResult Nat × Atomic P × W) := do
  if p.finWanted then throw .atomicSendAfterFin
  if p.queue.isSome then return (.error .wouldBlock, p, w)
  let (result, inner, w) ← Pipe.send data p.inner w
  let p := { p with inner }
  match result with
  | .error e => return (.error e, p, w)
  | .ok n =>
    if n < data.length then
      return (.ok data.length, { p with queue := some (.copyOf (data.drop n)) }, w)
    else
      return (.ok data.length, p, w)

def closeBehind (p : Atomic P) (w : W) : Checked (PipeResult FinStatus × Atomic P × W) := do
  if p.finWanted then throw .atomicFinTwice
  if p.queue.isSome then return (.ok .pending, { p with finWanted := true }, w)
  let (result, inner, w) ← Pipe.sendFin p.inner w
  return (result, { p with inner }, w)

/-- Uses the writability of the pipe below for the queue first. -/
def reactFlushing (events : SocketEvents) (p : Atomic P) (w : W) :
    Checked (PipeEvents × Atomic P × W) := do
  let (report, inner, w) ← Pipe.react events p.inner w
  let p := { p with inner }
  if report.writable && (p.queue.isSome || p.finWanted) then
    let (report, p, w) ← flushQueue report p w
    flushFin report p w
  else
    return (report, p, w)

instance : Pipe (Atomic P) W C where
  attach callback p w := do
    let (result, inner, w) ← Pipe.attach callback p.inner w
    return (result, { p with inner }, w)
  recv n p w := do
    let (result, inner, w) ← Pipe.recv n p.inner w
    return (result, { p with inner }, w)
  send := sendWhole
  sendFin := closeBehind
  react := reactFlushing
  rescheduleRead p w := Pipe.rescheduleRead p.inner w
  release p w := Pipe.release p.inner w
  backlog p w := Pipe.backlog p.inner w

end Atomic

end DuplexRelay
