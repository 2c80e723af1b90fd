import DuplexRelay.Pipe.Basic
import DuplexRelay.Socket.Basic

/-!
# Pipes in memory

A memory pipe has no transport. What comes in is laid down in chunks and every send goes by a step
that is laid down for it, so that a layer above can be tried against any partial acceptance and any
refusal. Its way out is closed at once, or its closing breaks the pipe.
-/

namespace DuplexRelay

inductive SendStep where
  /-- takes at most so many bytes, and is not writable after less than all -/
  | accept (limit : Nat)
  | wouldBlock
  | fail

structure Memory where
  bits : PipeState := { ready := true, writable := true }
  /-- all that was taken -/
  sent : Bytes := []
  /-- without a step, a send takes everything -/
  sendSteps : List SendStep := []
  inbound : List Bytes := []
  /-- the stream ends behind the last chunk -/
  inboundFin : Bool := false
  finCalls : Nat := 0
  failFin : Bool := false

namespace Memory

instance : HasPipeState Memory where
  state p := p.bits.normalized

def failure {α : Type} (text : String) : PipeResult α := .error (.io (.text text))

def receive (room : Nat) (p : Memory) : PipeResult Recv × Memory :=
  if p.bits.broken then (.error .broken, p)
  else
    match p.inbound with
    | chunk :: rest =>
      let left := chunk.drop room
      (.ok (.data (chunk.take room)),
        { p with inbound := if left.isEmpty then rest else left :: rest })
    | [] =>
      if p.inboundFin then
        (.ok .fin, { p with bits := { p.bits with readable := false, finRcvd := true } })
      else (.error .wouldBlock, { p with bits := { p.bits with readable := false } })

def take (n : Nat) (data : Bytes) (writable : Bool) (p : Memory) : PipeResult Nat × Memory :=
  (.ok n, { p with sent := p.sent ++ data.take n, bits := { p.bits with writable } })

def transmit (data : Bytes) (p : Memory) : Checked (PipeResult Nat × Memory) :=
  if p.bits.finSent then .error .memoryAfterFin
  else if p.bits.broken then .ok (.error .broken, p)
  else
    match p.sendSteps with
    | [] => .ok (p.take data.length data true)
    | step :: rest =>
      let p := { p with sendSteps := rest }
      match step with
      | .accept limit =>
        if limit < data.length then .ok (p.take limit data false)
        else .ok (p.take data.length data p.bits.writable)
      | .wouldBlock =>
        .ok (.error .wouldBlock, { p with bits := { p.bits with writable := false } })
      | .fail => .ok (failure "connection reset", { p with bits := { p.bits with broken := true } })

def shutDown (p : Memory) : Checked (PipeResult FinStatus × Memory) :=
  if p.bits.finSent then .error .memoryAfterFin
  else
    let p := { p with finCalls := p.finCalls + 1 }
    if p.failFin then
      .ok (failure "not connected", { p with bits := { p.bits with broken := true } })
    else .ok (.ok .sent, { p with bits := { p.bits with writable := false, finSent := true } })

/-- Takes the transport to be ready for whatever it is told, even where the pipe is broken. -/
def notice (events : SocketEvents) (p : Memory) : PipeEvents × Memory :=
  let readable := events.readable && !p.bits.finRcvd
  let writable := events.writable && !p.bits.finSent
  ({ readable, writable },
    { p with bits := { p.bits with
        readable := p.bits.readable || readable
        writable := p.bits.writable || writable } })

/-- How many receives what is still to come can stand for. -/
def receives (p : Memory) : Nat :=
  p.inbound.foldr (fun chunk n => chunk.length + 1 + n) 1

variable {N C : Type}

instance : Pipe Memory (Host N C) C where
  attach _ p w := .ok (.ok (), p, w)
  recv room p w :=
    let (result, p') := p.receive room
    .ok (result, p', w)
  send data p w := (p.transmit data).map fun (result, p') => (result, p', w)
  sendFin p w := p.shutDown.map fun (result, p') => (result, p', w)
  react events p w :=
    let (report, p') := p.notice events
    .ok (report, p', w)
  rescheduleRead _ w := w
  release _ w := w
  backlog p _ := p.receives

end Memory

end DuplexRelay
