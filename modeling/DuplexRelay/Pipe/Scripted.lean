import DuplexRelay.Pipe.Basic
import DuplexRelay.Socket.Basic

/-!
# Scripted pipes

A scripted pipe answers from queues that are filled in advance, and every call of it is logged. It
stands in for a socket pipe where the behaviour of the transport is to be laid down step by step.
-/

namespace DuplexRelay

inductive ScriptedCall where
  | attach
  | recv (room : Nat)
  | send (data : Bytes)
  | fin
  | react (events : SocketEvents)
  | reschedule

inductive LogLine where
  | call (name : String) (call : ScriptedCall)
  /-- a bridge came to its end -/
  | shutdown (graceful : Bool)

/-- Networks that keep a log. -/
class CallLog (N : Type) where
  record : LogLine → N → N

inductive RecvItem where
  | block
  | fail
  | fin
  | data (bytes : Bytes)

/-- How many receives an answer can stand for. -/
def RecvItem.receives : RecvItem → Nat
  | data bytes => bytes.length + 1
  | _ => 1

inductive SendItem where
  | block
  | fail
  /-- takes all, and is not writable after that -/
  | full
  /-- takes at most so many bytes -/
  | atMost (n : Nat)

inductive FinItem where
  | block
  | fail
  | pending
  | sent

/-- A pipe that answers from queues. An empty queue stands for a transport that has nothing to
read and takes everything. -/
structure Scripted where
  name : String
  bits : PipeState := { ready := true, writable := true }
  recvs : List RecvItem := []
  sends : List SendItem := []
  fins : List FinItem := []
  failInit : Bool := false
  /-- a callback was handed over -/
  attached : Bool := false

namespace Scripted

instance : HasPipeState Scripted where
  state p := p.bits.normalized

variable {N C : Type} [CallLog N]

def log (call : ScriptedCall) (p : Scripted) (w : Host N C) : Host N C :=
  { w with net := CallLog.record (.call p.name call) w.net }

def failure {α : Type} (operation : String) : PipeResult α :=
  .error (.io (.text s!"scripted {operation} failure"))

def answerRecv (room : Nat) (p : Scripted) : PipeResult Recv × Scripted :=
  let blocked := { p with bits := { p.bits with readable := false } }
  if p.bits.broken then (.error .broken, p)
  else
    match p.recvs with
    | [] => (.error .wouldBlock, blocked)
    | .block :: rest => (.error .wouldBlock, { blocked with recvs := rest })
    | .fail :: rest =>
      (failure "recv", { p with recvs := rest, bits := { p.bits with broken := true } })
    | .fin :: _ => (.ok .fin, { p with bits := { p.bits with readable := false, finRcvd := true } })
    | .data bytes :: rest =>
      let left := bytes.drop room
      (.ok (.data (bytes.take room)),
        { p with recvs := if left.isEmpty then rest else .data left :: rest })

def answerSend (data : Bytes) (p : Scripted) : Checked (PipeResult Nat × Scripted) :=
  let blocked := { p with sends := p.sends.drop 1, bits := { p.bits with writable := false } }
  if p.bits.finSent then .error .scriptedSendAfterFin
  else if p.bits.broken then .ok (.error .broken, p)
  else
    match p.sends with
    | [] => .ok (.ok data.length, { p with bits := { p.bits with writable := true } })
    | .block :: _ => .ok (.error .wouldBlock, blocked)
    | .full :: _ => .ok (.ok data.length, blocked)
    | .fail :: rest =>
      .ok (failure "send", { p with sends := rest, bits := { p.bits with broken := true } })
    | .atMost n :: rest =>
      if n < data.length then .ok (.ok n, blocked)
      else .ok (.ok data.length, { p with sends := rest })

def answerFin (p : Scripted) : Checked (PipeResult FinStatus × Scripted) :=
  let sent := { p with
    fins := p.fins.drop 1, bits := { p.bits with writable := false, finSent := true } }
  if p.bits.finSent then .error .scriptedFinTwice
  else if p.bits.broken then .ok (.error .broken, p)
  else
    match p.fins with
    | [] => .ok (.ok .sent, sent)
    | .sent :: _ => .ok (.ok .sent, sent)
    | .pending :: rest => .ok (.ok .pending, { p with fins := rest })
    | .block :: rest => .ok (.error .wouldBlock, { p with fins := rest })
    | .fail :: rest =>
      .ok (failure "fin", { p with fins := rest, bits := { p.bits with broken := true } })

def notice (events : SocketEvents) (p : Scripted) : PipeEvents × Scripted :=
  if p.bits.broken then (.none, p)
  else if events.error then (.justBroken, { p with bits := { p.bits with broken := true } })
  else
    let readable := events.readable && !p.bits.finRcvd
    let writable := events.writable && !p.bits.finSent
    ({ readable, writable },
      { p with bits := { p.bits with
          readable := p.bits.readable || readable
          writable := p.bits.writable || writable } })

instance : Pipe Scripted (Host N C) C where
  attach _ p w :=
    let w := p.log .attach w
    if p.failInit then .ok (.error (.scriptedInit p.name), p, w)
    else .ok (.ok (), { p with attached := true }, w)
  recv room p w :=
    let (result, p') := p.answerRecv room
    .ok (result, p', p.log (.recv room) w)
  send data p w := do
    let (result, p') ← p.answerSend data
    return (result, p', p.log (.send data) w)
  sendFin p w := do
    let (result, p') ← p.answerFin
    return (result, p', p.log .fin w)
  react events p w :=
    let (report, p') := p.notice events
    .ok (report, p', p.log (.react events) w)
  rescheduleRead p w := p.log .reschedule w
  release _ w := w
  backlog p _ := p.recvs.foldr (fun item n => item.receives + n) 1

end Scripted

end DuplexRelay
