import DuplexRelay.Pipe.Basic
import DuplexRelay.Socket.Basic

/-!
# Pipes over sockets

A socket pipe waits for exactly what it does not know: for readability while it is not known to be
readable and the stream did not end, for writability while it is not known to be writable and the
way out is open. A broken pipe waits for nothing, and a connection that is still being made for
writability only.
-/

namespace DuplexRelay

/-- A pipe over a non-blocking stream socket. -/
structure Tcp where
  fd : Fd
  /-- the callback is registered -/
  attached : Bool := false
  /-- what the registration waits for -/
  interest : SocketEvents := .none
  bits : PipeState := {}

namespace Tcp

/-- A pipe over a connection that is still being made. -/
def connecting (fd : Fd) : Tcp := { fd }

def connected (fd : Fd) : Tcp := { fd, bits := { ready := true } }

instance : HasPipeState Tcp where
  state p := p.bits.normalized

/-- What a pipe with the given state bits waits for. -/
def wanted (s : PipeState) : SocketEvents :=
  if s.broken then .none
  else if !s.ready then { writable := true }
  else
    { readable := !s.readable && !s.finRcvd
      writable := !s.writable && !s.finSent }

variable {N C : Type} [Sockets N]

/-- Brings the registration up to date with the state. -/
def adjustInterest (p : Tcp) (w : Host N C) : Checked (Tcp × Host N C) := do
  let interest := wanted p.bits
  if interest = p.interest then return (p, w)
  let p := { p with interest }
  if p.attached then return (p, { w with reactor := ← w.reactor.modify p.fd interest })
  else return (p, w)

/-- Sets the state bits and brings the registration up to date. -/
def settle {α : Type} (result : α) (bits : PipeState) (p : Tcp) (w : Host N C) :
    Checked (α × Tcp × Host N C) := do
  let (p, w) ← adjustInterest { p with bits } w
  return (result, p, w)

def register (callback : C) (p : Tcp) (w : Host N C) :
    Checked (Except Failure Unit × Tcp × Host N C) := do
  if p.attached then throw .tcpInitializedTwice
  let p := { p with interest := wanted p.bits }
  match ← w.reactor.add p.fd p.interest callback with
  | .error e => return (.error e, p, w)
  | .ok reactor => return (.ok (), { p with attached := true }, { w with reactor })

def receive (n : Nat) (p : Tcp) (w : Host N C) : Checked (PipeResult Recv × Tcp × Host N C) := do
  if p.bits.broken then return (.error .broken, p, w)
  if n = 0 then return (.ok (.data []), p, w)
  let (result, net) := Sockets.read p.fd n w.net
  let w := { w with net }
  match result with
  | .ok [] => settle (.ok .fin) { p.bits with readable := false, finRcvd := true } p w
  | .ok data => settle (.ok (.data data)) { p.bits with readable := true } p w
  | .error e =>
    if e.fatalForRecv then settle (.error (.io e)) p.bits.breakDown p w
    else settle (.error .wouldBlock) { p.bits with readable := false } p w

def transmit (data : Bytes) (p : Tcp) (w : Host N C) :
    Checked (PipeResult Nat × Tcp × Host N C) := do
  if p.bits.finSent then throw (.tcpSendAfterFin p.fd)
  if p.bits.broken then return (.error .broken, p, w)
  let (result, net) := Sockets.send p.fd data w.net
  let w := { w with net }
  match result with
  | .ok n => settle (.ok n) { p.bits with writable := n = data.length } p w
  | .error e =>
    if e.fatalForSend then settle (.error (.io e)) p.bits.breakDown p w
    else settle (.error .wouldBlock) { p.bits with writable := false } p w

def shutDown (p : Tcp) (w : Host N C) : Checked (PipeResult FinStatus × Tcp × Host N C) := do
  if p.bits.finSent then throw (.tcpFinTwice p.fd)
  if p.bits.broken then return (.error .broken, p, w)
  let (result, net) := Sockets.shutdown p.fd w.net
  let w := { w with net }
  match result with
  | .ok () => settle (.ok .sent) { p.bits with writable := false, finSent := true } p w
  | .error e => settle (.error (.io e)) p.bits.breakDown p w

def noteReadiness (events : SocketEvents) (report : PipeEvents) (p : Tcp) (w : Host N C) :
    Checked (PipeEvents × Tcp × Host N C) :=
  let readable := events.readable && !p.bits.finRcvd
  let writable := events.writable && !p.bits.finSent
  settle { report with readable, writable }
    { p.bits with
      readable := p.bits.readable || readable
      writable := p.bits.writable || writable } p w

/-- Takes notice of readiness of the socket. The first writability or error decides whether a
connection that is being made succeeded. -/
def notice (events : SocketEvents) (p : Tcp) (w : Host N C) :
    Checked (PipeEvents × Tcp × Host N C) := do
  if p.bits.broken then return (.none, p, w)
  if !p.bits.ready then
    if !(events.writable || events.error) then return (.none, p, w)
    let (error, net) := Sockets.takeError p.fd w.net
    let w := { w with net }
    if events.error || error.isSome then settle .justBroken p.bits.breakDown p w
    else noteReadiness events { ready := true } { p with bits := { p.bits with ready := true } } w
  else if events.error then
    let (error, net) := Sockets.takeError p.fd w.net
    let w := { w with net }
    if error.isSome then settle .justBroken p.bits.breakDown p w
    else noteReadiness events .none p w
  else
    noteReadiness events .none p w

def shut (p : Tcp) (w : Host N C) : Host N C :=
  { net := Sockets.close p.fd w.net
    reactor := if p.attached then w.reactor.del p.fd else w.reactor }

instance : Pipe Tcp (Host N C) C where
  attach := register
  recv := receive
  send := transmit
  sendFin := shutDown
  react := notice
  rescheduleRead p w :=
    if p.attached then
      { w with reactor := (w.reactor.reschedule p.fd { readable := true }).2 }
    else w
  release := shut
  backlog p w := Sockets.queued p.fd w.net + 2

end Tcp

end DuplexRelay
