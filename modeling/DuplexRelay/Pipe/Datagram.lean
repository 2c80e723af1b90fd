import DuplexRelay.Pipe.Atomic
import DuplexRelay.Varint

/-!
# Datagrams over a byte stream

A datagram is sent as its size followed by its bytes. The pipe below is made atomic, so that a
frame is never torn apart. Received bytes gather in a reassembly buffer, and a receive takes one
complete datagram out of it.

A malformed or excessive size, a datagram that does not fit into the caller's buffer, and an end
of the stream inside a frame break the pipe.
-/

namespace DuplexRelay

structure Datagram (P : Type) where
  inner : Atomic P
  /-- the largest datagram in either direction -/
  maxSize : Nat
  /-- received bytes that were not returned as datagrams yet -/
  assembly : Option ByteBuffer := none
  /-- the framing was violated -/
  broken : Bool := false

namespace Datagram

variable {P W C : Type}

/-- Frames datagrams over a pipe. The maximum must be within the reach of the size header. -/
def wrap (inner : P) (maxSize : Nat) : Checked (Datagram P) :=
  if maxSize ≤ Varint.maxValue then .ok { inner := { inner }, maxSize }
  else .error (.datagramLimit maxSize)

def buffered (p : Datagram P) : Nat := (p.assembly.map (·.size)).getD 0

def hasComplete (p : Datagram P) : Bool :=
  match p.assembly with
  | none => false
  | some assembly =>
    match Varint.parse assembly.live with
    | .ok (some header) => header.length + header.size ≤ assembly.size
    | _ => false

instance [HasPipeState P] : HasPipeState (Datagram P) where
  state p :=
    let s := state p.inner
    PipeState.normalized { s with
      broken := s.broken || p.broken
      readable := s.readable || p.hasComplete }

/-- Breaks the pipe. What was received is of no use any more. -/
def fail (reason : String) (p : Datagram P) : PipeError × Datagram P :=
  (.protocol reason, { p with broken := true, assembly := none })

def exceedsMaximum (size maxSize : Nat) : String :=
  s!"datagram of {size} bytes exceeds the maximum of {maxSize} bytes"

def exceedsRoom (size room : Nat) : String :=
  s!"datagram of {size} bytes does not fit into a buffer of {room} bytes"

def badHeader (e : Varint.Error) : String := s!"bad datagram header: {e.message}"

/-- The stream ended so many bytes into a frame. -/
def cutShort (size : Nat) : String :=
  s!"connection closed with {size} bytes of an incomplete datagram"

/-- Takes the next complete datagram out of the reassembly buffer, for a caller with room for so
many bytes. -/
def extract (room : Nat) (p : Datagram P) : Checked (PipeResult (Option Bytes) × Datagram P) := do
  let failWith (reason : String) : PipeResult (Option Bytes) × Datagram P :=
    let (e, p) := p.fail reason
    (.error e, p)
  match p.assembly with
  | none => return (.ok none, p)
  | some assembly =>
    match Varint.parse assembly.live with
    | .error e => return failWith (badHeader e)
    | .ok none => return (.ok none, p)
    | .ok (some header) =>
      if p.maxSize < header.size then
        return failWith (exceedsMaximum header.size p.maxSize)
      else if room < header.size then
        return failWith (exceedsRoom header.size room)
      else if assembly.size < header.length + header.size then
        return (.ok none, p)
      else
        let payload := (assembly.live.drop header.length).take header.size
        let assembly ← assembly.consume (header.length + header.size)
        return (.ok (some payload), { p with assembly := some assembly })

/-- A reassembly buffer with room for a size header and so many bytes behind what it holds. -/
def prepare (room : Nat) : Option ByteBuffer → Checked ByteBuffer
  | none => ByteBuffer.alloc (Varint.maxLength + room)
  | some held =>
    if held.capacity < Varint.maxLength + room then held.regrow (Varint.maxLength + room)
    else .ok held.compact

/-- Lets go of a reassembly buffer that holds nothing. -/
def releaseEmpty (p : Datagram P) : Datagram P :=
  match p.assembly with
  | some assembly => if assembly.isEmpty then { p with assembly := none } else p
  | none => p

variable [Pipe P W C]

/-- Receives once from the pipe below, and looks for a complete datagram after that. -/
def gather (room : Nat) (p : Datagram P) (w : W) :
    Checked (PipeResult Recv × Datagram P × W) := do
  let assembly ← prepare room p.assembly
  let (result, inner, w) ← Pipe.recv assembly.tailRoom p.inner w
  let p := { p with inner, assembly := some assembly }
  match result with
  | .error e => return (.error e, p, w)
  | .ok (.data chunk) =>
    let (result, p) ← extract room { p with assembly := some (← assembly.append chunk) }
    match result with
    | .error e => return (.error e, p, w)
    | .ok none => return (.error .wouldBlock, p, w)
    | .ok (some payload) => return (.ok (.data payload), p, w)
  | .ok .fin =>
    if assembly.isEmpty then return (.ok .fin, p, w)
    else
      let (e, p) := p.fail (cutShort assembly.size)
      return (.error e, p, w)

def recvDatagram (room : Nat) (p : Datagram P) (w : W) :
    Checked (PipeResult Recv × Datagram P × W) := do
  if p.broken || (state p.inner).broken then return (.error .broken, p, w)
  let (result, p) ← extract room p
  let (result, p, w) ← match result with
    | .error e => pure (.error e, p, w)
    | .ok (some payload) => pure (.ok (.data payload), p, w)
    | .ok none => gather room p w
  return (result, p.releaseEmpty, w)

def frame (data : Bytes) : Except Varint.Error Bytes := do
  let (n, room) ← Varint.store data.length (List.replicate Varint.maxLength 0)
  return room.take n ++ data

def sendDatagram (data : Bytes) (p : Datagram P) (w : W) :
    Checked (PipeResult Nat × Datagram P × W) := do
  if p.broken then return (.error .broken, p, w)
  if p.maxSize < data.length then
    let (e, p) := p.fail (exceedsMaximum data.length p.maxSize)
    return (.error e, p, w)
  if !(state p.inner).isWritable then return (.error .wouldBlock, p, w)
  match frame data with
  | .error e =>
    let (e, p) := p.fail s!"can not frame datagram: {e.message}"
    return (.error e, p, w)
  | .ok framed =>
    let (result, inner, w) ← Pipe.send framed p.inner w
    return (result.map fun _ => data.length, { p with inner }, w)

instance : Pipe (Datagram P) W C where
  attach callback p w := do
    let (result, inner, w) ← Pipe.attach callback p.inner w
    return (result, { p with inner }, w)
  recv := recvDatagram
  send := sendDatagram
  sendFin p w := do
    if p.broken then return (.error .broken, p, w)
    let (result, inner, w) ← Pipe.sendFin p.inner w
    return (result, { p with inner }, w)
  react events p w := do
    let (report, inner, w) ← Pipe.react events p.inner w
    return (if p.broken then .none else report, { p with inner }, w)
  rescheduleRead p w := Pipe.rescheduleRead p.inner w
  release p w := Pipe.release p.inner w
  backlog p w := p.buffered + 2 * Pipe.backlog p.inner w

end Datagram

end DuplexRelay
