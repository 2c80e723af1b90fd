import DuplexRelay.ByteQueue
import DuplexRelay.Socket.Basic

/-!
# Connected pairs of stream sockets

A network in memory. Each descriptor names the near end of a connected pair; the far end belongs
to whoever plays the other party. Bytes written at the far end wait without limit. The other way,
a send of `partialSend` bytes or more is taken only in part and leaves the way out full, until the
far end has read everything.
-/

namespace DuplexRelay

structure SocketPair where
  /-- bytes from the far end that the near end did not read yet -/
  inbound : ByteQueue := .empty
  /-- bytes from the near end that the far end did not read yet -/
  outbound : ByteQueue := .empty
  /-- the way out takes nothing -/
  full : Bool := false
  /-- an error that the near end was not told of yet -/
  error : Option OsError := none
  nearOpen : Bool := true
  nearShut : Bool := false
  farOpen : Bool := true
  farShut : Bool := false

namespace SocketPair

/-- Sends of this size and above are taken only in part. -/
def partialSend : Nat := 1500000

def wayOutSize : Nat := 200000

/-- Nothing more will arrive at the near end. -/
def ended (p : SocketPair) : Bool := p.farShut || !p.farOpen

def canSend (p : SocketPair) : Bool := p.nearOpen && !p.nearShut && p.farOpen && !p.full

/-- Reads at the near end. What was queued comes before an error, and an error before the end of
the stream. -/
def read (n : Nat) (p : SocketPair) : Except OsError Bytes × SocketPair :=
  if p.inbound.isEmpty then
    match p.error with
    | some e => (.error e, { p with error := none })
    | none => if p.ended then (.ok [], p) else (.error (.number OsError.eagain), p)
  else
    let (data, inbound) := p.inbound.pop n
    (.ok data, { p with inbound })

def send (data : Bytes) (p : SocketPair) : Except OsError Nat × SocketPair :=
  let size := data.length
  if !p.farOpen || p.nearShut then (.error (.number OsError.epipe), p)
  else if size = 0 then (.ok 0, p)
  else if p.full then (.error (.number OsError.eagain), p)
  else if size < partialSend then
    (.ok size, { p with outbound := p.outbound.push data })
  else
    (.ok wayOutSize, { p with outbound := p.outbound.push (data.take wayOutSize), full := true })

def readiness (p : SocketPair) : SocketEvents where
  readable := !p.inbound.isEmpty || p.ended || p.error.isSome
  writable := !p.full || p.error.isSome || !p.farOpen

def farWrite (data : Bytes) (p : SocketPair) : SocketPair :=
  if p.farOpen && !p.farShut && p.nearOpen then { p with inbound := p.inbound.push data } else p

/-- Reads all there is at the far end, and tells whether the stream ended. -/
def farRead (p : SocketPair) : (Bytes × Bool) × SocketPair :=
  if p.farOpen then
    ((p.outbound.toList, p.nearShut || !p.nearOpen), { p with outbound := .empty, full := false })
  else (([], false), p)

def farFin (p : SocketPair) : SocketPair := { p with farShut := true }

/-- Closes the far end after reading all there is. -/
def farClose (p : SocketPair) : SocketPair :=
  { p with outbound := .empty, full := false, farOpen := false }

/-- Closes the far end while there is something unread, if the near end can send anything. The
near end is then told of a reset. -/
def farReset (p : SocketPair) : SocketPair :=
  let unread := p.canSend || p.full || !p.outbound.isEmpty
  let reset := p.farOpen && unread
  { p.farClose with error := if reset then some (.number OsError.econnreset) else p.error }

def fill (p : SocketPair) : SocketPair :=
  if p.canSend then { p with outbound := p.outbound.push [0], full := true } else p

end SocketPair

/-- The connections of a network by the descriptors of their near ends. -/
structure SocketPairs where
  table : List (Fd × SocketPair) := []

namespace SocketPairs

def pair? (net : SocketPairs) (fd : Fd) : Option SocketPair := net.table.lookup fd

def put (fd : Fd) (p : SocketPair) (net : SocketPairs) : SocketPairs :=
  ⟨(fd, p) :: net.table.filter (·.1 ≠ fd)⟩

def connect (fd : Fd) (net : SocketPairs) : SocketPairs := net.put fd {}

def remove (fd : Fd) (net : SocketPairs) : SocketPairs :=
  ⟨net.table.filter (·.1 ≠ fd)⟩

def update (fd : Fd) (f : SocketPair → SocketPair) (net : SocketPairs) : SocketPairs :=
  match net.pair? fd with
  | some p => net.put fd (f p)
  | none => net

def isOpen (net : SocketPairs) (fd : Fd) : Bool :=
  match net.pair? fd with
  | some p => p.nearOpen
  | none => false

/-- Does something at an open near end. A closed one is a bad descriptor. -/
def atNearEnd {α : Type} (fd : Fd) (f : SocketPair → Except OsError α × SocketPair)
    (net : SocketPairs) : Except OsError α × SocketPairs :=
  match net.pair? fd with
  | some p =>
    if p.nearOpen then
      let (result, p) := f p
      (result, net.put fd p)
    else (.error (.number OsError.ebadf), net)
  | none => (.error (.number OsError.ebadf), net)

def farRead (fd : Fd) (net : SocketPairs) : (Bytes × Bool) × SocketPairs :=
  match net.pair? fd with
  | some p =>
    let (result, p) := p.farRead
    (result, net.put fd p)
  | none => (([], false), net)

instance : Sockets SocketPairs where
  read fd n := atNearEnd fd (·.read n)
  send fd data := atNearEnd fd (·.send data)
  shutdown fd := atNearEnd fd fun p => (.ok (), { p with nearShut := true })
  takeError fd net :=
    match net.pair? fd with
    | some p => (p.error, net.put fd { p with error := none })
    | none => (none, net)
  close fd := update fd ({ · with nearOpen := false, inbound := .empty })
  queued fd net := ((net.pair? fd).map (·.inbound.size)).getD 0

/-- It is an error to ask for a descriptor that is not open. -/
instance : Polls SocketPairs where
  poll fds net :=
    if fds.all net.isOpen then
      .ok fun fd => ((net.pair? fd).map (·.readiness)).getD .none
    else .error (.number OsError.ebadf)

end SocketPairs

end DuplexRelay
