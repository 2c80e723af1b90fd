import DuplexRelay.Flags

/-!
# States and events of pipes

A pipe has six independent state bits. `ready` separates a connection that is still being made
from an established one. `broken` is final and hides `readable` and `writable`. `finSent` and
`finRcvd` record that a direction was closed.
-/

namespace DuplexRelay

structure PipeState where
  ready : Bool := false
  broken : Bool := false
  readable : Bool := false
  writable : Bool := false
  finSent : Bool := false
  finRcvd : Bool := false
  deriving DecidableEq

namespace PipeState

/-- The named flags, lowest bit first. -/
def flags (s : PipeState) : List (String × Bool) :=
  [("READY", s.ready), ("BROKEN", s.broken), ("READABLE", s.readable), ("WRITABLE", s.writable),
    ("FIN_SENT", s.finSent), ("FIN_RCVD", s.finRcvd)]

/-- The state with the given bits. Further bits are dropped. -/
def ofBits (bits : Nat) : PipeState where
  ready := bits.testBit 0
  broken := bits.testBit 1
  readable := bits.testBit 2
  writable := bits.testBit 3
  finSent := bits.testBit 4
  finRcvd := bits.testBit 5

def ofNames (names : List String) : PipeState where
  ready := names.contains "READY"
  broken := names.contains "BROKEN"
  readable := names.contains "READABLE"
  writable := names.contains "WRITABLE"
  finSent := names.contains "FIN_SENT"
  finRcvd := names.contains "FIN_RCVD"

def text (s : PipeState) : String := Flags.compact s.flags

/-- A receive may yield something. A broken pipe is never readable. -/
def isReadable (s : PipeState) : Bool := s.readable && !s.broken

/-- A send may be accepted. A broken pipe is never writable. -/
def isWritable (s : PipeState) : Bool := s.writable && !s.broken

/-- The state as it is reported: a broken pipe is neither readable nor writable. -/
def normalized (s : PipeState) : PipeState :=
  { s with readable := s.isReadable, writable := s.isWritable }

def breakDown (s : PipeState) : PipeState :=
  { s with broken := true, readable := false, writable := false }

/-- Both directions were closed in good order. -/
def isClosed (s : PipeState) : Bool := s.finSent && s.finRcvd

/-- Two letters for the status line: the way out (`w`, else `x` once closed), then the way in (`r`,
else `x` once closed). A broken pipe shows two exclamation marks. -/
def letters (s : PipeState) : String :=
  if s.broken then "!!"
  else
    (if s.isWritable then "w" else if s.finSent then "x" else "-") ++
      (if s.isReadable then "r" else if s.finRcvd then "x" else "-")

end PipeState

/-- What a pipe reports to its owner after a change of its transport. -/
structure PipeEvents where
  ready : Bool := false
  broken : Bool := false
  readable : Bool := false
  writable : Bool := false
  finSent : Bool := false
  deriving DecidableEq

namespace PipeEvents

def none : PipeEvents := {}

def justBroken : PipeEvents := { broken := true }

def flags (e : PipeEvents) : List (String × Bool) :=
  [("READY", e.ready), ("BROKEN", e.broken), ("READABLE", e.readable), ("WRITABLE", e.writable),
    ("FIN_SENT", e.finSent)]

/-- The events with the given bits. Further bits are dropped. -/
def ofBits (bits : Nat) : PipeEvents where
  ready := bits.testBit 0
  broken := bits.testBit 1
  readable := bits.testBit 2
  writable := bits.testBit 3
  finSent := bits.testBit 4

def text (e : PipeEvents) : String := Flags.compact e.flags

end PipeEvents

end DuplexRelay
