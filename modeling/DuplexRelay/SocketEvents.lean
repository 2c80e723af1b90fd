import DuplexRelay.Flags

/-!
# Socket events

What a descriptor can be ready for. The same sets serve as interest masks of registrations.
-/

namespace DuplexRelay

/-- A set of readiness events of a socket. -/
structure SocketEvents where
  readable : Bool := false
  writable : Bool := false
  error : Bool := false
  deriving DecidableEq

namespace SocketEvents

def none : SocketEvents := {}

def union (a b : SocketEvents) : SocketEvents where
  readable := a.readable || b.readable
  writable := a.writable || b.writable
  error := a.error || b.error

instance : Union SocketEvents := ⟨union⟩

def isEmpty (e : SocketEvents) : Bool := !(e.readable || e.writable || e.error)

def flags (e : SocketEvents) : List (String × Bool) :=
  [("READABLE", e.readable), ("WRITABLE", e.writable), ("ERROR", e.error)]

/-- The set with the given bits. Further bits are dropped. -/
def ofBits (bits : Nat) : SocketEvents where
  readable := bits.testBit 0
  writable := bits.testBit 1
  error := bits.testBit 2

def ofNames (names : List String) : SocketEvents where
  readable := names.contains "READABLE"
  writable := names.contains "WRITABLE"
  error := names.contains "ERROR"

def text (e : SocketEvents) : String := Flags.compact e.flags

end SocketEvents

end DuplexRelay
