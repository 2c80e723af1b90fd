import DuplexRelay.ByteBuffer

/-!
# Sessions with a byte buffer

A session is a list of steps on one buffer. Each step has a result of its own.
-/

namespace DuplexRelay.Session.Buffer

/-- A way to make a buffer. -/
inductive Source where
  | alloc (capacity : Nat)
  | seeded (capacity : Nat) (data : Bytes)
  | copyOf (data : Bytes)

def Source.make : Source → Checked ByteBuffer
  | alloc capacity => ByteBuffer.alloc capacity
  | seeded capacity data => ByteBuffer.seeded capacity data
  | copyOf data => .ok (.copyOf data)

inductive Step where
  | replace (source : Source)
  | consume (n : Nat)
  | commit (n : Nat)
  | reset
  | compact
  | regrow (capacity : Nat)
  | fill (data : Bytes)
  | spare
  | equals (source : Source)
  /-- reads a big-endian number of so many bytes -/
  | getNumber (bytes : Nat)
  | append (data : Bytes)

inductive Answer where
  | done
  | number (n : Nat)
  | bytes (data : Bytes)
  | truth (b : Bool)

/-- The number that bytes stand for, the most significant first. -/
def bigEndian (data : Bytes) : Nat := data.foldl (fun n byte => n * 256 + byte.toNat) 0

def run (b : ByteBuffer) : Step → Checked (Answer × ByteBuffer)
  | .replace source => return (.done, ← source.make)
  | .consume n => return (.done, ← b.consume n)
  | .commit n => return (.done, ← b.commit n)
  | .reset => return (.done, b.reset)
  | .compact => return (.done, b.compact)
  | .regrow capacity => return (.done, ← b.regrow capacity)
  | .fill data => return (.number (min data.length b.tailRoom), b.fill data)
  | .spare => return (.bytes b.spare, b)
  | .equals source => return (.truth (b.sameContent (← source.make)), b)
  | .getNumber n => return (.number (bigEndian (b.live.take n)), ← b.consume n)
  | .append data => return (.done, ← b.append data)

end DuplexRelay.Session.Buffer
