import DuplexRelay.Bytes

/-!
# Sizes of variable length

A size is written in groups of seven bits, the least significant group first. Every byte but the
last has its top bit set. At most four groups are used, so sizes are below `0x10000000`.

`Varint.encode` is the written form of a size. `Varint.store` writes it into a given room, and
`Varint.parse` reads one size off the front of a byte string.

The coding of the groups comes from a library that is not part of the system. What is assumed of it
is what `Varint.encode` and `Varint.groupValue` say: how many groups a size takes, which bytes they
are, and which size a sequence of groups stands for.
-/

namespace DuplexRelay.Varint

/-- No size takes more bytes than this. -/
def maxLength : Nat := 4

def maxValue : Nat := 0xfffffff

inductive Error where
  | noSpace
  | tooLarge
  | malformed
  deriving DecidableEq

def Error.message : Error → String
  | .noSpace => "not enough space for varint"
  | .tooLarge => s!"value exceeds varint range (max {maxValue})"
  | .malformed => "malformed varint"

/-- The number of bytes that a size takes. Sizes that can not be written count as four. -/
def encodedLength (size : Nat) : Nat :=
  if size < 0x80 then 1
  else if size < 0x4000 then 2
  else if size < 0x200000 then 3
  else 4

/-- The written form of a size, without regard to the limit on its length. -/
def encode (size : Nat) : Bytes :=
  if size < 0x80 then [UInt8.ofNat size]
  else UInt8.ofNat (size % 0x80 + 0x80) :: encode (size / 0x80)

/-- The size that a group sequence stands for, whatever the top bits of its bytes. -/
def groupValue : Bytes → Nat
  | [] => 0
  | byte :: rest => byte.toNat % 0x80 + 0x80 * groupValue rest

def continues (byte : UInt8) : Bool := 0x80 ≤ byte

/-- Writes a size to the front of `room`. Gives the number of bytes written and the room after
that. The limit on the size is checked before the room. -/
def store (size : Nat) (room : Bytes) : Except Error (Nat × Bytes) :=
  if maxValue < size then .error .tooLarge
  else if room.length < encodedLength size then .error .noSpace
  else .ok (encodedLength size, encode size ++ room.drop (encodedLength size))

/-- A size at the front of a byte string: the bytes it takes, and its value. -/
structure Header where
  length : Nat
  size : Nat
  deriving DecidableEq

/-- Reads a size off the front of `bytes`. There is none yet if all of `bytes`, being fewer than
four, announce another group. A last group of zero is refused unless it is the only one, so that
each size has one written form. -/
def parse (bytes : Bytes) : Except Error (Option Header) :=
  let window := bytes.take maxLength
  let leading := window.takeWhile continues
  match window.dropWhile continues with
  | last :: _ =>
    if last = 0 ∧ leading ≠ [] then .error .malformed
    else .ok (some ⟨leading.length + 1, groupValue (leading ++ [last])⟩)
  | [] => if leading.length = maxLength then .error .malformed else .ok none

end DuplexRelay.Varint
