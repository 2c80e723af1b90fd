import DuplexRelay.Bytes
import DuplexRelay.Violation

/-!
# Byte buffers

A buffer is a store of fixed capacity in three parts: bytes that were consumed, live bytes, and
spare room. New bytes go to the front of the spare room, and live bytes are consumed from their
front. The three parts make up the whole store at any time, so no position can leave it.

The parts that are not live keep whatever was in them. A new store is all zero, and the part of the
room that nothing was ever written to is known by its size alone, so that a large store costs no
more than what was put into it.
-/

namespace DuplexRelay

/-- A store of bytes with a live stretch inside. -/
structure ByteBuffer where
  /-- consumed bytes before the live ones, the last consumed first -/
  spent : Bytes
  live : Bytes
  /-- the room behind the live bytes, as far as it was ever written to -/
  stale : Bytes
  /-- the room behind that, which is still zero -/
  fresh : Nat

namespace ByteBuffer

/-- No store is larger than half of what a 64 bit size can express. -/
def maxCapacity : Nat := 0x7fffffffffffffff

def empty : ByteBuffer := ⟨[], [], [], 0⟩

/-- A buffer that holds exactly `data`, without room for more. -/
def copyOf (data : Bytes) : ByteBuffer := ⟨[], data, [], 0⟩

/-- A buffer of the given capacity that holds `data`. -/
def seeded (capacity : Nat) (data : Bytes) : Checked ByteBuffer :=
  if capacity < data.length then .error .bufferBounds
  else if maxCapacity < capacity then .error .capacityExceeded
  else .ok ⟨[], data, [], capacity - data.length⟩

/-- An empty buffer whose room is all zero. -/
def alloc (capacity : Nat) : Checked ByteBuffer := seeded capacity []

def head (b : ByteBuffer) : Nat := b.spent.length

def size (b : ByteBuffer) : Nat := b.live.length

def tailRoom (b : ByteBuffer) : Nat := b.stale.length + b.fresh

def capacity (b : ByteBuffer) : Nat := b.head + b.size + b.tailRoom

def isEmpty (b : ByteBuffer) : Bool := b.live.isEmpty

def room (n : Nat) (b : ByteBuffer) : Bytes :=
  b.stale.take n ++ List.replicate (min (n - b.stale.length) b.fresh) 0

def spare (b : ByteBuffer) : Bytes := b.room b.tailRoom

/-- The store from its first position on, as far as it was ever written to. -/
def written (b : ByteBuffer) : Bytes := b.spent.reverse ++ b.live ++ b.stale

def reset (b : ByteBuffer) : ByteBuffer := ⟨[], [], b.written, b.fresh⟩

/-- Drops `n` live bytes from the front. An empty buffer starts over at its first position. -/
def consume (n : Nat) (b : ByteBuffer) : Checked ByteBuffer :=
  if n < b.size then
    .ok { b with spent := (b.live.take n).reverse ++ b.spent, live := b.live.drop n }
  else if n = b.size then .ok b.reset
  else .error .bufferBounds

/-- Makes the first `n` bytes of the room live. -/
def commit (n : Nat) (b : ByteBuffer) : Checked ByteBuffer :=
  if n ≤ b.tailRoom then
    .ok { b with
      live := b.live ++ b.room n
      stale := b.stale.drop n
      fresh := b.fresh - (n - b.stale.length) }
  else .error .bufferBounds

/-- Writes to the front of the room, as far as it reaches, and makes nothing live. -/
def fill (data : Bytes) (b : ByteBuffer) : ByteBuffer :=
  let fitting := data.take b.tailRoom
  { b with
    stale := fitting ++ b.stale.drop fitting.length
    fresh := b.fresh - (fitting.length - b.stale.length) }

def append (data : Bytes) (b : ByteBuffer) : Checked ByteBuffer :=
  if data.length ≤ b.tailRoom then (b.fill data).commit data.length
  else .error .bufferBounds

def compact (b : ByteBuffer) : ByteBuffer :=
  match b.spent with
  | [] => b
  | _ => { b with spent := [], stale := b.written.drop b.size }

/-- A new store with the same live bytes, of the given capacity or as large as they need. -/
def regrow (capacity : Nat) (b : ByteBuffer) : Checked ByteBuffer :=
  seeded (max capacity b.size) b.live

/-- Buffers are the same if their live bytes are. -/
def sameContent (a b : ByteBuffer) : Bool := a.live == b.live

def summary (b : ByteBuffer) : String :=
  s!"ByteBuffer\x7bhead:{b.head}, len:{b.size}, capacity:{b.capacity}\x7d"

@[simp] theorem live_copyOf (data : Bytes) : (copyOf data).live = data := rfl

@[simp] theorem live_reset (b : ByteBuffer) : b.reset.live = [] := rfl

@[simp] theorem live_fill (data : Bytes) (b : ByteBuffer) : (b.fill data).live = b.live := rfl

@[simp] theorem live_compact (b : ByteBuffer) : b.compact.live = b.live := by
  rw [compact]
  split <;> rfl

/-- A store is made of any size that can hold the data and that there can be at all. -/
theorem seeded_eq_ok {capacity : Nat} {data : Bytes} (h : data.length ≤ capacity)
    (hmax : capacity ≤ maxCapacity) :
    seeded capacity data = .ok ⟨[], data, [], capacity - data.length⟩ := by
  rw [seeded, if_neg (by omega), if_neg (by omega)]

/-- Consuming drops from the front, and is allowed up to all that there is. -/
theorem consume_eq_ok {n : Nat} {b : ByteBuffer} (h : n ≤ b.size) :
    ∃ after, b.consume n = .ok after ∧ after.live = b.live.drop n := by
  rw [consume]
  split
  next => exact ⟨_, rfl, rfl⟩
  next hn =>
    have hn : n = b.size := by omega
    refine ⟨b.reset, by simp [hn], ?_⟩
    simp [hn, size]

/-- What was written to the room is found at its front. -/
theorem room_fill {data : Bytes} {b : ByteBuffer} (h : data.length ≤ b.tailRoom) :
    (b.fill data).room data.length = data := by
  have hfit : data.take b.tailRoom = data := List.take_of_length_le h
  simp [fill, room, hfit]

/-- Writing to the room does not change its size. -/
@[simp] theorem tailRoom_fill (data : Bytes) (b : ByteBuffer) :
    (b.fill data).tailRoom = b.tailRoom := by
  simp only [fill, tailRoom, List.length_append, List.length_take, List.length_drop]
  omega

/-- Appending adds behind the live bytes, and is allowed as far as there is room. -/
theorem append_eq_ok {data : Bytes} {b : ByteBuffer} (h : data.length ≤ b.tailRoom) :
    ∃ after, b.append data = .ok after ∧ after.live = b.live ++ data := by
  refine ⟨_, by rw [append, if_pos h, commit, if_pos (by simpa using h)], ?_⟩
  simp [room_fill h]

end ByteBuffer

end DuplexRelay
