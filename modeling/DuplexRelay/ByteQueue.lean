import DuplexRelay.Bytes

/-!
# Queues of bytes

A queue takes chunks of bytes at its back and gives bytes off its front. Its view is the list of
all its bytes in order, and its size is the length of that list.
-/

namespace DuplexRelay

/-- A queue of bytes. -/
structure ByteQueue where
  /-- the bytes at the front -/
  front : Bytes := []
  /-- the chunks behind them, the last added first -/
  back : List Bytes := []
  /-- the number of all bytes -/
  size : Nat := 0
  size_eq : size = (front ++ back.reverse.flatten).length := by simp

namespace ByteQueue

def empty : ByteQueue := {}

def toList (q : ByteQueue) : Bytes := q.front ++ q.back.reverse.flatten

def isEmpty (q : ByteQueue) : Bool := q.size == 0

theorem length_toList (q : ByteQueue) : q.toList.length = q.size := q.size_eq.symm

theorem isEmpty_iff (q : ByteQueue) : q.isEmpty ↔ q.toList = [] := by
  rw [← List.length_eq_zero_iff, length_toList, isEmpty, beq_iff_eq]

/-- A queue of given bytes, which are not looked at one by one. -/
def ofList (bytes : Bytes) (size : Nat) (h : size = bytes.length) : ByteQueue where
  front := bytes
  size := size
  size_eq := by simpa using h

/-- Adds bytes at the back. -/
def push (data : Bytes) (q : ByteQueue) : ByteQueue where
  front := q.front
  back := data :: q.back
  size := q.size + data.length
  size_eq := by simp [q.size_eq, Nat.add_assoc]

/-- Takes up to `n` bytes off the front. -/
def pop (n : Nat) (q : ByteQueue) : Bytes × ByteQueue :=
  let taken := q.front.take n
  if h : taken.length = n then
    (taken, { q with
      front := q.front.drop n
      size := q.size - n
      size_eq := by
        have := q.size_eq
        simp only [taken, List.length_take, List.length_append, List.length_drop] at *
        omega })
  else
    (q.toList.take n, ofList (q.toList.drop n) (q.size - n) (by simp [length_toList]))

@[simp] theorem toList_empty : empty.toList = [] := rfl

@[simp] theorem toList_ofList (bytes : Bytes) (size : Nat) (h : size = bytes.length) :
    (ofList bytes size h).toList = bytes := by
  simp [ofList, toList]

@[simp] theorem toList_push (data : Bytes) (q : ByteQueue) :
    (q.push data).toList = q.toList ++ data := by
  simp [push, toList]

/-- What is taken off is the front of the queue. -/
theorem pop_fst (n : Nat) (q : ByteQueue) : (q.pop n).1 = q.toList.take n := by
  rw [pop]
  split
  next h =>
    rw [List.length_take] at h
    simp [toList, List.take_append_of_le_length (show n ≤ q.front.length by omega)]
  next => rfl

/-- The rest stays. -/
theorem toList_pop (n : Nat) (q : ByteQueue) : (q.pop n).2.toList = q.toList.drop n := by
  rw [pop]
  split
  next h =>
    rw [List.length_take] at h
    simp [toList, List.drop_append_of_le_length (show n ≤ q.front.length by omega)]
  next => simp

end ByteQueue

end DuplexRelay
