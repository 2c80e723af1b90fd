import DuplexRelay.Proofs.ByteBuffer
import DuplexRelay.Proofs.Checked

/-! A buffer as one flat store and the positions of the live bytes in it. Here an operation moves
the positions, or copies the bytes of one range of the store to another, and it is a violation if a
range leaves the store or a difference of positions is negative. Told that way, a buffer in three
parts behaves the same. -/

namespace DuplexRelay

/-- A store, and the stretch of it that is live. -/
structure Window where
  store : Bytes
  head : Nat
  size : Nat

namespace Window

def capacity (w : Window) : Nat := w.store.length

/-- The bytes of a range of the store. -/
def slice (start stop : Nat) (w : Window) : Checked Bytes :=
  if start ≤ stop ∧ stop ≤ w.capacity then .ok ((w.store.drop start).take (stop - start))
  else .error .bufferBounds

/-- Copies bytes into the store, from a position on. -/
def overwrite (start : Nat) (data : Bytes) (w : Window) : Checked Window :=
  if start + data.length ≤ w.capacity then
    .ok { w with store := w.store.take start ++ data ++ w.store.drop (start + data.length) }
  else .error .bufferBounds

def live (w : Window) : Checked Bytes := w.slice w.head (w.head + w.size)

/-- All bytes of the store behind the live ones. -/
def spare (w : Window) : Checked Bytes := w.slice (w.head + w.size) w.capacity

/-- What the store has left behind the live bytes, which is a difference. -/
def tailRoom (w : Window) : Checked Nat :=
  if w.head + w.size ≤ w.capacity then .ok (w.capacity - w.head - w.size)
  else .error .bufferBounds

def alloc (capacity : Nat) : Checked Window :=
  if ByteBuffer.maxCapacity < capacity then .error .capacityExceeded
  else .ok ⟨List.replicate capacity 0, 0, 0⟩

def seeded (capacity : Nat) (data : Bytes) : Checked Window :=
  if capacity < data.length then .error .bufferBounds
  else do
    let w ← alloc capacity
    let w ← w.overwrite 0 data
    .ok { w with size := data.length }

def reset (w : Window) : Window := { w with head := 0, size := 0 }

def consume (n : Nat) (w : Window) : Checked Window :=
  if n ≤ w.size then
    .ok { w with head := if w.size - n = 0 then 0 else w.head + n, size := w.size - n }
  else .error .bufferBounds

def commit (n : Nat) (w : Window) : Checked Window := do
  let room ← w.tailRoom
  if n ≤ room then .ok { w with size := w.size + n } else .error .bufferBounds

def fill (data : Bytes) (w : Window) : Checked Window := do
  let room ← w.spare
  w.overwrite (w.head + w.size) (data.take room.length)

def append (data : Bytes) (w : Window) : Checked Window := do
  let room ← w.tailRoom
  if data.length ≤ room then
    let w ← w.fill data
    w.commit data.length
  else .error .bufferBounds

/-- Copies the live bytes to the front. The two ranges may overlap. -/
def compact (w : Window) : Checked Window :=
  if w.head = 0 then .ok w
  else if w.size = 0 then .ok { w with head := 0 }
  else do
    let data ← w.live
    let w ← w.overwrite 0 data
    .ok { w with head := 0 }

def regrow (capacity : Nat) (w : Window) : Checked Window := do
  let data ← w.live
  seeded (max capacity w.size) data

def sameContent (a b : Window) : Checked Bool := do
  let x ← a.live
  let y ← b.live
  .ok (x == y)

variable {front data back : Bytes} {n : Nat}

/-- The window around `data` in a store that has `front` before it and `back` behind it. -/
def around (front data back : Bytes) : Window :=
  ⟨front ++ (data ++ back), front.length, data.length⟩

theorem live_around : (around front data back).live = .ok data := by
  unfold live slice around capacity
  rw [if_pos (by simp)]
  simp

theorem spare_around : (around front data back).spare = .ok back := by
  unfold spare slice around capacity
  rw [if_pos (by simp)]
  simp [← List.append_assoc]

theorem tailRoom_around : (around front data back).tailRoom = .ok back.length := by
  unfold tailRoom around capacity
  simp only [List.length_append]
  rw [if_pos (by omega)]
  congr 1
  omega

theorem overwrite_append {new : Bytes} {w : Window} {start : Nat} (hw : w.store = front ++ back)
    (hs : start = front.length) (h : new.length ≤ back.length) :
    w.overwrite start new = .ok { w with store := front ++ (new ++ back.drop new.length) } := by
  unfold overwrite capacity
  rw [if_pos (by simp only [hw, hs, List.length_append]; omega), hw, hs]
  simp

theorem consume_around (h : n < data.length) :
    (around front data back).consume n =
      .ok (around (front ++ data.take n) (data.drop n) back) := by
  unfold consume around
  rw [if_pos (by simp only; omega), if_neg (by simp only; omega)]
  have htaken : (data.take n).length = n := List.length_take_of_le (Nat.le_of_lt h)
  have hparts : data.take n ++ (data.drop n ++ back) = data ++ back := by
    rw [← List.append_assoc, List.take_append_drop]
  simp [htaken, hparts]

theorem commit_around (h : n ≤ back.length) :
    (around front data back).commit n =
      .ok (around front (data ++ back.take n) (back.drop n)) := by
  unfold commit
  rw [tailRoom_around, Checked.ok_bind, if_pos h]
  simp [around, h]

theorem fill_around (new : Bytes) :
    (around front data back).fill new =
      .ok (around front data
        (new.take back.length ++ back.drop (new.take back.length).length)) := by
  have hstore : (around front data back).store = (front ++ data) ++ back := by
    simp [around]
  unfold fill
  rw [spare_around, Checked.ok_bind, overwrite_append hstore (by simp [around])
    (List.length_take_le _ _)]
  simp [around]

theorem compact_around :
    (around front data back).compact =
      .ok (around [] data ((front ++ (data ++ back)).drop data.length)) := by
  unfold compact
  cases front with
  | nil => simp [around]
  | cons byte rest =>
    rw [if_neg (by simp [around])]
    cases data with
    | nil => simp [around]
    | cons first others =>
      rw [if_neg (by simp [around]), live_around, Checked.ok_bind]
      unfold overwrite capacity
      rw [if_pos (by simp only [around, List.length_append]; omega)]
      simp [around]

theorem consume_around_all : (around front data back).consume data.length =
    .ok (around [] [] (front ++ (data ++ back))) := by
  unfold consume around
  simp

theorem consume_around_beyond (h : data.length < n) :
    (around front data back).consume n = .error .bufferBounds := by
  unfold consume
  rw [if_neg (by simp only [around]; omega)]

theorem commit_around_beyond (h : back.length < n) :
    (around front data back).commit n = .error .bufferBounds := by
  unfold commit
  rw [tailRoom_around, Checked.ok_bind, if_neg (by omega)]

end Window

namespace ByteBuffer

variable {b : ByteBuffer}

theorem spare_eq (b : ByteBuffer) : b.spare = b.stale ++ List.replicate b.fresh 0 := by
  unfold spare room tailRoom
  rw [List.take_of_length_le (by omega), Nat.add_sub_cancel_left, Nat.min_self]

theorem room_eq (n : Nat) (b : ByteBuffer) : b.room n = b.spare.take n := by
  rw [spare_eq, room, List.take_append, List.take_replicate]

theorem length_spare (b : ByteBuffer) : b.spare.length = b.tailRoom := by
  rw [spare_eq, List.length_append, List.length_replicate, tailRoom]

/-- The buffer as one flat store. -/
def window (b : ByteBuffer) : Window := .around b.spent.reverse b.live b.spare

theorem head_window (b : ByteBuffer) : b.window.head = b.head := List.length_reverse

theorem capacity_parts (b : ByteBuffer) :
    b.capacity = b.head + b.live.length + b.spare.length := by
  rw [length_spare, capacity, size]

theorem capacity_window (b : ByteBuffer) : b.window.capacity = b.capacity := by
  rw [capacity_parts, Window.capacity, window, Window.around, List.length_append,
    List.length_append, List.length_reverse, head, Nat.add_assoc]

theorem window_eq {front : Bytes} (hf : b.spent.reverse = front) {data back : Bytes}
    (hd : b.live = data) (hb : b.spare = back) : b.window = .around front data back := by
  rw [window, hf, hd, hb]

theorem spare_reset (b : ByteBuffer) :
    b.reset.spare = b.spent.reverse ++ (b.live ++ b.spare) := by
  simp [spare_eq, reset, written]

theorem window_reset (b : ByteBuffer) : b.reset.window = b.window.reset :=
  window_eq rfl rfl (spare_reset b)

theorem window_consume (n : Nat) (b : ByteBuffer) :
    (b.consume n).map window = b.window.consume n := by
  unfold consume size
  rcases Nat.lt_trichotomy n b.live.length with hn | rfl | hn
  · rw [if_pos hn]
    refine Eq.trans ?_ (Window.consume_around hn).symm
    exact congrArg _ (window_eq (by simp) rfl rfl)
  · rw [if_neg (by omega), if_pos rfl]
    refine Eq.trans ?_ Window.consume_around_all.symm
    exact congrArg _ (window_reset b)
  · rw [if_neg (by omega), if_neg (by omega)]
    exact (Window.consume_around_beyond hn).symm

theorem window_commit (n : Nat) (b : ByteBuffer) :
    (b.commit n).map window = b.window.commit n := by
  unfold commit
  split
  · rename_i hn
    refine Eq.trans ?_ (Window.commit_around (by rwa [length_spare])).symm
    refine congrArg _ (window_eq rfl (by rw [room_eq]) ?_)
    simp only [spare_eq, List.drop_append, List.drop_replicate]
  · rename_i hn
    exact (Window.commit_around_beyond (by rw [length_spare]; omega)).symm

theorem window_fill (data : Bytes) (b : ByteBuffer) :
    .ok (b.fill data).window = b.window.fill data := by
  refine Eq.trans ?_ (Window.fill_around data).symm
  refine congrArg _ (window_eq rfl rfl ?_)
  rw [length_spare]
  simp only [spare_eq, fill, List.drop_append, List.drop_replicate, List.append_assoc]

theorem window_append (data : Bytes) (b : ByteBuffer) :
    (b.append data).map window = b.window.append data := by
  have htail : b.window.tailRoom = .ok b.tailRoom := by
    rw [window, Window.tailRoom_around, length_spare]
  unfold append Window.append
  rw [htail, Checked.ok_bind, ← window_fill, Checked.ok_bind, ← window_commit]
  split <;> rfl

theorem spare_compact (b : ByteBuffer) :
    b.compact.spare = (b.spent.reverse ++ (b.live ++ b.spare)).drop b.live.length := by
  unfold compact
  split
  · rename_i hs
    simp [hs]
  · have hwritten : b.live.length ≤ b.written.length := by
      simp only [written, List.length_append]
      omega
    have hstore : b.spent.reverse ++ (b.live ++ b.spare) =
        b.written ++ List.replicate b.fresh 0 := by
      simp [spare_eq, written]
    rw [hstore, List.drop_append_of_le_length hwritten, spare_eq]
    rfl

theorem window_compact (b : ByteBuffer) : .ok b.compact.window = b.window.compact := by
  refine Eq.trans ?_ Window.compact_around.symm
  have hspent : b.compact.spent = [] := List.length_eq_zero_iff.mp (head_compact b)
  exact congrArg _ (window_eq (by rw [hspent]; rfl) (live_compact b) (spare_compact b))

theorem window_alloc (capacity : Nat) :
    (alloc capacity).map window = Window.alloc capacity := by
  unfold alloc seeded Window.alloc
  rw [if_neg (by simp)]
  split
  · rfl
  · exact congrArg _ (window_eq rfl rfl (spare_eq _))

theorem window_seeded (capacity : Nat) (data : Bytes) :
    (seeded capacity data).map window = Window.seeded capacity data := by
  unfold seeded Window.seeded Window.alloc
  split
  · rfl
  rename_i hfit
  split
  · rfl
  have hcopied : (⟨List.replicate capacity 0, 0, 0⟩ : Window).overwrite 0 data =
      .ok ⟨data ++ List.replicate (capacity - data.length) 0, 0, 0⟩ := by
    unfold Window.overwrite Window.capacity
    rw [if_pos (by simp only [List.length_replicate]; omega)]
    simp
  rw [Checked.ok_bind, hcopied]
  exact congrArg _ (window_eq rfl rfl (spare_eq _))

theorem window_regrow (capacity : Nat) (b : ByteBuffer) :
    (b.regrow capacity).map window = b.window.regrow capacity := by
  unfold regrow Window.regrow
  rw [window_seeded, window, Window.live_around]
  rfl

theorem window_sameContent (a b : ByteBuffer) :
    .ok (a.sameContent b) = a.window.sameContent b.window := by
  unfold Window.sameContent window
  rw [Window.live_around, Window.live_around]
  rfl

end ByteBuffer

end DuplexRelay
