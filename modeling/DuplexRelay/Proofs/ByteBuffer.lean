import DuplexRelay.ByteBuffer

/-! The store of a buffer keeps its size, whatever is done within it. -/

namespace DuplexRelay.ByteBuffer

variable {b after : ByteBuffer} {data : Bytes} {n : Nat}

theorem capacity_eq (b : ByteBuffer) :
    b.capacity = b.spent.length + b.live.length + (b.stale.length + b.fresh) := rfl

theorem capacity_reset (b : ByteBuffer) : b.reset.capacity = b.capacity := by
  simp only [capacity_eq, reset, written, List.length_nil, List.length_append, List.length_reverse]
  omega

theorem capacity_consume (h : b.consume n = .ok after) : after.capacity = b.capacity := by
  unfold consume at h
  split at h
  · rename_i hn
    unfold size at hn
    cases h
    simp only [capacity_eq, List.length_append, List.length_reverse, List.length_take,
      List.length_drop]
    omega
  split at h
  · cases h
    exact capacity_reset b
  · cases h

theorem capacity_fill (data : Bytes) (b : ByteBuffer) : (b.fill data).capacity = b.capacity := by
  have htail := tailRoom_fill data b
  unfold capacity
  rw [htail]
  rfl

theorem length_room (h : n ≤ b.tailRoom) : (b.room n).length = n := by
  unfold tailRoom at h
  simp only [room, List.length_append, List.length_take, List.length_replicate]
  omega

theorem capacity_commit (h : b.commit n = .ok after) : after.capacity = b.capacity := by
  unfold commit at h
  split at h
  · rename_i hn
    have hroom := length_room hn
    unfold tailRoom at hn
    cases h
    simp only [capacity_eq, List.length_append, List.length_drop, hroom]
    omega
  · cases h

theorem capacity_append (h : b.append data = .ok after) : after.capacity = b.capacity := by
  unfold append at h
  split at h
  · exact (capacity_commit h).trans (capacity_fill data b)
  · cases h

theorem tailRoom_compact (b : ByteBuffer) : b.compact.tailRoom = b.capacity - b.size := by
  unfold compact
  split
  · rename_i hs
    simp only [capacity, head, hs, List.length_nil]
    omega
  · simp only [tailRoom, capacity, head, size, written, List.length_drop, List.length_append,
      List.length_reverse]
    omega

theorem head_compact (b : ByteBuffer) : b.compact.head = 0 := by
  unfold compact
  split
  · rename_i hs
    simp [head, hs]
  · rfl

theorem capacity_compact (b : ByteBuffer) : b.compact.capacity = b.capacity := by
  have htail := tailRoom_compact b
  have hlive := live_compact b
  have hhead := head_compact b
  unfold capacity at htail ⊢
  unfold size at htail ⊢
  rw [hhead, hlive, htail]
  omega

end DuplexRelay.ByteBuffer
