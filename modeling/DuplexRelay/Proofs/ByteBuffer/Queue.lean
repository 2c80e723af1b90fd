import DuplexRelay.Proofs.ByteBuffer.Window

/-! A buffer is a queue of bytes in a store of fixed size. What is done with it within its bounds is
done with the queue, wherever the live bytes are in the store and whatever else is in there. -/

namespace DuplexRelay

namespace ByteBuffer

/-- What is done with a buffer. The first three and the last put a new one in its place. -/
inductive Step where
  | alloc (capacity : Nat)
  | seeded (capacity : Nat) (data : Bytes)
  | copyOf (data : Bytes)
  | consume (n : Nat)
  /-- writes to the room and makes the first `n` of these bytes live -/
  | fill (data : Bytes) (n : Nat)
  | put (data : Bytes)
  | reset
  | compact
  | regrow (capacity : Nat)

def perform (b : ByteBuffer) : Step → Checked ByteBuffer
  | .alloc capacity => alloc capacity
  | .seeded capacity data => seeded capacity data
  | .copyOf data => .ok (copyOf data)
  | .consume n => b.consume n
  | .fill data n => (b.fill data).commit n
  | .put data => b.append data
  | .reset => .ok b.reset
  | .compact => .ok b.compact
  | .regrow capacity => b.regrow capacity

/-- The bounds of a step. A store must also be one that there can be. -/
def Step.Allowed (b : ByteBuffer) : Step → Prop
  | alloc capacity => capacity ≤ maxCapacity
  | seeded capacity data => data.length ≤ capacity ∧ capacity ≤ maxCapacity
  | copyOf data => data.length ≤ maxCapacity
  | consume n => n ≤ b.size
  | fill data n => n ≤ data.length ∧ data.length ≤ b.tailRoom
  | put data => data.length ≤ b.tailRoom
  | reset | compact => True
  | regrow capacity => max capacity b.size ≤ maxCapacity

/-- Every step stays within the bounds that it finds. -/
def Allowed : List Step → ByteBuffer → Prop
  | [], _ => True
  | step :: rest, b => step.Allowed b ∧ ∀ after, b.perform step = .ok after → Allowed rest after

instance (b : ByteBuffer) : (step : Step) → Decidable (step.Allowed b)
  | .alloc capacity => inferInstanceAs (Decidable (capacity ≤ maxCapacity))
  | .seeded capacity data =>
    inferInstanceAs (Decidable (data.length ≤ capacity ∧ capacity ≤ maxCapacity))
  | .copyOf data => inferInstanceAs (Decidable (data.length ≤ maxCapacity))
  | .consume n => inferInstanceAs (Decidable (n ≤ b.size))
  | .fill data n => inferInstanceAs (Decidable (n ≤ data.length ∧ data.length ≤ b.tailRoom))
  | .put data => inferInstanceAs (Decidable (data.length ≤ b.tailRoom))
  | .reset | .compact => inferInstanceAs (Decidable True)
  | .regrow capacity => inferInstanceAs (Decidable (max capacity b.size ≤ maxCapacity))

instance decidableAllowed : (steps : List Step) → (b : ByteBuffer) → Decidable (Allowed steps b)
  | [], _ => inferInstanceAs (Decidable True)
  | step :: rest, b =>
    match h : b.perform step with
    | .ok after =>
      have := decidableAllowed rest after
      decidable_of_iff (step.Allowed b ∧ Allowed rest after) (by simp [Allowed, h])
    | .error _ => decidable_of_iff (step.Allowed b) (by simp [Allowed, h])

def performAll (steps : List Step) (b : ByteBuffer) : Checked ByteBuffer := steps.foldlM perform b

/-- The bytes of a buffer, and how many it has a place for. -/
structure Queue where
  bytes : Bytes := []
  capacity : Nat := 0

def Queue.perform (q : Queue) : Step → Queue
  | .alloc capacity => ⟨[], capacity⟩
  | .seeded capacity data => ⟨data, capacity⟩
  | .copyOf data => ⟨data, data.length⟩
  | .consume n => { q with bytes := q.bytes.drop n }
  | .fill data n => { q with bytes := q.bytes ++ data.take n }
  | .put data => { q with bytes := q.bytes ++ data }
  | .reset => { q with bytes := [] }
  | .compact => q
  | .regrow capacity => { q with capacity := max capacity q.bytes.length }

end ByteBuffer

namespace Window

def perform (w : Window) : ByteBuffer.Step → Checked Window
  | .alloc capacity => alloc capacity
  | .seeded capacity data => seeded capacity data
  | .copyOf data => seeded data.length data
  | .consume n => w.consume n
  | .fill data n => do
    let w ← w.fill data
    w.commit n
  | .put data => w.append data
  | .reset => .ok w.reset
  | .compact => w.compact
  | .regrow capacity => w.regrow capacity

def performAll (steps : List ByteBuffer.Step) (w : Window) : Checked Window :=
  steps.foldlM perform w

/-- The window is within the store, and the bytes in it are those of a queue. What the queue leaves
of the store is behind the window once the live bytes are in front. -/
structure Holds (q : ByteBuffer.Queue) (w : Window) : Prop where
  inside : w.head + w.size ≤ w.capacity
  rewound : w.size = 0 → w.head = 0
  live : w.live = .ok q.bytes
  size : w.size = q.bytes.length
  capacity : w.capacity = q.capacity
  tailRoom : w.tailRoom = .ok (q.capacity - w.head - q.bytes.length)
  spare : ∃ room, w.spare = .ok room ∧ room.length = q.capacity - w.head - q.bytes.length
  compacted : ∃ w', w.compact = .ok w' ∧ w'.live = .ok q.bytes ∧
    w'.tailRoom = .ok (q.capacity - q.bytes.length)

end Window

namespace ByteBuffer

variable {b after : ByteBuffer} {data : Bytes} {n : Nat} {q : Queue} {step : Step}
  {steps : List Step}

/-- The bytes and the size of a buffer are those of a queue, and the window of an empty one is at
the front. -/
structure Holds (q : Queue) (b : ByteBuffer) : Prop where
  live : b.live = q.bytes
  capacity : b.capacity = q.capacity
  rewound : b.size = 0 → b.head = 0

theorem holds_seeded (hdata : data.length ≤ n) (hn : n ≤ maxCapacity) :
    ∃ after, seeded n data = .ok after ∧ after.Holds ⟨data, n⟩ := by
  refine ⟨_, seeded_eq_ok hdata hn, rfl, ?_, fun _ => rfl⟩
  simp only [capacity_eq, List.length_nil]
  omega

theorem head_consume (h : b.consume n = .ok after) (hempty : after.size = 0) : after.head = 0 := by
  unfold consume at h
  split at h
  · rename_i hn
    cases h
    unfold size at hempty hn
    rw [List.length_drop] at hempty
    omega
  split at h
  · cases h
    rfl
  · cases h

theorem commit_fill_eq_ok (hn : n ≤ data.length) (hroom : data.length ≤ b.tailRoom) :
    ∃ after, (b.fill data).commit n = .ok after ∧ after.live = b.live ++ data.take n ∧
      after.capacity = b.capacity ∧ after.head = b.head := by
  have hfits : n ≤ (b.fill data).tailRoom := by
    rw [tailRoom_fill]
    omega
  have hmade : (b.fill data).room n = data.take n := by
    have hwritten := congrArg (List.take n) (room_fill hroom)
    rwa [room_eq, List.take_take, Nat.min_eq_left hn, ← room_eq] at hwritten
  have hcommit : ∃ after, (b.fill data).commit n = .ok after := ⟨_, if_pos hfits⟩
  obtain ⟨after, hafter⟩ := hcommit
  refine ⟨after, hafter, ?_, (capacity_commit hafter).trans (capacity_fill data b), ?_⟩ <;>
    rw [commit, if_pos hfits] at hafter <;> cases hafter
  · exact congrArg _ hmade
  · rfl

theorem Holds.filled (h : b.Holds q) (hn : n ≤ data.length) (hroom : data.length ≤ b.tailRoom) :
    ∃ after, (b.fill data).commit n = .ok after ∧
      after.Holds { q with bytes := q.bytes ++ data.take n } := by
  obtain ⟨after, hafter, hlive, hcapacity, hhead⟩ := commit_fill_eq_ok hn hroom
  refine ⟨after, hafter, by rw [hlive, h.live], hcapacity.trans h.capacity, ?_⟩
  intro hempty
  rw [hhead]
  apply h.rewound
  rw [size, hlive, List.length_append] at hempty
  unfold size
  omega

/-- A step within the bounds comes to a result, which holds what the queue has come to hold. -/
theorem Holds.performed (h : b.Holds q) (hs : step.Allowed b) :
    ∃ after, b.perform step = .ok after ∧ after.Holds (q.perform step) := by
  cases step with
  | alloc capacity =>
    have hempty : ([] : Bytes).length ≤ capacity := Nat.zero_le capacity
    exact holds_seeded hempty hs
  | seeded capacity data => exact holds_seeded hs.1 hs.2
  | copyOf data =>
    refine ⟨_, rfl, rfl, ?_, fun _ => rfl⟩
    exact Nat.zero_add data.length
  | consume n =>
    obtain ⟨after, hafter, hlive⟩ := consume_eq_ok hs
    refine ⟨after, hafter, ?_, (capacity_consume hafter).trans h.capacity, head_consume hafter⟩
    rw [hlive, h.live]
    rfl
  | fill data n => exact h.filled hs.1 hs.2
  | put data =>
    have hroom : data.length ≤ b.tailRoom := hs
    obtain ⟨after, hafter, hholds⟩ := h.filled (Nat.le_refl _) hroom
    rw [List.take_length] at hholds
    exact ⟨after, by rw [perform, append, if_pos hroom, hafter], hholds⟩
  | reset => exact ⟨_, rfl, rfl, (capacity_reset b).trans h.capacity, fun _ => rfl⟩
  | compact =>
    exact ⟨_, rfl, (live_compact b).trans h.live, (capacity_compact b).trans h.capacity,
      fun _ => head_compact b⟩
  | regrow capacity =>
    have hmax : max capacity b.size ≤ maxCapacity := hs
    obtain ⟨after, hafter, hholds⟩ := holds_seeded (Nat.le_max_right capacity b.size) hmax
    rw [size, h.live] at hholds
    exact ⟨after, hafter, hholds⟩

/-- On the flat store a step does the same. -/
theorem window_perform (hs : step.Allowed b) :
    (b.perform step).map window = b.window.perform step := by
  cases step with
  | alloc capacity => exact window_alloc capacity
  | seeded capacity data => exact window_seeded capacity data
  | copyOf data =>
    have hseeded := seeded_eq_ok (Nat.le_refl data.length) hs
    rw [Nat.sub_self] at hseeded
    exact (congrArg _ hseeded.symm).trans (window_seeded data.length data)
  | consume n => exact window_consume n b
  | fill data n =>
    change _ = b.window.fill data >>= _
    rw [← window_fill]
    exact window_commit n (b.fill data)
  | put data => exact window_append data b
  | reset => exact congrArg _ (window_reset b)
  | compact => exact window_compact b
  | regrow capacity => exact window_regrow capacity b

theorem Holds.performedAll (h : b.Holds q) (hs : Allowed steps b) :
    ∃ after, performAll steps b = .ok after ∧ after.Holds (steps.foldl Queue.perform q) ∧
      b.window.performAll steps = .ok after.window := by
  induction steps generalizing b q with
  | nil => exact ⟨b, rfl, h, rfl⟩
  | cons step rest ih =>
    obtain ⟨next, hnext, hholds⟩ := h.performed hs.1
    obtain ⟨after, hafter, hall, hwindow⟩ := ih hholds (hs.2 next hnext)
    have hflat : b.window.perform step = .ok next.window := by
      rw [← window_perform hs.1, hnext]
      rfl
    refine ⟨after, ?_, hall, ?_⟩
    · change b.perform step >>= _ = _
      rwa [hnext]
    · change b.window.perform step >>= _ = _
      rwa [hflat]

/-- Where a buffer holds a queue its window is within the flat store, which shows the bytes of the
queue there and has all the room that the queue leaves. -/
theorem Holds.window (h : b.Holds q) : b.window.Holds q := by
  have hlive := h.live
  have hcapacity := h.capacity
  have hparts := capacity_parts b
  have hcompacted := tailRoom_compact b
  have hhead := head_window b
  have hsize : b.window.size = b.live.length := rfl
  have hroom : q.capacity - b.window.head - q.bytes.length = b.spare.length := by
    rw [hhead, ← hlive]
    omega
  exact
    { inside := by
        rw [capacity_window]
        omega
      rewound := by
        rw [hhead]
        exact h.rewound
      live := Window.live_around.trans (congrArg _ hlive)
      size := congrArg _ hlive
      capacity := (capacity_window b).trans hcapacity
      tailRoom := by
        rw [hroom]
        exact Window.tailRoom_around
      spare := ⟨b.spare, Window.spare_around, hroom.symm⟩
      compacted := by
        refine ⟨b.compact.window, (window_compact b).symm, ?_, ?_⟩
        · rw [ByteBuffer.window, Window.live_around, live_compact, hlive]
        · rw [ByteBuffer.window, Window.tailRoom_around, length_spare, hcompacted, hcapacity,
            ← hlive]
          rfl }

/-- Whatever is done with a buffer within its bounds, it holds the bytes that a queue holds after
the same, and so does its flat store, in which no position goes beyond the end. -/
theorem refines_queue (h : Allowed steps empty) :
    ∃ b, performAll steps empty = .ok b ∧ b.Holds (steps.foldl Queue.perform {}) ∧
      Window.performAll steps ⟨[], 0, 0⟩ = .ok b.window ∧
      b.window.Holds (steps.foldl Queue.perform {}) ∧
      b.head + b.size + b.tailRoom = b.capacity ∧
      b.compact.tailRoom = b.capacity - b.size ∧
      ∀ (others : List Step) (c : ByteBuffer), Allowed others empty →
        performAll others empty = .ok c →
        b.window.sameContent c.window = .ok (b.sameContent c) ∧
        (b.sameContent c = true ↔
          (steps.foldl Queue.perform {}).bytes = (others.foldl Queue.perform {}).bytes) := by
  have hempty : empty.Holds {} := ⟨rfl, rfl, fun _ => rfl⟩
  obtain ⟨b, hrun, hholds, hwindow⟩ := hempty.performedAll h
  refine ⟨b, hrun, hholds, hwindow, hholds.window, rfl, tailRoom_compact b, ?_⟩
  intro others c hothers hc
  obtain ⟨c', hrun', hholds', _⟩ := hempty.performedAll hothers
  cases hc.symm.trans hrun'
  refine ⟨(window_sameContent b c).symm, ?_⟩
  rw [sameContent, beq_iff_eq, hholds.live, hholds'.live]

/-- The live bytes move away from the front, and only one of the bytes that are written is added. -/
def shiftingSteps : List Step :=
  [.alloc 8, .put [1, 2, 3, 4, 5, 6], .consume 4, .fill [7, 8] 1]

/-- The same bytes come into a store that is replaced in between. -/
def regrowingSteps : List Step :=
  [.seeded 3 [4, 5], .consume 1, .compact, .put [6], .regrow 1, .regrow 5, .put [7]]

theorem allowed_shiftingSteps : Allowed shiftingSteps empty := by decide

theorem allowed_regrowingSteps : Allowed regrowingSteps empty := by decide

theorem refines_queue_shifting :
    ∃ b c, performAll shiftingSteps empty = .ok b ∧ performAll regrowingSteps empty = .ok c ∧
      b.window.live = .ok [5, 6, 7] ∧ b.capacity = 8 ∧ c.capacity = 5 ∧
      b.window.sameContent c.window = .ok true := by
  obtain ⟨b, hb, hholds, _, hwindow, _, _, hsame⟩ := refines_queue allowed_shiftingSteps
  obtain ⟨c, hc, hholds', _⟩ := refines_queue allowed_regrowingSteps
  obtain ⟨heq, hiff⟩ := hsame regrowingSteps c allowed_regrowingSteps hc
  refine ⟨b, c, hb, hc, hwindow.live, hholds.capacity, hholds'.capacity, ?_⟩
  rw [heq, hiff.mpr rfl]

end ByteBuffer

end DuplexRelay
