import DuplexRelay.Proofs.OrderedMap.Entries

/-! Changes of values. They leave keys, handles and the order of entries as they are. -/

namespace DuplexRelay.OrderedMap

variable {K V : Type} {cmp : K → K → Ordering} {m m' : OrderedMap K V cmp} {id : Handle}
  {key : K} {value : V} {entry : K × V} {index : Nat}

variable (f : V → V) (g : K → V → V)

theorem held_modify (m : OrderedMap K V cmp) (id : Handle) (index : Nat) :
    (m.modify id f).held index = (m.held index).map fun e =>
      if m.handleAt index = id then (e.1, f e.2) else e := by
  unfold modify
  cases he : m.entry? id with
  | none =>
    dsimp only
    rw [entryAt_eq] at he
    cases hheld : m.held index with
    | none => rfl
    | some e =>
      rw [Option.map_some, if_neg]
      intro hid
      have hindex : id.index = index := by rw [← hid, handleAt_index]
      rw [hindex, if_pos hid, hheld] at he
      cases he
  | some e =>
    obtain ⟨hid, hheld⟩ := entryAt_eq_some_iff.mp he
    by_cases hindex : id.index = index
    · rw [hindex] at hid hheld
      rw [hheld, Option.map_some, if_pos hid]
      unfold held at hheld ⊢
      cases hslot : m.slots[index]? with
      | none => simp [hslot] at hheld
      | some slot => simp [Array.getElem?_modify, hindex, hslot]
    · have hother : m.handleAt index ≠ id := fun h => hindex (by rw [← h, handleAt_index])
      simp only [if_neg hother, Option.map_id']
      unfold held
      simp [Array.getElem?_modify, hindex]

theorem handleAt_modify (m : OrderedMap K V cmp) (id : Handle) (index : Nat) :
    (m.modify id f).handleAt index = m.handleAt index := by
  unfold modify
  cases m.entry? id with
  | none => rfl
  | some e =>
    unfold handleAt
    dsimp only
    rw [Array.getElem?_modify]
    split
    · cases hslot : m.slots[index]? <;> simp_all
    · rfl

theorem tree_modify (m : OrderedMap K V cmp) (id : Handle) :
    (m.modify id f).tree = m.tree ∧ (m.modify id f).free = m.free ∧
      (m.modify id f).size = m.size ∧ (m.modify id f).slots.size = m.slots.size := by
  unfold modify
  cases m.entry? id with
  | none => exact ⟨rfl, rfl, rfl, rfl⟩
  | some e => exact ⟨rfl, rfl, rfl, Array.size_modify⟩

theorem held_mapValues (m : OrderedMap K V cmp) (index : Nat) :
    (m.mapValues g).held index = (m.held index).map fun e => (e.1, g e.1 e.2) := by
  unfold mapValues held
  cases hslot : m.slots[index]? <;> simp [hslot]

theorem handleAt_mapValues (m : OrderedMap K V cmp) (index : Nat) :
    (m.mapValues g).handleAt index = m.handleAt index := by
  unfold mapValues handleAt
  cases hslot : m.slots[index]? <;> simp [hslot]

/-- What is occupied does not depend on the values. -/
theorem WellFormed.of_values (hm : m.WellFormed)
    (hheld : ∀ index, (m'.held index).map (·.1) = (m.held index).map (·.1))
    (htree : m'.tree = m.tree ∧ m'.free = m.free ∧ m'.size = m.size ∧
      m'.slots.size = m.slots.size) : m'.WellFormed := by
  obtain ⟨ht, hf, hsize, hslots⟩ := htree
  refine ⟨?_, ?_, ?_, ?_, ?_⟩
  · rw [ht]
    exact hm.ordered
  · intro key index
    have hkey := hheld index
    rw [ht, hm.occupied]
    constructor
    · rintro ⟨value, h⟩
      rw [h, Option.map_some, Option.map_eq_some_iff] at hkey
      obtain ⟨⟨k, v⟩, h', rfl⟩ := hkey
      exact ⟨v, h'⟩
    · rintro ⟨value, h⟩
      rw [h, Option.map_some, eq_comm, Option.map_eq_some_iff] at hkey
      obtain ⟨⟨k, v⟩, h', rfl⟩ := hkey
      exact ⟨v, h'⟩
  · intro index
    have hnone := congrArg Option.isNone (hheld index)
    rw [Option.isNone_map, Option.isNone_map] at hnone
    rw [hf, hm.free, hslots, ← Option.isNone_iff_eq_none, ← Option.isNone_iff_eq_none, hnone]
  · rw [hf]
    exact hm.nodup
  · rw [hsize, ht]
    exact hm.size

theorem wellFormed_modify (hm : m.WellFormed) (id : Handle) : (m.modify id f).WellFormed := by
  refine hm.of_values ?_ (tree_modify f m id)
  intro index
  rw [held_modify, Option.map_map]
  congr 1
  funext e
  simp only [Function.comp_apply]
  split <;> rfl

theorem wellFormed_mapValues (hm : m.WellFormed) : (m.mapValues g).WellFormed := by
  refine hm.of_values ?_ ⟨rfl, rfl, rfl, Array.size_map⟩
  intro index
  rw [held_mapValues, Option.map_map]
  rfl

theorem entries_modify (m : OrderedMap K V cmp) (id : Handle) :
    (m.modify id f).entries = m.entries.map fun x =>
      if x.1 = id then (x.1, x.2.1, f x.2.2) else x := by
  unfold entries
  rw [(tree_modify f m id).1, List.map_filterMap]
  apply List.filterMap_congr
  intro x _
  rw [held_modify, handleAt_modify, Option.map_map, Option.map_map]
  congr 1
  funext e
  simp only [Function.comp_apply]
  split <;> rfl

theorem handles_modify (m : OrderedMap K V cmp) (id : Handle) :
    (m.modify id f).handles = m.handles := by
  unfold handles
  rw [(tree_modify f m id).1]
  apply List.map_congr_left
  intro x _
  exact handleAt_modify f m id x.2

theorem entryAt_modify (m : OrderedMap K V cmp) (id i : Handle) :
    OrderedMap.entry? (m.modify id f) i =
      (m.entry? i).map fun e => if i = id then (e.1, f e.2) else e := by
  rw [entryAt_eq, entryAt_eq, held_modify, handleAt_modify]
  by_cases hi : m.handleAt i.index = i
  · simp only [hi, if_true]
  · simp only [hi, if_false, Option.map_none]

theorem entries_mapValues (m : OrderedMap K V cmp) :
    (m.mapValues g).entries = m.entries.map fun x => (x.1, x.2.1, g x.2.1 x.2.2) := by
  unfold entries
  rw [List.map_filterMap]
  apply List.filterMap_congr
  intro x _
  rw [held_mapValues, handleAt_mapValues, Option.map_map, Option.map_map]
  rfl

end DuplexRelay.OrderedMap
