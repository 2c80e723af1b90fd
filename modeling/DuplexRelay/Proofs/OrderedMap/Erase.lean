import DuplexRelay.Proofs.OrderedMap.Entries

/-! Removals. An entry that is removed goes from the list, alone or with others, and the rest of the
list stays as it is. -/

namespace DuplexRelay.OrderedMap

variable {K V : Type} {cmp : K → K → Ordering} {m m' : OrderedMap K V cmp} {id : Handle}
  {key : K} {value : V} {entry : K × V} {index : Nat}

theorem held_erase (h : m.entry? id = some entry) (index : Nat) :
    (m.erase id).2.held index = if index = id.index then none else m.held index := by
  unfold erase held
  simp only [h, Array.getElem?_modify]
  by_cases hindex : id.index = index
  · cases hslot : m.slots[index]? <;> simp [hindex]
  · simp [hindex, Ne.symm hindex]

theorem handleAt_erase (h : m.entry? id = some entry) {index : Nat} (hindex : index ≠ id.index) :
    (m.erase id).2.handleAt index = m.handleAt index := by
  unfold erase handleAt
  simp only [h, Array.getElem?_modify]
  rw [if_neg (Ne.symm hindex)]

theorem tree_erase (h : m.entry? id = some entry) :
    (m.erase id).2.tree = m.tree.erase cmp entry.1 := by
  unfold erase
  simp only [h]

variable [Std.TransCmp cmp]

theorem WellFormed.slots_nodup (hm : m.WellFormed) : (m.tree.toList.map (·.2)).Nodup := by
  unfold List.Nodup
  rw [List.pairwise_map]
  refine hm.ordered.imp_of_mem ?_
  intro x y hx hy hlt heq
  obtain ⟨v, hv⟩ := hm.held_of_mem hx
  obtain ⟨u, hu⟩ := hm.held_of_mem hy
  rw [heq, hu] at hv
  have hkey := congrArg Prod.fst (Option.some.inj hv)
  dsimp only at hkey
  rw [hkey] at hlt
  simp [Std.ReflCmp.compare_self] at hlt

theorem WellFormed.cmp_eq_iff (hm : m.WellFormed) (h : m.entry? id = some entry) {x : K × Nat}
    (hx : x ∈ m.tree.toList) : cmp entry.1 x.1 = .eq ↔ x.2 = id.index := by
  obtain ⟨_, hheld⟩ := entryAt_eq_some_iff.mp h
  have hnode := (hm.occupied entry.1 id.index).mpr ⟨entry.2, hheld⟩
  constructor
  · intro he
    exact (SearchTree.eq_of_cmp_eq hm.ordered hnode hx he).symm
  · intro hindex
    obtain ⟨value, hvalue⟩ := hm.held_of_mem hx
    rw [hindex, hheld] at hvalue
    cases hvalue
    exact Std.ReflCmp.compare_self

theorem WellFormed.toList_erase (hm : m.WellFormed) (h : m.entry? id = some entry) :
    (m.tree.erase cmp entry.1).toList = m.tree.toList.filter (·.2 ≠ id.index) := by
  rw [SearchTree.toList_erase hm.ordered]
  apply List.filter_congr
  intro x hx
  simp [hm.cmp_eq_iff h hx]

theorem wellFormed_erase (hm : m.WellFormed) (id : Handle) : (m.erase id).2.WellFormed := by
  cases h : m.entry? id with
  | none =>
    unfold erase
    rw [h]
    exact hm
  | some entry =>
    have hlist := hm.toList_erase h
    obtain ⟨_, hheld⟩ := entryAt_eq_some_iff.mp h
    have hnode := (hm.occupied entry.1 id.index).mpr ⟨entry.2, hheld⟩
    have hindex : id.index < m.slots.size := by
      by_contra hge
      simp [held, Array.getElem?_eq_none (Nat.le_of_not_lt hge)] at hheld
    refine ⟨?_, ?_, ?_, ?_, ?_⟩
    · rw [tree_erase h]
      exact SearchTree.ordered_erase hm.ordered
    · intro key index
      rw [tree_erase h, hlist, List.mem_filter, hm.occupied, held_erase h]
      by_cases hi : index = id.index <;> simp [hi]
    · intro index
      rw [held_erase h]
      unfold erase
      simp only [h, List.mem_cons, Array.size_modify, hm.free]
      by_cases hi : index = id.index
      · simp [hi, hindex]
      · simp [hi]
    · unfold erase
      simp only [h, List.nodup_cons]
      refine ⟨?_, hm.nodup⟩
      intro hfree
      rw [((hm.free _).mp hfree).2] at hheld
      cases hheld
    · rw [tree_erase h, hlist]
      unfold erase
      simp only [h, hm.size]
      have hmem : id.index ∈ m.tree.toList.map (·.2) := List.mem_map_of_mem hnode
      have hlength := List.length_erase_of_mem hmem
      rw [hm.slots_nodup.erase_eq_filter, List.filter_map, List.length_map,
        List.length_map] at hlength
      rw [← hlength]
      congr 1
      apply List.filter_congr
      intro x _
      by_cases hi : x.2 = id.index <;> simp [hi]

theorem entries_erase (hm : m.WellFormed) (id : Handle) :
    (m.erase id).2.entries = m.entries.filter (·.1 ≠ id) := by
  cases h : m.entry? id with
  | none =>
    unfold erase
    rw [h]
    symm
    rw [List.filter_eq_self]
    rintro ⟨i, e⟩ hx
    simp only [ne_eq, decide_eq_true_eq]
    rintro rfl
    rw [hm.mem_entries.mp hx] at h
    cases h
  | some entry =>
    obtain ⟨hid, hvalue⟩ := entryAt_eq_some_iff.mp h
    unfold entries
    rw [tree_erase h, hm.toList_erase h, List.filterMap_filter, List.filter_filterMap]
    apply List.filterMap_congr
    intro x hx
    by_cases hi : x.2 = id.index
    · simp [hi, hid, Option.filter, hvalue]
    · have hother : m.handleAt x.2 ≠ id := fun h => hi (by rw [← h, handleAt_index])
      rw [held_erase h, handleAt_erase h hi, if_neg hi]
      cases hheld : m.held x.2 <;> simp [hi, hother, Option.filter]

/-- What is left when some entries were removed one by one. -/
theorem entries_removed (hm : m.WellFormed) (ids : List Handle) :
    let left := (ids.foldr (fun id (values, m) =>
      match erase id m with
      | (some (_, value), m) => (value :: values, m)
      | (none, m) => (values, m)) (([] : List V), m)).2
    left.WellFormed ∧ left.entries = m.entries.filter (·.1 ∉ ids) := by
  induction ids with
  | nil => exact ⟨hm, by simp⟩
  | cons id ids ih =>
    obtain ⟨hwf, hentries⟩ := ih
    rw [List.foldr_cons]
    generalize List.foldr _ _ ids = before at hwf hentries
    obtain ⟨values, left⟩ := before
    have hstep : (match erase id left with
        | (some (_, value), m) => (value :: values, m)
        | (none, m) => (values, m)).2 = (left.erase id).2 := by
      rcases left.erase id with ⟨_ | ⟨k, v⟩, rest⟩ <;> rfl
    dsimp only at hwf hentries ⊢
    rw [hstep]
    refine ⟨wellFormed_erase hwf id, ?_⟩
    rw [entries_erase hwf, hentries, List.filter_filter]
    apply List.filter_congr
    intro x _
    by_cases hx : x.1 = id <;> simp [hx]

theorem values_removed (hm : m.WellFormed) {ids : List Handle} (hids : ids.Nodup) :
    (ids.foldr (fun id (values, m) =>
      match erase id m with
      | (some (_, value), m) => (value :: values, m)
      | (none, m) => (values, m)) (([] : List V), m)).1 = ids.filterMap m.get? := by
  induction ids with
  | nil => rfl
  | cons id ids ih =>
    obtain ⟨hid, hids⟩ := List.nodup_cons.mp hids
    obtain ⟨hwf, hentries⟩ := entries_removed hm ids
    have ih := ih hids
    rw [List.foldr_cons, List.filterMap_cons]
    generalize List.foldr _ _ ids = before at hwf hentries ih
    obtain ⟨values, left⟩ := before
    dsimp only at hwf hentries ih ⊢
    -- the entry in question is not among those removed before
    have hsame : left.entry? id = m.entry? id := by
      apply Option.ext
      intro e
      rw [← hwf.mem_entries, ← hm.mem_entries, hentries, List.mem_filter]
      simp [hid]
    unfold erase get?
    rw [hsame]
    cases m.entry? id with
    | none => exact ih
    | some e => exact congrArg (e.2 :: ·) ih

theorem values_drain (hm : m.WellFormed) : m.drain.1 = m.entries.map (·.2.2) := by
  have hnodup : m.handles.Nodup := by
    rw [hm.handles_eq]
    exact hm.entries_handles_nodup
  calc m.drain.1
    _ = m.handles.filterMap m.get? := values_removed hm hnodup
    _ = m.toList.map (·.2) := List.map_filterMap.symm
    _ = m.entries.map (·.2.2) := by rw [hm.toList_eq, List.map_map]; rfl

theorem wellFormed_drain (hm : m.WellFormed) : m.drain.2.WellFormed :=
  (entries_removed hm m.handles).1

theorem entries_drain (hm : m.WellFormed) : m.drain.2.entries = [] := by
  have hleft : m.drain.2.entries = m.entries.filter (·.1 ∉ m.handles) :=
    (entries_removed hm m.handles).2
  rw [hleft, hm.handles_eq, List.filter_eq_nil_iff]
  intro x hx
  simpa using ⟨x.2.1, x.2.2, hx⟩

end DuplexRelay.OrderedMap
