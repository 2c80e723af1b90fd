import DuplexRelay.Proofs.OrderedMap.Entries

/-! Insertions. A new entry takes a slot that was free or is new, and stands in its place in the
list. -/

namespace DuplexRelay.OrderedMap

variable {K V : Type} {cmp : K → K → Ordering} {m m' : OrderedMap K V cmp} {id : Handle}
  {key : K} {value : V} {entry : K × V} {index : Nat}

/-- What is put into an empty slot. -/
structure Placed (entry : K × V) (m : OrderedMap K V cmp) (index : Nat)
    (m' : OrderedMap K V cmp) : Prop where
  vacant : m.held index = none
  held : ∀ i, m'.held i = if i = index then some entry else m.held i
  handleAt : ∀ i, m'.handleAt i = m.handleAt i
  tree : m'.tree = m.tree
  size : m'.size = m.size
  free : ∀ i, i ∈ m'.free ↔ i < m'.slots.size ∧ m'.held i = none
  nodup : m'.free.Nodup

theorem placed_pushed (hm : m.WellFormed) (entry : K × V) (hf : m.free = []) :
    Placed entry m m.slots.size
      { m with slots := m.slots.push { entry := some entry }, free := [] } := by
  have hvacant : m.held m.slots.size = none := by simp [held]
  have hheld : ∀ i, ({ m with slots := m.slots.push { entry := some entry }, free := [] } :
      OrderedMap K V cmp).held i = if i = m.slots.size then some entry else m.held i := by
    intro i
    unfold held
    simp only [Array.getElem?_push]
    split <;> rfl
  refine ⟨hvacant, hheld, ?_, rfl, rfl, ?_, List.nodup_nil⟩
  · intro i
    unfold OrderedMap.handleAt
    simp only [Array.getElem?_push]
    split
    · rename_i hi
      simp [hi]
    · rfl
  · -- no slot was free, and the new one is not
    intro i
    have hfree := hm.free i
    rw [hf] at hfree
    simp only [hheld, List.not_mem_nil, false_iff, Array.size_push, not_and] at hfree ⊢
    intro hi
    by_cases heq : i = m.slots.size
    · simp [heq]
    · rw [if_neg heq]
      exact hfree (by omega)

theorem placed_reused (hm : m.WellFormed) (entry : K × V) {index : Nat} {rest : List Nat}
    (hf : m.free = index :: rest) :
    Placed entry m index
      { m with slots := m.slots.modify index ({ · with entry := some entry }), free := rest } := by
  obtain ⟨hsize, hvacant⟩ := (hm.free index).mp (by simp [hf])
  have hnodup := hm.nodup
  rw [hf, List.nodup_cons] at hnodup
  have hheld : ∀ i, ({ m with
      slots := m.slots.modify index ({ · with entry := some entry }), free := rest } :
      OrderedMap K V cmp).held i = if i = index then some entry else m.held i := by
    intro i
    unfold held
    simp only [Array.getElem?_modify]
    by_cases hi : index = i
    · subst hi
      simp [Array.getElem?_eq_getElem hsize]
    · simp [hi, Ne.symm hi]
  refine ⟨hvacant, hheld, ?_, rfl, rfl, ?_, hnodup.2⟩
  · intro i
    unfold OrderedMap.handleAt
    simp only [Array.getElem?_modify]
    split
    · cases m.slots[i]? <;> rfl
    · rfl
  · intro i
    have hfree := hm.free i
    rw [hf, List.mem_cons] at hfree
    simp only [hheld, Array.size_modify]
    by_cases hi : i = index
    · subst hi
      simp [hnodup.1]
    · simpa [hi] using hfree

theorem placed (hm : m.WellFormed) (entry : K × V) :
    Placed entry m (m.place entry).1 (m.place entry).2 := by
  unfold place
  cases hf : m.free with
  | nil => exact placed_pushed hm entry hf
  | cons index rest => exact placed_reused hm entry hf

theorem insert_of_find? (h : m.find? key = some id) : m.insert key value = (.existing id, m) := by
  unfold insert
  rw [h]

theorem find?_of_existing (h : m.insert key value = (.existing id, m')) :
    m.find? key = some id := by
  unfold insert at h
  cases hfind : m.find? key with
  | none => simp [hfind] at h
  | some other =>
    rw [hfind] at h
    cases h
    rfl

theorem absent_of_added (h : m.insert key value = (.added id, m')) : m.find? key = none := by
  unfold insert at h
  cases hfind : m.find? key with
  | none => rfl
  | some other => simp [hfind] at h

variable [Std.TransCmp cmp]

theorem wellFormed_added (hm : m.WellFormed) (h : m.insert key value = (.added id, m')) :
    m'.WellFormed := by
  have habsent := absent_of_added h
  have hp := placed hm (key, value)
  unfold insert at h
  simp only [habsent, Prod.mk.injEq] at h
  rw [← h.2]
  unfold find? at habsent
  rw [Option.map_eq_none_iff, SearchTree.find?_eq_none_iff hm.ordered] at habsent
  refine ⟨?_, ?_, hp.free, hp.nodup, ?_⟩
  · rw [hp.tree]
    exact SearchTree.ordered_insert hm.ordered habsent
  · intro k index
    have hheld := hp.held index
    have hvacant := hp.vacant
    rw [hp.tree, SearchTree.mem_insert hm.ordered habsent, hm.occupied, Prod.mk.injEq]
    change _ ↔ ∃ v, held (m.place (key, value)).2 index = some (k, v)
    rw [hheld]
    by_cases hi : index = (m.place (key, value)).1
    · rw [if_pos hi, hi, hvacant]
      simp [eq_comm]
    · simp [hi]
  · rw [hp.tree, hp.size, hm.size, SearchTree.toList_insert hm.ordered habsent]
    have hsplit := SearchTree.length_split habsent
    simp only [List.length_append, List.length_cons]
    omega

theorem entries_added (hm : m.WellFormed) (h : m.insert key value = (.added id, m')) :
    m'.entries = m.entries.filter (cmp key ·.2.1 = .gt) ++ (id, key, value) ::
      m.entries.filter (cmp key ·.2.1 = .lt) := by
  have habsent := absent_of_added h
  have hp := placed hm (key, value)
  unfold insert at h
  simp only [habsent, Prod.mk.injEq, Inserted.added.injEq] at h
  rw [← h.2, ← h.1]
  unfold find? at habsent
  rw [Option.map_eq_none_iff, SearchTree.find?_eq_none_iff hm.ordered] at habsent
  have hold : ∀ p : K → Bool, ((m.tree.toList.filter fun x => p x.1).filterMap fun x =>
      (held (m.place (key, value)).2 x.2).map fun e =>
        ((m.place (key, value)).2.handleAt x.2, e)) = m.entries.filter fun x => p x.2.1 := by
    intro p
    rw [← hm.entries_filter p]
    apply List.filterMap_congr
    intro x hx
    obtain ⟨v, hv⟩ := hm.held_of_mem (List.mem_of_mem_filter hx)
    have hother : x.2 ≠ (m.place (key, value)).1 := by
      intro heq
      rw [heq, hp.vacant] at hv
      cases hv
    rw [hp.held, hp.handleAt, if_neg hother]
  have hnew := hp.held (m.place (key, value)).1
  rw [if_pos rfl] at hnew
  change List.filterMap (fun x => (held (m.place (key, value)).2 x.2).map fun e =>
    ((m.place (key, value)).2.handleAt x.2, e)) (SearchTree.toList _) = _
  rw [hp.tree, SearchTree.toList_insert hm.ordered habsent, List.filterMap_append,
    hold fun k => cmp key k = .gt, List.filterMap_cons, hnew, hold fun k => cmp key k = .lt]
  rfl

/-- Where a key is absent, the entries below it and those above it are all there are. -/
theorem filter_gt_append_filter_lt (hm : m.WellFormed) (hn : ∀ x ∈ m.entries, cmp key x.2.1 ≠ .eq) :
    m.entries.filter (cmp key ·.2.1 = .gt) ++ m.entries.filter (cmp key ·.2.1 = .lt) =
      m.entries := by
  have hsorted := hm.entries_sorted
  generalize m.entries = entries at hsorted hn
  induction entries with
  | nil => rfl
  | cons x rest ih =>
    rw [List.pairwise_cons] at hsorted
    have ih := ih hsorted.2 fun y hy => hn y (List.mem_cons_of_mem x hy)
    cases hc : cmp key x.2.1 with
    | gt => simpa [hc] using ih
    | lt =>
      -- all that follow are above the key as well
      have habove : ∀ y ∈ rest, cmp key y.2.1 = .lt :=
        fun y hy => Std.TransCmp.lt_trans hc (hsorted.1 y hy)
      have hall : rest.filter (cmp key ·.2.1 = .lt) = rest := by
        rw [List.filter_eq_self]
        intro y hy
        simp [habove y hy]
      have hnone : rest.filter (cmp key ·.2.1 = .gt) = [] := by
        rw [List.filter_eq_nil_iff]
        intro y hy
        simp [habove y hy]
      simp [hc, hall, hnone]
    | eq => exact absurd hc (hn x List.mem_cons_self)

end DuplexRelay.OrderedMap
