import Mathlib.Data.List.Basic
import DuplexRelay.OrderedMap
import DuplexRelay.Proofs.SearchTree

/-! Ordered maps as lists. The entries of a well-formed map with their handles are a strictly
ascending list, which lookups and walks are about. -/

namespace DuplexRelay

theorem SearchTree.eq_of_cmp_eq {K : Type} {cmp : K → K → Ordering} [Std.TransCmp cmp]
    {t : SearchTree K} (ht : t.Ordered cmp) {a b : K} {i j : Nat} (ha : (a, i) ∈ t.toList)
    (hb : (b, j) ∈ t.toList) (he : cmp a b = .eq) : i = j := by
  have hi : t.find? cmp a = some i := (find?_eq_some_iff ht).mpr ⟨a, ha, Std.ReflCmp.compare_self⟩
  have hj : t.find? cmp a = some j := (find?_eq_some_iff ht).mpr ⟨b, hb, he⟩
  rw [hi] at hj
  exact Option.some.inj hj

namespace OrderedMap

variable {K V : Type} {cmp : K → K → Ordering} {m m' : OrderedMap K V cmp} {id : Handle}
  {key : K} {value : V} {entry : K × V} {index : Nat}

/-- What a slot holds. -/
def held (m : OrderedMap K V cmp) (index : Nat) : Option (K × V) := m.slots[index]?.bind (·.entry)

/-- All entries in order, with their handles. -/
def entries (m : OrderedMap K V cmp) : List (Handle × K × V) :=
  m.tree.toList.filterMap fun x => (m.held x.2).map fun e => (m.handleAt x.2, e)

/-- The tree has a node for each occupied slot, and the other slots are free. -/
structure WellFormed (m : OrderedMap K V cmp) : Prop where
  ordered : m.tree.Ordered cmp
  occupied : ∀ key index, (key, index) ∈ m.tree.toList ↔ ∃ value, m.held index = some (key, value)
  free : ∀ index, index ∈ m.free ↔ index < m.slots.size ∧ m.held index = none
  nodup : m.free.Nodup
  size : m.size = m.tree.toList.length

theorem wellFormed_empty : WellFormed (empty : OrderedMap K V cmp) := by
  refine ⟨SearchTree.ordered_leaf, ?_, ?_, List.nodup_nil, rfl⟩
  · intro key index
    simp [empty, held]
  · intro index
    simp [empty]

@[simp] theorem handleAt_index (m : OrderedMap K V cmp) (index : Nat) :
    (m.handleAt index).index = index := rfl

theorem entryAt_eq (m : OrderedMap K V cmp) (id : Handle) :
    m.entry? id = if m.handleAt id.index = id then m.held id.index else none := by
  unfold entry? held handleAt
  cases id with
  | mk index generation =>
    cases m.slots[index]? with
    | none => simp
    | some slot => simp

theorem entryAt_eq_some_iff :
    m.entry? id = some entry ↔ m.handleAt id.index = id ∧ m.held id.index = some entry := by
  rw [entryAt_eq]
  split <;> simp_all

namespace WellFormed

theorem held_of_mem (hm : m.WellFormed) {x : K × Nat} (hx : x ∈ m.tree.toList) :
    ∃ value, m.held x.2 = some (x.1, value) := (hm.occupied x.1 x.2).mp hx

theorem mem_entries (hm : m.WellFormed) : (id, entry) ∈ m.entries ↔ m.entry? id = some entry := by
  rw [entryAt_eq_some_iff]
  unfold entries
  simp only [List.mem_filterMap, Option.map_eq_some_iff, Prod.mk.injEq]
  constructor
  · rintro ⟨x, _, e, hheld, rfl, rfl⟩
    exact ⟨rfl, hheld⟩
  · rintro ⟨hid, hheld⟩
    exact ⟨(entry.1, id.index), (hm.occupied _ _).mpr ⟨entry.2, hheld⟩, entry, hheld, hid, rfl⟩

theorem entries_filter (hm : m.WellFormed) (p : K → Bool) :
    ((m.tree.toList.filter fun x => p x.1).filterMap fun x =>
      (m.held x.2).map fun e => (m.handleAt x.2, e)) = m.entries.filter fun x => p x.2.1 := by
  unfold entries
  rw [List.filter_filterMap, List.filterMap_filter]
  apply List.filterMap_congr
  intro x hx
  obtain ⟨value, hheld⟩ := hm.held_of_mem hx
  cases hp : p x.1 <;> simp [hheld, hp, Option.filter]

theorem entries_sorted (hm : m.WellFormed) :
    m.entries.Pairwise fun a b => cmp a.2.1 b.2.1 = .lt := by
  unfold entries
  rw [List.pairwise_filterMap]
  refine hm.ordered.imp_of_mem ?_
  intro x y hx hy hlt a ha b hb
  obtain ⟨v, hv⟩ := hm.held_of_mem hx
  obtain ⟨u, hu⟩ := hm.held_of_mem hy
  simp only [hv, hu, Option.map_some, Option.some.injEq] at ha hb
  rw [← ha, ← hb]
  exact hlt

theorem handles_filter (hm : m.WellFormed) (p : K → Bool) :
    (m.tree.toList.filter fun x => p x.1).map (fun x => m.handleAt x.2) =
      (m.entries.filter fun x => p x.2.1).map (·.1) := by
  rw [← hm.entries_filter p, List.map_filterMap, ← List.filterMap_eq_map]
  apply List.filterMap_congr
  intro x hx
  obtain ⟨value, hheld⟩ := hm.held_of_mem (List.mem_of_mem_filter hx)
  simp [hheld]

theorem handles_eq (hm : m.WellFormed) : m.handles = m.entries.map (·.1) := by
  have h := hm.handles_filter fun _ => true
  rw [List.filter_true, List.filter_true] at h
  exact h

theorem size_eq (hm : m.WellFormed) : m.size = m.entries.length := by
  have h := congrArg List.length hm.handles_eq
  rw [handles, List.length_map, List.length_map] at h
  rw [hm.size, h]

theorem toList_eq (hm : m.WellFormed) : m.toList = m.entries.map (·.2) := by
  unfold toList
  rw [hm.handles_eq, List.filterMap_map, ← List.filterMap_eq_map]
  apply List.filterMap_congr
  rintro ⟨id, e⟩ hx
  exact hm.mem_entries.mp hx

variable [Std.TransCmp cmp]

theorem entries_handles_nodup (hm : m.WellFormed) : (m.entries.map (·.1)).Nodup := by
  unfold List.Nodup
  rw [List.pairwise_map]
  refine hm.entries_sorted.imp_of_mem ?_
  rintro ⟨i, e⟩ ⟨j, f⟩ hi hj hlt heq
  cases heq
  have he := hm.mem_entries.mp hi
  rw [hm.mem_entries.mp hj] at he
  cases he
  simp [Std.ReflCmp.compare_self] at hlt

theorem find?_eq_some_iff (hm : m.WellFormed) :
    m.find? key = some id ↔ ∃ e, (id, e) ∈ m.entries ∧ cmp key e.1 = .eq := by
  unfold find?
  simp only [Option.map_eq_some_iff, SearchTree.find?_eq_some_iff hm.ordered]
  constructor
  · rintro ⟨index, ⟨k, hx, he⟩, rfl⟩
    obtain ⟨value, hheld⟩ := hm.held_of_mem hx
    exact ⟨(k, value), hm.mem_entries.mpr (entryAt_eq_some_iff.mpr ⟨rfl, hheld⟩), he⟩
  · rintro ⟨⟨k, value⟩, hx, he⟩
    obtain ⟨hid, hheld⟩ := entryAt_eq_some_iff.mp (hm.mem_entries.mp hx)
    exact ⟨id.index, ⟨k, (hm.occupied _ _).mpr ⟨value, hheld⟩, he⟩, hid⟩

theorem find?_eq_none_iff (hm : m.WellFormed) :
    m.find? key = none ↔ ∀ x ∈ m.entries, cmp key x.2.1 ≠ .eq := by
  rw [Option.eq_none_iff_forall_not_mem]
  constructor
  · intro h x hx he
    exact h x.1 (hm.find?_eq_some_iff.mpr ⟨x.2, hx, he⟩)
  · intro h id hid
    obtain ⟨e, hx, he⟩ := hm.find?_eq_some_iff.mp hid
    exact h _ hx he

omit [Std.TransCmp cmp] in
theorem first?_eq (hm : m.WellFormed) : m.first? = (m.entries.map (·.1)).head? := by
  unfold first?
  rw [SearchTree.first?_eq, ← hm.handles_eq, handles, List.head?_map, Option.map_map]
  rfl

theorem next?_of_some (hm : m.WellFormed) (h : m.entry? id = some entry) :
    m.next? id = ((m.entries.filter (cmp entry.1 ·.2.1 = .lt)).map (·.1)).head? := by
  have hfilter := hm.handles_filter fun k => cmp entry.1 k = .lt
  unfold next? key?
  rw [h, ← hfilter]
  simp only [Option.map_some, SearchTree.above?_eq hm.ordered, List.head?_map, List.head?_filter,
    Option.map_map]
  rfl

end WellFormed

end OrderedMap

end DuplexRelay
