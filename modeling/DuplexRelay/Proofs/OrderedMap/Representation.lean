import DuplexRelay.Proofs.OrderedMap.Relinking

/-! What the links of a map stand for. A map whose links make up the tree of a well-formed map
answers everything as that map does, without a fault, and its links make up the tree that is left
then. -/

namespace DuplexRelay

open SearchTree

variable {K V : Type} {cmp : K → K → Ordering}

/-- Each slot is in the tree or free. -/
theorem OrderedMap.WellFormed.slots_perm [Std.TransCmp cmp] {m : OrderedMap K V cmp}
    (hm : m.WellFormed) : (m.tree.slots ++ m.free).Perm (List.range m.slots.size) := by
  have hnode : ∀ index, index ∈ m.tree.slots ↔ m.held index ≠ none := by
    intro index
    constructor
    · intro h
      obtain ⟨x, hx, rfl⟩ := List.mem_map.mp h
      obtain ⟨value, hheld⟩ := hm.held_of_mem hx
      simp [hheld]
    · intro h
      obtain ⟨⟨key, value⟩, hheld⟩ := Option.ne_none_iff_exists'.mp h
      exact List.mem_map.mpr ⟨(key, index), (hm.occupied key index).mpr ⟨value, hheld⟩, rfl⟩
  have hdisjoint : m.tree.slots.Disjoint m.free :=
    fun index h hfree => (hnode index).mp h ((hm.free index).mp hfree).2
  have hnodup : (m.tree.slots ++ m.free).Nodup :=
    List.nodup_append'.mpr ⟨hm.slots_nodup, hm.nodup, hdisjoint⟩
  rw [List.perm_ext_iff_of_nodup hnodup List.nodup_range]
  intro index
  rw [List.mem_append, hnode, hm.free, List.mem_range]
  by_cases hheld : m.held index = none
  · simp [hheld]
  · refine iff_of_true (.inl hheld) ?_
    by_contra hge
    exact hheld (by simp [held, Array.getElem?_eq_none (Nat.le_of_not_lt hge)])

theorem OrderedMap.WellFormed.slots_size [Std.TransCmp cmp] {m : OrderedMap K V cmp}
    (hm : m.WellFormed) : m.size + m.free.length = m.slots.size := by
  have h := hm.slots_perm.length_eq
  rw [List.length_append, List.length_range, SearchTree.slots, List.length_map, ← hm.size] at h
  exact h

namespace LinkedMap

variable {a a' : LinkedMap K V cmp} {m : OrderedMap K V cmp} {n : LinkedNode K V} {key : K}
  {value : V} {entry : K × V} {id : Handle} {index : Nat}

/-- The links are those of a map's tree, and all else is as in that map. -/
structure Represents (a : LinkedMap K V cmp) (m : OrderedMap K V cmp) : Prop where
  slots : a.slots.map LinkedSlot.plain = m.slots
  free : a.free = m.free
  size : a.size = m.size
  root : a.root = m.tree.root?
  wired : Wired a.shape? (m.tree.wiring none)

theorem handleAt_eq (h : a.slots.map LinkedSlot.plain = m.slots) (index : Nat) :
    a.handleAt index = m.handleAt index := by
  unfold LinkedMap.handleAt OrderedMap.handleAt
  rw [← h, Array.getElem?_map]
  cases a.slots[index]? <;> rfl

theorem represents_empty : Represents (empty : LinkedMap K V cmp) OrderedMap.empty :=
  ⟨Array.map_empty, rfl, rfl, rfl, nofun⟩

namespace Represents

theorem slots_size (h : Represents a m) : a.slots.size = m.slots.size := by
  rw [← h.slots, Array.size_map]

theorem held (h : Represents a m) (index : Nat) :
    m.held index = (a.node? index).map fun n => (n.key, n.value) := by
  unfold OrderedMap.held node?
  rw [← h.slots, Array.getElem?_map]
  cases a.slots[index]? <;> rfl

theorem resolve (h : Represents a m) (id : Handle) :
    a.resolve id = (m.entry? id).map fun _ => id.index := by
  unfold LinkedMap.resolve OrderedMap.entry?
  rw [← h.slots, Array.getElem?_map]
  cases a.slots[id.index]? with
  | none => rfl
  | some slot =>
    dsimp only [Option.map_some, LinkedSlot.plain]
    by_cases hg : slot.generation = id.generation
    · cases slot.node <;> simp [hg]
    · simp [hg]

theorem resolved_of_entry (h : Represents a m) (he : m.entry? id = some entry) :
    ∃ n, a.node? id.index = some n ∧ (n.key, n.value) = entry ∧ a.resolved id = .ok (some n) := by
  obtain ⟨_, hheld⟩ := OrderedMap.entryAt_eq_some_iff.mp he
  rw [h.held] at hheld
  obtain ⟨n, hn, heq⟩ := Option.map_eq_some_iff.mp hheld
  refine ⟨n, hn, heq, ?_⟩
  rw [resolved, h.resolve, he]
  dsimp only [Option.map_some]
  rw [node_eq_ok hn, ok_bind]

theorem resolved_of_none (h : Represents a m) (he : m.entry? id = none) :
    a.resolved id = .ok none := by
  rw [resolved, h.resolve, he]
  rfl

theorem resolved (h : Represents a m) (id : Handle) :
    ∃ n, a.resolved id = .ok n ∧ n.map (·.key) = m.key? id ∧ n.map (·.value) = m.get? id := by
  unfold OrderedMap.key? OrderedMap.get?
  cases he : m.entry? id with
  | none => exact ⟨none, h.resolved_of_none he, rfl, rfl⟩
  | some e =>
    obtain ⟨n, _, rfl, hn⟩ := h.resolved_of_entry he
    exact ⟨some n, hn, rfl, rfl⟩

theorem modify (h : Represents a m) (id : Handle) (f : V → V) :
    ∃ a', a.modify id f = .ok a' ∧ Represents a' (m.modify id f) := by
  unfold LinkedMap.modify OrderedMap.modify
  cases he : m.entry? id with
  | none =>
    rw [h.resolved_of_none he]
    exact ⟨a, rfl, h⟩
  | some e =>
    obtain ⟨n, hn, rfl, hresolved⟩ := h.resolved_of_entry he
    rw [hresolved, ok_bind]
    refine ⟨_, rfl, ?_, h.free, h.size, h.root, ?_⟩
    · rw [← h.slots]
      exact plain_setNode id.index _
    · have hshapes : (a.setNode id.index { n with value := f n.value }).shape? = a.shape? := by
        funext i
        unfold shape?
        rw [node?_setNode (lt_size_of_node hn)]
        split
        · rename_i hi
          rw [hi, hn]
          rfl
        · rfl
      change Wired (a.setNode id.index { n with value := f n.value }).shape? _
      rw [hshapes]
      exact h.wired

variable [Std.TransCmp cmp]

/-- There are steps enough for every search. -/
theorem length_le (h : Represents a m) (hm : m.WellFormed) :
    m.tree.toList.length ≤ a.slots.size := by
  have hsize := hm.slots_size
  rw [h.slots_size, ← hm.size]
  omega

theorem locate (h : Represents a m) (hm : m.WellFormed) (key : K) :
    a.locate key = .ok (landing (m.tree.descend cmp key [])) := by
  rw [LinkedMap.locate, h.root]
  exact seek_eq_ok [] h.wired (h.length_le hm)

theorem find? (h : Represents a m) (hm : m.WellFormed) (key : K) :
    a.find? key = .ok (m.find? key) := by
  rw [LinkedMap.find?, h.locate hm, ok_bind, OrderedMap.find?, find?_eq_descend m.tree []]
  cases hroot : (m.tree.descend cmp key []).2.root? with
  | none =>
    rw [landing_vacant (root?_eq_none_iff.mp hroot)]
    rfl
  | some i =>
    rw [landing_found hroot, Option.map_some, ← handleAt_eq h.slots]

omit [Std.TransCmp cmp] in
theorem allot (h : Represents a m) (hm : m.WellFormed) (n : LinkedNode K V) :
    ∃ b, a.allot n = .ok ((m.place (n.key, n.value)).1, b) ∧
      b.slots.map LinkedSlot.plain = (m.place (n.key, n.value)).2.slots ∧
      b.free = (m.place (n.key, n.value)).2.free ∧ b.size = a.size ∧ b.root = a.root ∧
      ∀ i, b.shape? i =
        if i = (m.place (n.key, n.value)).1 then some (n.key, n.toLinks) else a.shape? i := by
  unfold LinkedMap.allot OrderedMap.place
  rw [h.free]
  cases hf : m.free with
  | nil =>
    dsimp only
    rw [← h.slots_size]
    refine ⟨_, rfl, ?_, rfl, rfl, rfl, ?_⟩
    · rw [← h.slots]
      exact Array.map_push
    · intro i
      unfold shape? node?
      dsimp only
      rw [Array.getElem?_push]
      split <;> rfl
  | cons index rest =>
    have hindex : index < a.slots.size := by
      rw [h.slots_size]
      exact ((hm.free index).mp (by simp [hf])).1
    dsimp only
    rw [if_pos hindex]
    refine ⟨_, rfl, ?_, rfl, rfl, rfl, ?_⟩
    · rw [← h.slots]
      exact plain_setNode index n
    · intro i
      change (((a.setNode index n).node? i).map _) = _
      rw [node?_setNode hindex]
      split <;> rfl

/-- An entry that is new goes into a slot, and that slot to where the search ended. -/
theorem added (h : Represents a m) (hm : m.WellFormed) {frames : List (Frame K)}
    (htree : m.tree = plug frames .leaf)
    (hinserted : m.tree.insert cmp key (m.place (key, value)).1 =
      plug frames (.node .leaf key (m.place (key, value)).1 .leaf)) :
    ∃ b a', a.allot { parent := (spot? frames).map (·.1), key, value } =
        .ok ((m.place (key, value)).1, b) ∧
      b.attach (spot? frames) (m.place (key, value)).1 = .ok a' ∧
      a'.handleAt (m.place (key, value)).1 =
        (m.place (key, value)).2.handleAt (m.place (key, value)).1 ∧
      Represents ({ a' with size := a'.size + 1 } : LinkedMap K V cmp)
        ({ (m.place (key, value)).2 with
          tree := (m.place (key, value)).2.tree.insert cmp key (m.place (key, value)).1
          size := (m.place (key, value)).2.size + 1 } : OrderedMap K V cmp) := by
  have hplaced := OrderedMap.placed hm (key, value)
  obtain ⟨b, hallot, hslots, hfree, hsize, hroot, hshapes⟩ :=
    h.allot hm { parent := (spot? frames).map (·.1), key, value }
  dsimp only at hallot hslots hfree hshapes
  have hperm : m.tree.slots.Perm (outside frames) := by
    rw [htree]
    exact slots_plug frames .leaf
  have hvacant : (m.place (key, value)).1 ∉ outside frames := by
    intro hmem
    obtain ⟨x, hx, heq⟩ := List.mem_map.mp (hperm.mem_iff.mpr hmem)
    obtain ⟨v, hheld⟩ := hm.held_of_mem hx
    rw [heq, hplaced.vacant] at hheld
    cases hheld
  -- the slot is in none of the nodes around, so their wiring is as it was
  have haround : Wired a.shape? (wiringAround frames none) := by
    have hwired := h.wired
    rw [htree] at hwired
    exact (Wired.plug_iff.mp hwired).2
  have haround' : Wired b.shape? (wiringAround frames none) := by
    apply haround.congr_around
    intro i hi
    rw [hshapes, if_neg (ne_of_mem_of_not_mem hi hvacant)]
  have hindex : b.shape? (m.place (key, value)).1 = some (key, { parent := parent? frames }) := by
    rw [hshapes, if_pos rfl, spot?_fst]
  obtain ⟨a', hattach, hkept, hroot', hwired⟩ := attach_eq_ok (by rw [hroot, h.root, htree]) hindex
    haround' (hperm.nodup_iff.mp hm.slots_nodup) hvacant
  have hslots' := hkept.slots.trans hslots
  refine ⟨b, a', hallot, hattach, handleAt_eq hslots' _, hslots', hkept.free.trans hfree, ?_, ?_,
    ?_⟩
  · dsimp only
    rw [hkept.size, hsize, h.size, hplaced.size]
  · rw [hplaced.tree, hinserted]
    exact hroot'
  · rw [hplaced.tree, hinserted]
    exact hwired

theorem insert (h : Represents a m) (hm : m.WellFormed) (key : K) (value : V) :
    ∃ a', a.insert key value = .ok ((m.insert key value).1, a') ∧
      Represents a' (m.insert key value).2 := by
  have hfind : m.find? key = (m.tree.descend cmp key []).2.root?.map m.handleAt := by
    rw [OrderedMap.find?, find?_eq_descend m.tree []]
  unfold LinkedMap.insert OrderedMap.insert
  rw [h.locate hm, ok_bind, hfind]
  cases hroot : (m.tree.descend cmp key []).2.root? with
  | some i =>
    rw [landing_found hroot]
    exact ⟨a, congrArg (fun id => Except.ok (OrderedMap.Inserted.existing id, a))
      (handleAt_eq h.slots i), h⟩
  | none =>
    have hleaf := root?_eq_none_iff.mp hroot
    have htree := plug_descend cmp key m.tree []
    have hinserted : plug [] (m.tree.insert cmp key (m.place (key, value)).1) = _ :=
      insert_eq_plug [] hleaf
    rw [hleaf] at htree
    obtain ⟨b, a', hallot, hattach, hid, hrepresents⟩ := h.added hm htree.symm hinserted
    rw [landing_vacant hleaf]
    dsimp only [Option.map_none]
    rw [hallot, ok_bind]
    dsimp only
    rw [hattach, ok_bind, hid]
    exact ⟨_, rfl, hrepresents⟩

theorem place_of_entry (h : Represents a m) (hm : m.WellFormed)
    (he : m.entry? id = some entry) :
    ∃ frames left right, m.tree = plug frames (.node left entry.1 id.index right) ∧
      m.tree.erase cmp entry.1 = plug frames (hang right left) ∧
      a.locate entry.1 = .ok (.found id.index) := by
  obtain ⟨_, hheld⟩ := OrderedMap.entryAt_eq_some_iff.mp he
  have hnode : (entry.1, id.index) ∈ m.tree.toList := (hm.occupied _ _).mpr ⟨entry.2, hheld⟩
  have hfind : m.tree.find? cmp entry.1 = some id.index :=
    (SearchTree.find?_eq_some_iff hm.ordered).mpr ⟨entry.1, hnode, Std.ReflCmp.compare_self⟩
  rw [find?_eq_descend m.tree []] at hfind
  have htree := plug_descend cmp entry.1 m.tree []
  have hlocate := h.locate hm entry.1
  rw [landing_found hfind] at hlocate
  cases hplace : (m.tree.descend cmp entry.1 []).2 with
  | leaf =>
    rw [hplace] at hfind
    cases hfind
  | node left k i right =>
    have herase := erase_eq_plug [] hplace
    rw [hplace] at hfind htree
    cases hfind
    -- the key in the node is the one in the slot
    have hmem : (k, id.index) ∈ m.tree.toList := by
      change _ ∈ (plug [] m.tree).toList
      rw [← htree, toList_plug]
      simp
    obtain ⟨v, hv⟩ := (hm.occupied _ _).mp hmem
    rw [hheld] at hv
    cases hv
    exact ⟨_, left, right, htree.symm, herase, hlocate⟩

theorem erase (h : Represents a m) (hm : m.WellFormed) (id : Handle) :
    ∃ a', a.erase id = .ok ((m.erase id).1, a') ∧ Represents a' (m.erase id).2 := by
  unfold LinkedMap.erase OrderedMap.erase
  cases he : m.entry? id with
  | none =>
    rw [h.resolved_of_none he]
    exact ⟨a, rfl, h⟩
  | some entry =>
    obtain ⟨n, hn, rfl, hresolved⟩ := h.resolved_of_entry he
    obtain ⟨frames, left, right, htree, herase, hlocate⟩ := h.place_of_entry hm he
    have hslots := hm.slots_nodup
    have hwired := h.wired
    have hroot := h.root
    have hsteps := h.length_le hm
    change m.tree.slots.Nodup at hslots
    rw [htree] at hslots hwired hroot hsteps
    have hfuel : left.toList.length ≤ a.slots.size := by
      rw [toList_plug] at hsteps
      simp only [List.length_append, toList_node] at hsteps
      omega
    obtain ⟨b, hunlink, hkept, hroot', hwired'⟩ := unlink_eq_ok hroot hwired hslots hfuel hn
    rw [hresolved, ok_bind]
    dsimp only
    rw [hlocate, ok_bind, if_pos rfl, hunlink, ok_bind]
    refine ⟨b.vacate id.index, rfl, ?_, ?_, ?_, ?_, ?_⟩
    · rw [← h.slots, ← hkept.slots]
      exact plain_vacate id.index
    · exact congrArg (id.index :: ·) (hkept.free.trans h.free)
    · exact congrArg (· - 1) (hkept.size.trans h.size)
    · rw [herase]
      exact hroot'
    · rw [herase]
      obtain ⟨hleft, hright, houtside, _⟩ := nodup_plug_node hslots
      have hgone : id.index ∉ (plug frames (hang right left)).slots := by
        rw [(slots_plug frames (hang right left)).mem_iff, slots_hang, List.mem_append,
          List.mem_append]
        exact not_or.mpr ⟨not_or.mpr ⟨hleft, hright⟩, houtside⟩
      exact hwired'.congr_tree fun i hi => shape?_vacate i (ne_of_mem_of_not_mem hi hgone)

theorem first (h : Represents a m) (hm : m.WellFormed) : a.first? = .ok m.first? := by
  unfold LinkedMap.first? OrderedMap.first?
  rw [h.root]
  cases hroot : m.tree.root? with
  | none =>
    rw [root?_eq_none_iff.mp hroot]
    rfl
  | some r =>
    obtain ⟨first, hfirst, hends⟩ := first_eq_ok h.wired (h.length_le hm) hroot
    dsimp only
    rw [hends, ok_bind, hfirst, handleAt_eq h.slots]
    rfl

theorem next (h : Represents a m) (hm : m.WellFormed) (id : Handle) :
    a.next? id = .ok (m.next? id) := by
  unfold LinkedMap.next? OrderedMap.next? OrderedMap.key?
  rw [h.resolve]
  cases he : m.entry? id with
  | none => rfl
  | some entry =>
    obtain ⟨frames, left, right, htree, _, _⟩ := h.place_of_entry hm he
    have hordered := hm.ordered
    have hslots := hm.slots_nodup
    have hwired := h.wired
    have hsteps := h.length_le hm
    change m.tree.slots.Nodup at hslots
    rw [← length_slots] at hsteps
    rw [htree] at hordered hslots hwired hsteps
    dsimp only [Option.map_some]
    rw [successor_eq_ok hwired hslots hsteps, ok_bind, htree, above?_plug hordered]
    cases right.first?.or (turn? frames) with
    | none => rfl
    | some i => exact congrArg (fun x => Except.ok (some x)) (handleAt_eq h.slots i)

theorem follow (h : Represents a m) (hm : m.WellFormed) {start : Option Handle} {ids : List Handle}
    {fuel : Nat} (hwalk : OrderedMap.Walk m start ids) (hf : ids.length ≤ fuel) :
    a.follow fuel start = .ok ids := by
  induction hwalk generalizing fuel with
  | finished => cases fuel <;> rfl
  | visit _ ih =>
    obtain ⟨fuel, rfl⟩ : ∃ rest, fuel = rest + 1 :=
      ⟨fuel - 1, by rw [List.length_cons] at hf; omega⟩
    rw [LinkedMap.follow, h.next hm, ok_bind, ih (Nat.le_of_succ_le_succ hf), ok_bind]

theorem handles (h : Represents a m) (hm : m.WellFormed) : a.handles = .ok m.handles := by
  have hwalk := OrderedMap.walk_of_split hm (List.nil_append _).symm
  rw [← hm.first?_eq, ← hm.handles_eq] at hwalk
  have hlength : m.handles.length ≤ a.slots.size := by
    rw [OrderedMap.handles, List.length_map]
    exact h.length_le hm
  rw [LinkedMap.handles, h.first hm, ok_bind, h.follow hm hwalk hlength]

theorem toList (h : Represents a m) (hm : m.WellFormed) : a.toList = .ok m.toList := by
  have hentries : ∀ ids : List Handle, (∀ id ∈ ids, ∃ entry, m.entry? id = some entry) →
      (ids.mapM fun id => do
        let n ← a.node id.index
        .ok (n.key, n.value)) = (.ok (ids.filterMap m.entry?) : Except Fault (List (K × V))) := by
    intro ids hids
    induction ids with
    | nil => rfl
    | cons id ids ih =>
      obtain ⟨hfirst, hothers⟩ := List.forall_mem_cons.mp hids
      obtain ⟨entry, he⟩ := hfirst
      obtain ⟨n, hn, rfl, _⟩ := h.resolved_of_entry he
      rw [List.mapM_cons, node_eq_ok hn, ok_bind, ok_bind, ih hothers, ok_bind,
        List.filterMap_cons, he]
      rfl
  rw [LinkedMap.toList, h.handles hm, ok_bind]
  apply hentries
  intro id hid
  rw [hm.handles_eq] at hid
  obtain ⟨x, hx, rfl⟩ := List.mem_map.mp hid
  exact ⟨x.2, hm.mem_entries.mp hx⟩

theorem eraseAll (h : Represents a m) (hm : m.WellFormed) (ids : List Handle) :
    ∃ a' values m', a.eraseAll ids = .ok (values, a') ∧ Represents a' m' ∧ m'.WellFormed ∧
      ids.foldr (fun id (values, m) =>
        match OrderedMap.erase id m with
        | (some (_, value), m) => (value :: values, m)
        | (none, m) => (values, m)) (([] : List V), m) = (values, m') := by
  induction ids with
  | nil => exact ⟨a, [], m, rfl, h, hm, rfl⟩
  | cons id ids ih =>
    obtain ⟨b, values, left, hrun, hb, hleft, hfold⟩ := ih
    obtain ⟨a', herase, ha'⟩ := hb.erase hleft id
    have hwf := OrderedMap.wellFormed_erase hleft id
    rw [LinkedMap.eraseAll, hrun, ok_bind, List.foldr_cons, hfold]
    dsimp only
    rw [herase, ok_bind]
    generalize left.erase id = erased at ha' hwf ⊢
    rcases erased with ⟨_ | ⟨k, v⟩, rest⟩
    · exact ⟨a', values, rest, rfl, ha', hwf, rfl⟩
    · exact ⟨a', v :: values, rest, rfl, ha', hwf, rfl⟩

theorem drain (h : Represents a m) (hm : m.WellFormed) :
    ∃ a', a.drain = .ok (m.drain.1, a') ∧ Represents a' m.drain.2 := by
  obtain ⟨a', values, m', hrun, ha', _, hfold⟩ := h.eraseAll hm m.handles
  have hdrain : m.drain = (values, m') := hfold
  rw [LinkedMap.drain, h.handles hm, ok_bind, hrun, hdrain]
  exact ⟨a', rfl, ha'⟩

theorem answer (h : Represents a m) (hm : m.WellFormed) (query : OrderedMap.Query K V) :
    ∃ a', a.answer query = .ok ((m.answer query).1, a') ∧ Represents a' (m.answer query).2 := by
  cases query with
  | insert key value =>
    obtain ⟨a', hrun, ha'⟩ := h.insert hm key value
    exact ⟨a', by rw [LinkedMap.answer, hrun, ok_bind]; rfl, ha'⟩
  | find key => exact ⟨a, by rw [LinkedMap.answer, h.find? hm, ok_bind]; rfl, h⟩
  | get id =>
    obtain ⟨n, hrun, _, hvalue⟩ := h.resolved id
    exact ⟨a, by rw [LinkedMap.answer, hrun, ok_bind, hvalue]; rfl, h⟩
  | key id =>
    obtain ⟨n, hrun, hkey, _⟩ := h.resolved id
    exact ⟨a, by rw [LinkedMap.answer, hrun, ok_bind, hkey]; rfl, h⟩
  | update id f =>
    obtain ⟨n, hrun, _, hvalue⟩ := h.resolved id
    obtain ⟨a', hmodify, ha'⟩ := h.modify id f
    exact ⟨a', by rw [LinkedMap.answer, hrun, ok_bind, hmodify, ok_bind, hvalue]; rfl, ha'⟩
  | erase id =>
    obtain ⟨a', hrun, ha'⟩ := h.erase hm id
    exact ⟨a', by rw [LinkedMap.answer, hrun, ok_bind]; rfl, ha'⟩
  | first => exact ⟨a, by rw [LinkedMap.answer, h.first hm, ok_bind]; rfl, h⟩
  | next id => exact ⟨a, by rw [LinkedMap.answer, h.next hm, ok_bind]; rfl, h⟩
  | list => exact ⟨a, by rw [LinkedMap.answer, h.toList hm, ok_bind]; rfl, h⟩
  | drain =>
    obtain ⟨a', hrun, ha'⟩ := h.drain hm
    exact ⟨a', by rw [LinkedMap.answer, hrun, ok_bind]; rfl, ha'⟩

theorem answerAll (h : Represents a m) (hm : m.WellFormed)
    (queries : List (OrderedMap.Query K V)) :
    ∃ a', a.answerAll queries = .ok ((m.answerAll queries).1, a') ∧
      Represents a' (m.answerAll queries).2 ∧ (m.answerAll queries).2.WellFormed := by
  induction queries generalizing a m with
  | nil => exact ⟨a, rfl, h, hm⟩
  | cons query queries ih =>
    obtain ⟨b, hanswer, hb⟩ := h.answer hm query
    obtain ⟨hwf, _⟩ := OrderedMap.replies_answer hm query
    obtain ⟨a', hrun, ha', hleft⟩ := ih hb hwf
    refine ⟨a', ?_, ha', hleft⟩
    rw [LinkedMap.answerAll, hanswer, ok_bind]
    dsimp only
    rw [hrun, ok_bind]
    rfl

end Represents

end LinkedMap

end DuplexRelay
