import DuplexRelay.Proofs.OrderedMap.Wiring

/-! Searches and changes along the links of a tree. Each search comes to its end within as many
steps as there are nodes, and each change leaves the links of the changed tree. -/

namespace DuplexRelay

open SearchTree

def LinkedSlot.plain {K V : Type} (slot : LinkedSlot K V) : Slot K V where
  generation := slot.generation
  entry := slot.node.map fun n => (n.key, n.value)

namespace LinkedMap

variable {K V : Type} {cmp : K → K → Ordering} {a a' a'' : LinkedMap K V cmp} {n : LinkedNode K V}
  {t t' left right : SearchTree K} {frames : List (Frame K)} {key k : K} {index fuel : Nat}
  {parent : Option Nat} {links : Links} {f : Links → Links}

/-- Key and links of an occupied slot. -/
def shape? (a : LinkedMap K V cmp) (index : Nat) : Option (K × Links) :=
  (a.node? index).map fun n => (n.key, n.toLinks)

theorem ok_bind {α β : Type} (x : α) (f : α → Except Fault β) :
    ((.ok x : Except Fault α) >>= f) = f x := rfl

theorem node_eq_ok (h : a.node? index = some n) : a.node index = .ok n := by
  rw [node, h]

theorem node_of_shape (h : a.shape? index = some (k, links)) :
    ∃ n, a.node? index = some n ∧ a.node index = .ok n ∧ n.key = k ∧ n.toLinks = links := by
  obtain ⟨n, hn, heq⟩ := Option.map_eq_some_iff.mp h
  obtain ⟨hkey, hlinks⟩ := Prod.mk.inj heq
  exact ⟨n, hn, node_eq_ok hn, hkey, hlinks⟩

/-- The entries and what else does not lie in the links are the same. -/
structure SameEntries (a a' : LinkedMap K V cmp) : Prop where
  slots : a'.slots.map LinkedSlot.plain = a.slots.map LinkedSlot.plain
  free : a'.free = a.free
  size : a'.size = a.size

theorem SameEntries.trans (h : SameEntries a a') (h' : SameEntries a' a'') : SameEntries a a'' :=
  ⟨h'.slots.trans h.slots, h'.free.trans h.free, h'.size.trans h.size⟩

section Changes

theorem lt_size_of_node (h : a.node? index = some n) : index < a.slots.size := by
  by_contra hge
  simp [node?, Array.getElem?_eq_none (Nat.le_of_not_lt hge)] at h

theorem node?_setNode (h : index < a.slots.size) (m : LinkedNode K V) (i : Nat) :
    (a.setNode index m).node? i = if i = index then some m else a.node? i := by
  unfold setNode node?
  simp only [Array.getElem?_modify]
  by_cases hi : i = index
  · subst hi
    simp [Array.getElem?_eq_getElem h]
  · simp [hi, Ne.symm hi]

theorem map_modify {α β : Type} {xs : Array α} {index : Nat} (f : α → α) (g : α → β) (f' : β → β)
    (h : ∀ x, g (f x) = f' (g x)) : (xs.modify index f).map g = (xs.map g).modify index f' := by
  apply Array.ext_getElem?
  intro i
  simp only [Array.getElem?_map, Array.getElem?_modify]
  split
  · cases xs[i]? with
    | none => rfl
    | some x => exact congrArg some (h x)
  · rfl

theorem plain_setNode (index : Nat) (n : LinkedNode K V) :
    (a.setNode index n).slots.map LinkedSlot.plain =
      (a.slots.map LinkedSlot.plain).modify index ({ · with entry := some (n.key, n.value) }) := by
  exact map_modify ({ · with node := some n }) LinkedSlot.plain
    ({ · with entry := some (n.key, n.value) }) fun _ => rfl

theorem plain_relinked (h : a.node? index = some n) (links : Links) :
    (a.setNode index { n with toLinks := links }).slots.map LinkedSlot.plain =
      a.slots.map LinkedSlot.plain := by
  rw [plain_setNode]
  apply Array.ext_getElem?
  intro i
  rw [Array.getElem?_modify]
  split
  · rename_i hi
    subst hi
    unfold node? at h
    cases hslot : a.slots[index]? with
    | none => simp [hslot]
    | some slot =>
      rw [hslot, Option.bind_some] at h
      simp [LinkedSlot.plain, hslot, h]
  · rfl

theorem plain_vacate (index : Nat) :
    (a.vacate index).slots.map LinkedSlot.plain = (a.slots.map LinkedSlot.plain).modify index
      fun slot => { generation := slot.generation + 1, entry := none } := by
  apply map_modify
    (fun slot : LinkedSlot K V => { generation := slot.generation + 1, node := none })
  exact fun _ => rfl

theorem shape?_vacate (i : Nat) (hi : i ≠ index) : (a.vacate index).shape? i = a.shape? i := by
  unfold shape? node? vacate
  rw [Array.getElem?_modify, if_neg (Ne.symm hi)]

theorem relink_eq_ok (h : a.shape? index = some (k, links)) (f : Links → Links) :
    ∃ a', a.relink index f = .ok a' ∧ SameEntries a a' ∧ a'.root = a.root ∧
      a'.shape? = relinked index f a.shape? := by
  obtain ⟨n, hn, hnode, _⟩ := node_of_shape h
  refine ⟨a.setNode index { n with toLinks := f n.toLinks }, by rw [relink, hnode, ok_bind],
    ⟨plain_relinked hn _, rfl, rfl⟩, rfl, ?_⟩
  funext i
  unfold relinked shape?
  rw [node?_setNode (lt_size_of_node hn)]
  split
  · rename_i hi
    rw [hi, hn]
    rfl
  · rfl

end Changes

section Searches

/-- The slot above a place and the branch that the place is in. -/
def spot? (frames : List (Frame K)) : Option (Nat × Branch) :=
  frames.head?.map fun f => (f.slot, f.branch)

theorem spot?_fst (frames : List (Frame K)) : (spot? frames).map (·.1) = parent? frames := by
  cases frames <;> rfl

/-- How the search for a key ends that ends at a place. -/
def landing : List (Frame K) × SearchTree K → Landing
  | (frames, .leaf) => .vacant (spot? frames)
  | (_, .node _ _ slot _) => .found slot

theorem landing_found {place : List (Frame K) × SearchTree K} (h : place.2.root? = some index) :
    landing place = .found index := by
  obtain ⟨frames, t⟩ := place
  cases t with
  | leaf => cases h
  | node =>
    cases h
    rfl

theorem landing_vacant {place : List (Frame K) × SearchTree K} (h : place.2 = .leaf) :
    landing place = .vacant (spot? place.1) := by
  obtain ⟨frames, t⟩ := place
  cases h
  rfl

theorem seek_eq_ok (frames : List (Frame K)) (h : Wired a.shape? (t.wiring parent))
    (hf : t.toList.length ≤ fuel) :
    a.seek key fuel (spot? frames) t.root? = .ok (landing (t.descend cmp key frames)) := by
  induction t generalizing frames fuel parent with
  | leaf => cases fuel <;> rfl
  | node left k s right ihl ihr =>
    rw [toList_node, List.length_append, List.length_cons] at hf
    obtain ⟨hshape, hbelow⟩ := h.of_cons
    obtain ⟨hl, hr⟩ := hbelow.of_append
    obtain ⟨n, _, hnode, hkey, hlinks⟩ := node_of_shape hshape
    obtain ⟨fuel, rfl⟩ : ∃ rest, fuel = rest + 1 := ⟨fuel - 1, by omega⟩
    rw [root?, seek, hnode, ok_bind, hkey, descend, hlinks]
    cases cmp key k with
    | lt =>
      have hlength : left.toList.length ≤ fuel := by omega
      exact ihl (⟨.left, k, s, right⟩ :: frames) hl hlength
    | gt =>
      have hlength : right.toList.length ≤ fuel := by omega
      exact ihr (⟨.right, k, s, left⟩ :: frames) hr hlength
    | eq => rfl

theorem outermost_eq_ok {b : Branch} {last : Nat} (h : Wired a.shape? (t.wiring parent))
    (hf : t.toList.length ≤ fuel) (hi : t.root? = some index) (hlast : t.edge? b = some last) :
    a.outermost b fuel index = .ok last := by
  -- each step goes to a branch, which has fewer nodes than the tree
  induction fuel generalizing t index parent with
  | zero =>
    cases t with
    | leaf => cases hi
    | node => simp at hf
  | succ fuel ih =>
    cases t with
    | leaf => cases hi
    | node left k s right =>
      cases hi
      rw [toList_node, List.length_append, List.length_cons] at hf
      obtain ⟨hshape, hbelow⟩ := h.of_cons
      obtain ⟨hl, hr⟩ := hbelow.of_append
      obtain ⟨n, _, hnode, _, hlinks⟩ := node_of_shape hshape
      obtain ⟨next, hchild, hnext, hlength, hedge⟩ : ∃ next : SearchTree K,
          n.child b = next.root? ∧ Wired a.shape? (next.wiring (some index)) ∧
            next.toList.length ≤ fuel ∧ (next.edge? b).or (some index) = some last := by
        rw [hlinks]
        cases b with
        | left => exact ⟨left, rfl, hl, by omega, hlast⟩
        | right => exact ⟨right, rfl, hr, by omega, hlast⟩
      rw [outermost, hnode, ok_bind, hchild]
      cases hend : next.edge? b with
      | none =>
        have hleaf : next = .leaf := edge?_eq_none_iff.mp hend
        rw [hleaf] at hedge ⊢
        exact congrArg _ (Option.some.inj hedge)
      | some i =>
        have hi : i = last := by simpa [hend] using hedge
        cases next with
        | leaf => cases hend
        | node l x c r => exact ih hnext hlength rfl (hi ▸ hend)

theorem first_eq_ok (h : Wired a.shape? (t.wiring parent)) (hf : t.toList.length ≤ fuel)
    (hi : t.root? = some index) :
    ∃ first, t.first? = some first ∧ a.outermost .left fuel index = .ok first := by
  cases hfirst : t.edge? .left with
  | none =>
    rw [edge?_eq_none_iff.mp hfirst] at hi
    cases hi
  | some first => exact ⟨first, edge?_left t ▸ hfirst, outermost_eq_ok h hf hi hfirst⟩

theorem climb_eq_ok (h : Wired a.shape? (wiringAround frames (some index)))
    (hn : (index :: outside frames).Nodup) (hf : frames.length ≤ fuel) :
    a.climb fuel index (parent? frames) = .ok (turn? frames) := by
  induction frames generalizing index fuel with
  | nil => cases fuel <;> rfl
  | cons f frames ih =>
    rw [List.length_cons] at hf
    obtain ⟨hshape, hrest⟩ := h.of_cons
    obtain ⟨hsibling, haround⟩ := hrest.of_append
    obtain ⟨n, _, hnode, _, hlinks⟩ := node_of_shape hshape
    obtain ⟨fuel, rfl⟩ : ∃ rest, fuel = rest + 1 := ⟨fuel - 1, by omega⟩
    obtain ⟨hindex, hn⟩ := List.nodup_cons.mp hn
    rw [outside, List.mem_cons, List.mem_append, not_or, not_or] at hindex
    obtain ⟨_, houtside, hn⟩ := nodup_outside hn
    change (a.node f.slot >>= _) = _
    rw [hnode, ok_bind, hlinks]
    cases hb : f.branch with
    | left => simp [Frame.links, hb, turn?]
    | right =>
      -- a slot occurs once, so a right branch is not taken for the left one
      have hother : f.sibling.root? ≠ some index := fun h => hindex.2.1 (root?_mem_slots h)
      have hnext := ih haround (List.nodup_cons.mpr ⟨houtside, hn⟩) (Nat.le_of_succ_le_succ hf)
      simp only [Frame.links, hb]
      rw [if_neg hother, hnext]
      simp [turn?, hb]

/-- After a node comes the first one of its right branch, or one further up. -/
theorem successor_eq_ok (hw : Wired a.shape? ((plug frames (.node left k index right)).wiring none))
    (hn : (plug frames (.node left k index right)).slots.Nodup)
    (hf : (plug frames (.node left k index right)).slots.length ≤ a.slots.size) :
    a.successor index = .ok (right.first?.or (turn? frames)) := by
  obtain ⟨hhere, haround⟩ := Wired.plug_iff.mp hw
  obtain ⟨hshape, hbelow⟩ := hhere.of_cons
  obtain ⟨n, _, hnode, _, hlinks⟩ := node_of_shape hshape
  have hlength := (slots_plug frames (.node left k index right)).length_eq
  rw [List.length_append, slots_node, List.length_append, List.length_cons, length_slots right]
    at hlength
  rw [successor, hnode, ok_bind, hlinks]
  dsimp only
  cases hright : right.root? with
  | some r =>
    have hsteps : right.toList.length ≤ a.slots.size := by omega
    obtain ⟨first, hfirst, hends⟩ := first_eq_ok hbelow.of_append.2 hsteps hright
    dsimp only
    rw [hends, ok_bind, hfirst, Option.some_or]
  | none =>
    obtain ⟨_, _, hindex, hslots⟩ := nodup_plug_node hn
    have hinner : (index :: outside frames).Nodup :=
      List.nodup_cons.mpr ⟨hindex, (List.nodup_append'.mp hslots).2.1⟩
    have hframes := length_le_outside frames
    rw [root?_eq_none_iff.mp hright]
    exact climb_eq_ok haround hinner (by omega)

end Searches

section Removal

theorem replaceChild_eq_ok (t : SearchTree K) (hroot : a.root = (plug frames t').root?)
    (haround : Wired a.shape? (wiringAround frames (some index)))
    (hn : (outside frames).Nodup) (hi : index ∉ outside frames) :
    ∃ a', a.replaceChild (parent? frames) index t.root? = .ok a' ∧ SameEntries a a' ∧
      a'.root = (plug frames t).root? ∧ Wired a'.shape? (wiringAround frames t.root?) ∧
      ∀ (u : SearchTree K) (p : Option Nat), (∀ s ∈ u.slots, s ∉ outside frames) →
        Wired a.shape? (u.wiring p) → Wired a'.shape? (u.wiring p) := by
  cases frames with
  | nil => exact ⟨{ a with root := t.root? }, rfl, ⟨rfl, rfl, rfl⟩, rfl, nofun, fun _ _ _ h => h⟩
  | cons f frames =>
    obtain ⟨hsibling, houtside, _⟩ := nodup_outside hn
    rw [outside, List.mem_cons, List.mem_append, not_or, not_or] at hi
    obtain ⟨hshape, hrest⟩ := haround.of_cons
    obtain ⟨hother, haround⟩ := hrest.of_append
    obtain ⟨a', hrelink, hkept, hroot', hshapes⟩ := relink_eq_ok hshape fun x =>
      if x.left = some index then { x with left := t.root? } else { x with right := t.root? }
    refine ⟨a', hrelink, hkept, ?_, ?_, ?_⟩
    · rw [hroot', hroot, root?_plug, root?_plug]
      simp [List.getLast?_cons]
    · rw [hshapes]
      refine .cons ?_ ((hother.relinked_tree hsibling).append (haround.relinked_around houtside))
      have hlink : (if (f.links (parent? frames) (some index)).left = some index then
          { f.links (parent? frames) (some index) with left := t.root? }
          else { f.links (parent? frames) (some index) with right := t.root? }) =
          f.links (parent? frames) t.root? := by
        cases hb : f.branch with
        | left => simp [Frame.links, hb]
        | right =>
          have hne : f.sibling.root? ≠ some index := fun h => hi.2.1 (root?_mem_slots h)
          simp [Frame.links, hb, hne]
      exact (relinked_self hshape).trans (congrArg (fun x => some (f.key, x)) hlink)
    · intro u p hu hw
      rw [hshapes]
      apply hw.relinked_tree
      intro hmem
      exact hu f.slot hmem (List.mem_cons_self)

theorem attach_eq_ok (hroot : a.root = (plug frames .leaf).root?)
    (hindex : a.shape? index = some (key, { parent := parent? frames }))
    (haround : Wired a.shape? (wiringAround frames none)) (hn : (outside frames).Nodup)
    (hi : index ∉ outside frames) :
    ∃ a', a.attach (spot? frames) index = .ok a' ∧ SameEntries a a' ∧
      a'.root = (plug frames (.node .leaf key index .leaf)).root? ∧
      Wired a'.shape? ((plug frames (.node .leaf key index .leaf)).wiring none) := by
  cases frames with
  | nil =>
    refine ⟨{ a with root := some index }, rfl, ⟨rfl, rfl, rfl⟩, rfl, ?_⟩
    exact .cons hindex nofun
  | cons f frames =>
    obtain ⟨hsibling, houtside, _⟩ := nodup_outside hn
    rw [outside, List.mem_cons, not_or] at hi
    obtain ⟨hshape, hrest⟩ := haround.of_cons
    obtain ⟨hother, haround⟩ := hrest.of_append
    obtain ⟨a', hrelink, hkept, hroot', hshapes⟩ :=
      relink_eq_ok hshape (·.setChild f.branch (some index))
    refine ⟨a', hrelink, hkept, ?_, ?_⟩
    · rw [hroot', hroot, root?_plug, root?_plug]
      simp [List.getLast?_cons]
    · have hlink : (f.links (parent? frames) none).setChild f.branch (some index) =
          f.links (parent? frames) (some index) := by
        cases hb : f.branch <;> simp [Frame.links, Links.setChild, hb]
      rw [hshapes, Wired.plug_iff]
      refine ⟨.cons ?_ nofun, .cons ?_
        ((hother.relinked_tree hsibling).append (haround.relinked_around houtside))⟩
      · rw [relinked, if_neg hi.1]
        exact hindex
      · exact (relinked_self hshape).trans (congrArg (fun x => some (f.key, x)) hlink)

/-- A tree comes into the place of the one that has a slot on top. -/
theorem replaceInParent_eq_ok {q : Option Nat} (hroot : a.root = (plug frames t').root?)
    (hindex : a.shape? index = some (k, links))
    (hparent : links.parent = parent? frames)
    (haround : Wired a.shape? (wiringAround frames (some index)))
    (ht : Wired a.shape? (t.wiring q)) (hn : (t.slots ++ outside frames).Nodup)
    (hi : index ∉ outside frames) :
    ∃ a', a.replaceInParent index t.root? = .ok a' ∧ SameEntries a a' ∧
      a'.root = (plug frames t).root? ∧ Wired a'.shape? ((plug frames t).wiring none) := by
  obtain ⟨hnt, hno, hdisjoint⟩ := List.nodup_append'.mp hn
  obtain ⟨n, _, hnode, _, hlinks⟩ := node_of_shape hindex
  obtain ⟨b, hreplace, hkept, hroot', haround', hothers⟩ :=
    replaceChild_eq_ok t hroot haround hno hi
  have ht' := hothers t q (fun s hs h => hdisjoint hs h) ht
  rw [replaceInParent, hnode, ok_bind, hlinks, hparent, hreplace, ok_bind]
  cases htree : t.root? with
  | none =>
    refine ⟨b, rfl, hkept, hroot', Wired.plug_iff.mpr ⟨?_, haround'⟩⟩
    rw [root?_eq_none_iff.mp htree]
    exact nofun
  | some c =>
    have hc := root?_mem_slots htree
    obtain ⟨x, hx⟩ := ht'.of_mem_slots hc
    obtain ⟨a', hrelink, hkept', hroot'', hshapes⟩ :=
      relink_eq_ok hx ({ · with parent := parent? frames })
    refine ⟨a', hrelink, hkept.trans hkept', hroot''.trans hroot', ?_⟩
    rw [hshapes, Wired.plug_iff]
    exact ⟨ht'.reparent hnt htree _, haround'.relinked_around fun h => hdisjoint hc h⟩

theorem hang_eq_ok {q q' : Option Nat} {l r : Nat} (hl : Wired a.shape? (left.wiring q))
    (hr : Wired a.shape? (right.wiring q')) (hn : (left.slots ++ right.slots).Nodup)
    (hf : left.toList.length ≤ fuel) (hleft : left.root? = some l) (hright : right.root? = some r) :
    ∃ p b a', a.outermost .right fuel l = .ok p ∧
      a.relink p ({ · with right := some r }) = .ok b ∧
      b.relink r ({ · with parent := some p }) = .ok a' ∧ SameEntries a a' ∧ a'.root = a.root ∧
      Wired a'.shape? ((hang right left).wiring q) ∧
      ∀ i, i ∉ left.slots → i ∉ right.slots → a'.shape? i = a.shape? i := by
  obtain ⟨p, hp⟩ : ∃ p, left.edge? .right = some p := by
    cases hedge : left.edge? .right with
    | none =>
      rw [edge?_eq_none_iff.mp hedge] at hleft
      cases hleft
    | some p => exact ⟨p, rfl⟩
  have hpl := edge?_mem_slots hp
  have hrr := root?_mem_slots hright
  have hne : r ≠ p := fun h => (List.nodup_append'.mp hn).2.2 hpl (h ▸ hrr)
  obtain ⟨x, hx⟩ := hl.of_mem_slots hpl
  obtain ⟨y, hy⟩ := hr.of_mem_slots hrr
  obtain ⟨b, hrelink, hkept, hroot, hshapes⟩ := relink_eq_ok hx ({ · with right := some r })
  have hyb : b.shape? r = some y := by
    rw [hshapes, relinked, if_neg hne, hy]
  obtain ⟨a', hrelink', hkept', hroot', hshapes'⟩ := relink_eq_ok hyb ({ · with parent := some p })
  rw [hshapes] at hshapes'
  refine ⟨p, b, a', outermost_eq_ok hl hf hleft hp, hrelink, hrelink', hkept.trans hkept',
    hroot'.trans hroot, ?_, ?_⟩
  · rw [hshapes']
    exact hl.hung hr hn hp hright
  · intro i hil hir
    rw [hshapes', relinked, if_neg (ne_of_mem_of_not_mem hrr hir).symm, relinked,
      if_neg (ne_of_mem_of_not_mem hpl hil).symm]

theorem unlink_eq_ok (hroot : a.root = (plug frames (.node left k index right)).root?)
    (hw : Wired a.shape? ((plug frames (.node left k index right)).wiring none))
    (hn : (plug frames (.node left k index right)).slots.Nodup)
    (hf : left.toList.length ≤ a.slots.size) (hnode : a.node? index = some n) :
    ∃ a', a.unlink index n = .ok a' ∧ SameEntries a a' ∧
      a'.root = (plug frames (hang right left)).root? ∧
      Wired a'.shape? ((plug frames (hang right left)).wiring none) := by
  obtain ⟨htree, haround⟩ := Wired.plug_iff.mp hw
  obtain ⟨hshape, hbelow⟩ := htree.of_cons
  obtain ⟨hl, hr⟩ := hbelow.of_append
  have hlinks : n.toLinks = ⟨parent? frames, left.root?, right.root?⟩ := by
    obtain ⟨m, hm, _, _, hlinks⟩ := node_of_shape hshape
    rw [hnode] at hm
    cases hm
    exact hlinks
  obtain ⟨hil, hir, hio, hslots⟩ := nodup_plug_node hn
  rw [unlink, hlinks]
  cases left with
  | leaf =>
    cases right <;> exact replaceInParent_eq_ok hroot hshape rfl haround hr hslots hio
  | node ll lk l lr =>
    cases right with
    | leaf =>
      rw [slots_leaf, List.append_nil] at hslots
      rw [hang_leaf]
      exact replaceInParent_eq_ok hroot hshape rfl haround hl hslots hio
    | node rl rk r rr =>
      obtain ⟨hchildren, _, hdisjoint⟩ := List.nodup_append'.mp hslots
      obtain ⟨p, b, c, hp, hrelink, hrelink', hkept, hroot', hhung, hsame⟩ :=
        hang_eq_ok hl hr hchildren hf rfl rfl
      -- the frames lie outside of both children, and so does the node itself
      have haround' : Wired c.shape? (wiringAround frames (some index)) := by
        refine haround.congr_around fun i hi => hsame i ?_ ?_
        · exact fun h => hdisjoint (List.mem_append_left _ h) hi
        · exact fun h => hdisjoint (List.mem_append_right _ h) hi
      rw [← slots_hang] at hslots
      obtain ⟨a', hreplaced, hkept', hroot'', hwired⟩ := replaceInParent_eq_ok
        (hroot'.trans hroot) ((hsame index hil hir).trans hshape) rfl haround' hhung hslots hio
      refine ⟨a', ?_, hkept.trans hkept', hroot'', hwired⟩
      dsimp only [root?]
      rw [hp, ok_bind, hrelink, ok_bind, hrelink', ok_bind]
      exact hreplaced

end Removal

end LinkedMap

end DuplexRelay
