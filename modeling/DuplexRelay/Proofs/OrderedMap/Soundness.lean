import Mathlib.Data.Set.Basic
import Mathlib.Order.Bounds.Defs
import DuplexRelay.Proofs.OrderedMap.Representation

/-! What holds of the links of a map at any time. Whatever is asked of the map, no link ever leads
to an empty slot, every search ends, and the occupied slots are a tree below the root while the
others are free. -/

namespace DuplexRelay

open SearchTree

namespace SearchTree

variable {K : Type} {t : SearchTree K} {s : Nat}

/-- The slot of the node that a path of branches leads to. -/
def at? : SearchTree K → List Branch → Option Nat
  | t, [] => t.root?
  | leaf, _ :: _ => none
  | node left _ _ right, b :: path =>
    match b with
    | .left => left.at? path
    | .right => right.at? path

theorem at?_mem_slots {path : List Branch} (h : t.at? path = some s) : s ∈ t.slots := by
  induction t generalizing path with
  | leaf => cases path <;> cases h
  | node left k i right ihl ihr =>
    rw [slots_node, List.mem_append, List.mem_cons]
    cases path with
    | nil =>
      cases h
      exact .inr (.inl rfl)
    | cons b path =>
      cases b with
      | left => exact .inl (ihl h)
      | right => exact .inr (.inr (ihr h))

/-- Each slot is found along one path. -/
theorem existsUnique_path (hn : t.slots.Nodup) (hs : s ∈ t.slots) :
    ∃! path, t.at? path = some s := by
  induction t with
  | leaf => simp at hs
  | node left k i right ihl ihr =>
    rw [slots_node, List.nodup_middle, List.nodup_cons, List.mem_append, not_or,
      List.nodup_append'] at hn
    obtain ⟨⟨hil, hir⟩, hnl, hnr, hdisjoint⟩ := hn
    rw [slots_node, List.mem_append, List.mem_cons] at hs
    -- a slot in one branch is neither the topmost one nor in the other branch
    rcases hs with hs | rfl | hs
    · obtain ⟨path, hpath, honly⟩ := ihl hnl hs
      refine ⟨.left :: path, hpath, ?_⟩
      rintro (_ | ⟨_ | _, other⟩) hother
      · cases hother
        exact absurd hs hil
      · rw [honly other hother]
      · have hmem : s ∈ right.slots := at?_mem_slots hother
        exact absurd hmem (hdisjoint hs)
    · refine ⟨[], rfl, ?_⟩
      rintro (_ | ⟨_ | _, other⟩) hother
      · rfl
      · have hmem : s ∈ left.slots := at?_mem_slots hother
        exact absurd hmem hil
      · have hmem : s ∈ right.slots := at?_mem_slots hother
        exact absurd hmem hir
    · obtain ⟨path, hpath, honly⟩ := ihr hnr hs
      refine ⟨.right :: path, hpath, ?_⟩
      rintro (_ | ⟨_ | _, other⟩) hother
      · cases hother
        exact absurd hs hir
      · have hmem : s ∈ left.slots := at?_mem_slots hother
        exact absurd hs (hdisjoint hmem)
      · rw [honly other hother]

end SearchTree

variable {K V : Type} {cmp : K → K → Ordering}

namespace OrderedMap

variable {m : OrderedMap K V cmp}

theorem slots_size_erase (m : OrderedMap K V cmp) (id : Handle) :
    (m.erase id).2.slots.size = m.slots.size := by
  unfold erase
  cases m.entry? id with
  | none => rfl
  | some entry => exact Array.size_modify

theorem slots_size_drain (m : OrderedMap K V cmp) : m.drain.2.slots.size = m.slots.size := by
  unfold drain
  induction m.handles with
  | nil => rfl
  | cons id ids ih =>
    rw [List.foldr_cons]
    generalize List.foldr _ _ ids = before at ih ⊢
    obtain ⟨values, left⟩ := before
    have hsize := slots_size_erase left id
    dsimp only at ih ⊢
    generalize left.erase id = erased at hsize ⊢
    rcases erased with ⟨_ | ⟨k, v⟩, rest⟩
    · exact hsize.trans ih
    · exact hsize.trans ih

theorem WellFormed.size_le [Std.TransCmp cmp] (hm : m.WellFormed) : m.size ≤ m.slots.size := by
  have h := hm.slots_size
  omega

/-- A slot is made for an entry only if there is none that is free. -/
theorem slots_size_insert [Std.TransCmp cmp] (hm : m.WellFormed) (key : K) (value : V) :
    (m.insert key value).2.slots.size = max m.slots.size (m.insert key value).2.size := by
  have hsize := hm.slots_size
  unfold insert
  cases m.find? key with
  | some id =>
    dsimp only
    omega
  | none =>
    unfold place
    cases hf : m.free with
    | nil =>
      rw [hf, List.length_nil] at hsize
      dsimp only
      rw [Array.size_push]
      omega
    | cons index rest =>
      rw [hf, List.length_cons] at hsize
      dsimp only
      rw [Array.size_modify]
      omega

theorem slots_size_answer [Std.TransCmp cmp] (hm : m.WellFormed) (query : Query K V) :
    (m.answer query).2.slots.size = max m.slots.size (m.answer query).2.size := by
  have hsize := (replies_answer hm query).1.size_le
  have hsame (h : (m.answer query).2.slots.size = m.slots.size) :
      (m.answer query).2.slots.size = max m.slots.size (m.answer query).2.size := by
    omega
  cases query with
  | insert key value => exact slots_size_insert hm key value
  | find key => exact hsame rfl
  | get id => exact hsame rfl
  | key id => exact hsame rfl
  | update id f => exact hsame (tree_modify f m id).2.2.2
  | erase id => exact hsame (slots_size_erase m id)
  | first => exact hsame rfl
  | next id => exact hsame rfl
  | list => exact hsame rfl
  | drain => exact hsame (slots_size_drain m)

/-- The largest number of entries at any time, or the number of slots at the start if that is
larger, is the number of slots at the end. -/
theorem slots_size_answerAll [Std.TransCmp cmp] (hm : m.WellFormed) (queries : List (Query K V)) :
    m.slots.size ≤ (m.answerAll queries).2.slots.size ∧
    (∀ part, part <+: queries → (m.answerAll part).2.size ≤ (m.answerAll queries).2.slots.size) ∧
      ((m.answerAll queries).2.slots.size = m.slots.size ∨
        ∃ part, part <+: queries ∧
          (m.answerAll part).2.size = (m.answerAll queries).2.slots.size) := by
  induction queries generalizing m with
  | nil =>
    refine ⟨Nat.le_refl _, ?_, .inl rfl⟩
    intro part hpart
    rw [List.prefix_nil.mp hpart]
    exact hm.size_le
  | cons query queries ih =>
    have hfirst := slots_size_answer hm query
    have hsize := hm.size_le
    obtain ⟨hmore, hbound, hpeak⟩ := ih (replies_answer hm query).1
    have hlast :
        (m.answerAll (query :: queries)).2 = ((m.answer query).2.answerAll queries).2 := rfl
    rw [hlast]
    refine ⟨by omega, ?_, ?_⟩
    · intro part hpart
      cases part with
      | nil =>
        have hnone : (m.answerAll []).2 = m := rfl
        rw [hnone]
        omega
      | cons q part =>
        obtain ⟨rfl, hrest⟩ := List.cons_prefix_cons.mp hpart
        exact hbound part hrest
    -- the peak is reached after the first query or at some time later
    · rcases hpeak with hpeak | ⟨part, hpart, hpeak⟩
      · rcases Nat.le_total (m.answer query).2.size m.slots.size with hle | hle
        · left
          omega
        · right
          refine ⟨[query], List.cons_prefix_cons.mpr ⟨rfl, List.nil_prefix⟩, ?_⟩
          have hone : (m.answerAll [query]).2 = (m.answer query).2 := rfl
          rw [hone]
          omega
      · exact .inr ⟨query :: part, List.cons_prefix_cons.mpr ⟨rfl, hpart⟩, hpeak⟩

end OrderedMap

namespace LinkedMap

variable {a : LinkedMap K V cmp} {m : OrderedMap K V cmp}

/-- The slot that a path of branches leads to along the links. -/
def reach (a : LinkedMap K V cmp) : Option Nat → List Branch → Option Nat
  | top, [] => top
  | none, _ :: _ => none
  | some index, b :: path => a.reach ((a.node? index).bind (·.child b)) path

/-- The occupied slots are linked to a tree, and the others are free. -/
structure Sound (a : LinkedMap K V cmp) : Prop where
  root : ∀ i, a.root = some i → ∃ n, a.node? i = some n ∧ n.parent = none
  child : ∀ i n b c, a.node? i = some n → n.child b = some c →
    ∃ n', a.node? c = some n' ∧ n'.parent = some i
  parent : ∀ i n p, a.node? i = some n → n.parent = some p →
    ∃ n' b, a.node? p = some n' ∧ n'.child b = some i
  path : ∀ i n, a.node? i = some n → ∃! path, a.reach a.root path = some i
  free : ∀ i, i < a.slots.size → a.node? i = none → a.free.count i = 1
  vacant : ∀ i ∈ a.free, i < a.slots.size ∧ a.node? i = none
  size : a.size = (List.range a.slots.size).countP fun i => (a.node? i).isSome

theorem reach_eq {t : SearchTree K} {parent : Option Nat} (h : Wired a.shape? (t.wiring parent))
    (path : List Branch) : a.reach t.root? path = t.at? path := by
  induction t generalizing path parent with
  | leaf => cases path <;> rfl
  | node left k i right ihl ihr =>
    obtain ⟨hshape, hbelow⟩ := h.of_cons
    obtain ⟨hl, hr⟩ := hbelow.of_append
    obtain ⟨n, hn, _, _, hlinks⟩ := node_of_shape hshape
    cases path with
    | nil => rfl
    | cons b path =>
      rw [root?, reach, hn, Option.bind_some, hlinks]
      cases b with
      | left => exact ihl hl path
      | right => exact ihr hr path

namespace Represents

variable [Std.TransCmp cmp]

theorem place_of_node (h : Represents a m) (hm : m.WellFormed) {index : Nat} {n : LinkedNode K V}
    (hn : a.node? index = some n) :
    ∃ frames left right, m.tree = plug frames (.node left n.key index right) ∧
      n.toLinks = ⟨parent? frames, left.root?, right.root?⟩ ∧
      Wired a.shape? (left.wiring (some index)) ∧ Wired a.shape? (right.wiring (some index)) ∧
      Wired a.shape? (wiringAround frames (some index)) := by
  have he : m.entry? (m.handleAt index) = some (n.key, n.value) := by
    refine OrderedMap.entryAt_eq_some_iff.mpr ⟨rfl, ?_⟩
    rw [OrderedMap.handleAt_index, h.held, hn]
    rfl
  obtain ⟨frames, left, right, htree, _⟩ := h.place_of_entry hm he
  have hwired := h.wired
  rw [htree] at hwired
  obtain ⟨hhere, haround⟩ := Wired.plug_iff.mp hwired
  obtain ⟨hshape, hbelow⟩ := hhere.of_cons
  obtain ⟨n', hn', _, _, hlinks⟩ := node_of_shape hshape
  rw [OrderedMap.handleAt_index, hn] at hn'
  cases hn'
  exact ⟨frames, left, right, htree, hlinks, hbelow.of_append.1, hbelow.of_append.2, haround⟩

omit [Std.TransCmp cmp] in
theorem node_of_root {t : SearchTree K} {parent : Option Nat} {c : Nat}
    (h : Wired a.shape? (t.wiring parent)) (hc : t.root? = some c) :
    ∃ n, a.node? c = some n ∧ n.parent = parent := by
  cases t with
  | leaf => cases hc
  | node left k i right =>
    cases hc
    obtain ⟨n, hn, _, _, hlinks⟩ := node_of_shape h.of_cons.1
    exact ⟨n, hn, congrArg Links.parent hlinks⟩

theorem sound (h : Represents a m) (hm : m.WellFormed) : Sound a where
  root i hi := node_of_root h.wired (h.root ▸ hi)
  child i n b c hn hc := by
    obtain ⟨frames, left, right, _, hlinks, hl, hr, _⟩ := h.place_of_node hm hn
    rw [hlinks] at hc
    cases b with
    | left => exact node_of_root hl hc
    | right => exact node_of_root hr hc
  parent i n p hn hp := by
    obtain ⟨frames, left, right, _, hlinks, _, _, haround⟩ := h.place_of_node hm hn
    rw [hlinks] at hp
    cases frames with
    | nil => cases hp
    | cons f frames =>
      cases hp
      obtain ⟨n', hn', _, _, hlinks'⟩ := node_of_shape haround.of_cons.1
      refine ⟨n', f.branch, hn', ?_⟩
      rw [hlinks']
      cases hb : f.branch <;> simp [Frame.links, Links.child, hb]
  path i n hn := by
    have hslot : i ∈ m.tree.slots := by
      obtain ⟨frames, left, right, htree, _⟩ := h.place_of_node hm hn
      rw [htree, (slots_plug frames _).mem_iff]
      simp
    rw [h.root]
    simp only [reach_eq h.wired]
    exact existsUnique_path hm.slots_nodup hslot
  free i hi hnone := by
    have hfree : i ∈ m.free := by
      refine (hm.free i).mpr ⟨h.slots_size ▸ hi, ?_⟩
      rw [h.held, hnone]
      rfl
    rw [h.free]
    exact List.count_eq_one_of_mem hm.nodup hfree
  vacant i hi := by
    rw [h.free] at hi
    obtain ⟨hlt, hnone⟩ := (hm.free i).mp hi
    rw [h.held, Option.map_eq_none_iff] at hnone
    exact ⟨h.slots_size ▸ hlt, hnone⟩
  size := by
    -- each slot is in the tree, and occupied, or it is free, and vacant
    have hoccupied : ∀ i ∈ m.tree.slots, (a.node? i).isSome := by
      intro i hi
      obtain ⟨x, hx, rfl⟩ := List.mem_map.mp hi
      obtain ⟨value, hheld⟩ := hm.held_of_mem hx
      rw [h.held] at hheld
      obtain ⟨n, hn, _⟩ := Option.map_eq_some_iff.mp hheld
      rw [hn]
      rfl
    have hvacant : ∀ i ∈ m.free, ¬(a.node? i).isSome = true := by
      intro i hi
      have hnone := ((hm.free i).mp hi).2
      rw [h.held, Option.map_eq_none_iff] at hnone
      simp [hnone]
    rw [h.slots_size, ← hm.slots_perm.countP_eq, List.countP_append,
      List.countP_eq_length.mpr hoccupied, List.countP_eq_zero.mpr hvacant, length_slots, ← hm.size,
      h.size]
    rfl

end Represents

/-- Whatever a map is asked from the start, one whose tree is nothing but links answers without a
fault and as the map does. Its links are sound then, and its slots are as many as there were entries
when there were most. -/
theorem links_sound [Std.TransCmp cmp] (queries : List (OrderedMap.Query K V)) :
    ∃ a : LinkedMap K V cmp,
      empty.answerAll queries =
        .ok (((OrderedMap.empty : OrderedMap K V cmp).answerAll queries).1, a) ∧
      Represents a (OrderedMap.empty.answerAll queries).2 ∧ Sound a ∧
      IsGreatest { n | ∃ part answers, ∃ b : LinkedMap K V cmp, part <+: queries ∧
        empty.answerAll part = .ok (answers, b) ∧ b.size = n } a.slots.size := by
  have hempty : (OrderedMap.empty : OrderedMap K V cmp).WellFormed := OrderedMap.wellFormed_empty
  have hrun (part : List (OrderedMap.Query K V)) := represents_empty.answerAll hempty part
  obtain ⟨a, ha, hrepresents, hwf⟩ := hrun queries
  obtain ⟨_, hbound, hpeak⟩ := OrderedMap.slots_size_answerAll hempty queries
  refine ⟨a, ha, hrepresents, hrepresents.sound hwf, ?_, ?_⟩
  · rw [hrepresents.slots_size]
    rcases hpeak with hnone | ⟨part, hpart, hpeak⟩
    · exact ⟨[], [], empty, List.nil_prefix, rfl, hnone.symm⟩
    · obtain ⟨b, hb, hrepresents', _⟩ := hrun part
      exact ⟨part, _, b, hpart, hb, hrepresents'.size.trans hpeak⟩
  · rintro n ⟨part, answers, b, hpart, hb, rfl⟩
    obtain ⟨b', hb', hrepresents', _⟩ := hrun part
    rw [hb] at hb'
    cases hb'
    rw [hrepresents'.size, hrepresents.slots_size]
    exact hbound part hpart

/-- The root is removed while it has two children, and a node that has one child, and the slots are
used again. -/
def relinkingQueries : List (OrderedMap.Query Nat String) :=
  [.insert 5 "a", .insert 12 "b", .insert 8 "c", .insert 1 "d", .insert 24 "e", .insert 3 "f",
    .erase ⟨0, 0⟩, .insert 36 "g", .erase ⟨4, 0⟩, .next ⟨5, 0⟩, .insert 9 "h", .list]

def relinkingAnswers : List (OrderedMap.Answer Nat String) :=
  [.inserted (.added ⟨0, 0⟩), .inserted (.added ⟨1, 0⟩), .inserted (.added ⟨2, 0⟩),
    .inserted (.added ⟨3, 0⟩), .inserted (.added ⟨4, 0⟩), .inserted (.added ⟨5, 0⟩),
    .entry (some (5, "a")), .inserted (.added ⟨0, 1⟩), .entry (some (24, "e")),
    .handle (some ⟨0, 1⟩), .inserted (.added ⟨4, 1⟩),
    .entries [(1, "d"), (12, "b"), (3, "f"), (36, "g"), (8, "c"), (9, "h")]]

theorem relinkingQueries_answered :
    ((OrderedMap.empty : OrderedMap Nat String (compareOn (· % 10))).answerAll
      relinkingQueries).1 = relinkingAnswers ∧
    ((OrderedMap.empty : OrderedMap Nat String (compareOn (· % 10))).answerAll
      relinkingQueries).2.slots.size = 6 := by
  decide +kernel

theorem links_sound_relinking :
    ∃ a : LinkedMap Nat String (compareOn (· % 10)),
      empty.answerAll relinkingQueries = .ok (relinkingAnswers, a) ∧ Sound a ∧
        a.slots.size = 6 := by
  obtain ⟨a, ha, hrepresents, hsound, _⟩ :=
    @links_sound Nat String (compareOn (· % 10)) _ relinkingQueries
  obtain ⟨hanswers, hsize⟩ := relinkingQueries_answered
  rw [hanswers] at ha
  exact ⟨a, ha, hsound, hrepresents.slots_size.trans hsize⟩

end LinkedMap

end DuplexRelay
