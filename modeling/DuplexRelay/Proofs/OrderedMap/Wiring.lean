import DuplexRelay.Proofs.OrderedMap.Linked

/-! Links that make up a tree. The wiring of a tree says of each node what its links are. The wiring
of a tree around a place is that of the tree at the place and that of the frames, so that an
operation changes the links of a few nodes and leaves the others to what they were. -/

namespace DuplexRelay

namespace SearchTree

variable {K : Type} {t left right : SearchTree K} {k : K} {s : Nat} {top : Option Nat}
  {frames : List (Frame K)} {x : Nat × K × Links}

/-- Keys and links of the nodes, of which the topmost has the given parent. -/
def wiring (parent : Option Nat) : SearchTree K → List (Nat × K × Links)
  | leaf => []
  | node left k s right =>
    (s, k, ⟨parent, left.root?, right.root?⟩) :: (left.wiring (some s) ++ right.wiring (some s))

/-- The links of a frame's node if the tree in its place has its topmost node in the given slot. -/
def Frame.links (parent top : Option Nat) (f : Frame K) : Links :=
  match f.branch with
  | .left => ⟨parent, top, f.sibling.root?⟩
  | .right => ⟨parent, f.sibling.root?, top⟩

def wiringAround : List (Frame K) → Option Nat → List (Nat × K × Links)
  | [], _ => []
  | f :: frames, top =>
    (f.slot, f.key, f.links (parent? frames) top) ::
      (f.sibling.wiring (some f.slot) ++ wiringAround frames (some f.slot))

theorem root?_fill (f : Frame K) (t : SearchTree K) : (f.fill t).root? = some f.slot := by
  cases hb : f.branch <;> simp [Frame.fill, hb, root?]

theorem root?_plug (frames : List (Frame K)) (t : SearchTree K) :
    (plug frames t).root? = (frames.getLast?.map (·.slot)).or t.root? := by
  induction frames generalizing t with
  | nil => rfl
  | cons f frames ih =>
    rw [plug, ih, root?_fill]
    cases frames with
    | nil => rfl
    | cons g frames => simp [List.getLast?_cons]

theorem root?_eq_none_iff : t.root? = none ↔ t = leaf := by
  cases t with
  | leaf => exact ⟨fun _ => rfl, fun _ => rfl⟩
  | node => exact ⟨nofun, nofun⟩

theorem root?_mem_slots (h : t.root? = some s) : s ∈ t.slots := by
  cases t with
  | leaf => cases h
  | node left k i right =>
    cases h
    simp

theorem mem_slots_of_wiring {parent : Option Nat} (h : x ∈ t.wiring parent) : x.1 ∈ t.slots := by
  induction t generalizing parent with
  | leaf => cases h
  | node left k s right ihl ihr =>
    rw [wiring, List.mem_cons, List.mem_append] at h
    rw [slots_node, List.mem_append, List.mem_cons]
    rcases h with rfl | h | h
    · exact .inr (.inl rfl)
    · exact .inl (ihl h)
    · exact .inr (.inr (ihr h))

theorem mem_outside_of_wiring (h : x ∈ wiringAround frames top) : x.1 ∈ outside frames := by
  induction frames generalizing top with
  | nil => cases h
  | cons f frames ih =>
    rw [wiringAround, List.mem_cons, List.mem_append] at h
    rw [outside, List.mem_cons, List.mem_append]
    rcases h with rfl | h | h
    · exact .inl rfl
    · exact .inr (.inl (mem_slots_of_wiring h))
    · exact .inr (.inr (ih h))

theorem mem_wiring_fill {f : Frame K} {parent : Option Nat} :
    x ∈ (f.fill t).wiring parent ↔ x ∈ t.wiring (some f.slot) ∨
      x = (f.slot, f.key, f.links parent t.root?) ∨ x ∈ f.sibling.wiring (some f.slot) := by
  cases hb : f.branch with
  | left =>
    simp only [Frame.fill, Frame.links, hb, wiring, List.mem_cons, List.mem_append]
    tauto
  | right =>
    simp only [Frame.fill, Frame.links, hb, wiring, List.mem_cons, List.mem_append]
    tauto

theorem mem_wiring_plug (frames : List (Frame K)) (t : SearchTree K) :
    x ∈ (plug frames t).wiring none ↔
      x ∈ t.wiring (parent? frames) ∨ x ∈ wiringAround frames t.root? := by
  induction frames generalizing t with
  | nil => simp [plug, parent?, wiringAround]
  | cons f frames ih =>
    rw [plug, ih, mem_wiring_fill, root?_fill, wiringAround, List.mem_cons, List.mem_append]
    exact or_assoc.trans (or_congr_right or_assoc)

theorem edge?_eq_none_iff {b : Branch} : t.edge? b = none ↔ t = leaf := by
  cases t with
  | leaf => exact ⟨fun _ => rfl, fun _ => rfl⟩
  | node left k i right => cases b <;> simp [edge?]

theorem root?_hang {under : SearchTree K} (h : t ≠ leaf) : (hang under t).root? = t.root? := by
  cases t with
  | leaf => exact absurd rfl h
  | node => rfl

theorem edge?_mem_slots {b : Branch} (h : t.edge? b = some s) : s ∈ t.slots := by
  induction t with
  | leaf => cases h
  | node left k i right ihl ihr =>
    rw [slots_node, List.mem_append, List.mem_cons]
    cases b with
    | left =>
      rcases Option.or_eq_some_iff.mp h with h | ⟨_, h⟩
      · exact .inl (ihl h)
      · exact .inr (.inl (Option.some.inj h).symm)
    | right =>
      rcases Option.or_eq_some_iff.mp h with h | ⟨_, h⟩
      · exact .inr (.inr (ihr h))
      · exact .inr (.inl (Option.some.inj h).symm)

end SearchTree

open SearchTree

variable {K : Type} {shapes : Nat → Option (K × Links)} {t left right : SearchTree K} {k : K}
  {xs ys : List (Nat × K × Links)} {f : Links → Links} {index : Nat} {parent : Option Nat}

/-- The slots have the keys and links that a wiring tells. -/
def Wired (shapes : Nat → Option (K × Links)) (wiring : List (Nat × K × Links)) : Prop :=
  ∀ x ∈ wiring, shapes x.1 = some x.2

def relinked (index : Nat) (f : Links → Links) (shapes : Nat → Option (K × Links)) (i : Nat) :
    Option (K × Links) :=
  if i = index then (shapes i).map fun y => (y.1, f y.2) else shapes i

theorem relinked_self {links : Links} (h : shapes index = some (k, links)) :
    relinked index f shapes index = some (k, f links) := by
  rw [relinked, if_pos rfl, h]
  rfl

namespace Wired

theorem append (hx : Wired shapes xs) (hy : Wired shapes ys) : Wired shapes (xs ++ ys) :=
  List.forall_mem_append.mpr ⟨hx, hy⟩

theorem plug_iff {frames : List (Frame K)} :
    Wired shapes ((plug frames t).wiring none) ↔
      Wired shapes (t.wiring (parent? frames)) ∧ Wired shapes (wiringAround frames t.root?) := by
  unfold Wired
  simp only [mem_wiring_plug, or_imp, forall_and]

theorem cons {x : Nat × K × Links} (hx : shapes x.1 = some x.2) (hxs : Wired shapes xs) :
    Wired shapes (x :: xs) := List.forall_mem_cons.mpr ⟨hx, hxs⟩

theorem of_append (h : Wired shapes (xs ++ ys)) : Wired shapes xs ∧ Wired shapes ys :=
  List.forall_mem_append.mp h

theorem of_cons {x : Nat × K × Links} (h : Wired shapes (x :: xs)) :
    shapes x.1 = some x.2 ∧ Wired shapes xs := List.forall_mem_cons.mp h

theorem of_mem_slots (h : Wired shapes (t.wiring parent)) (hi : index ∈ t.slots) :
    ∃ y, shapes index = some y := by
  induction t generalizing parent with
  | leaf => simp at hi
  | node left k s right ihl ihr =>
    obtain ⟨hnode, hbelow⟩ := h.of_cons
    obtain ⟨hl, hr⟩ := hbelow.of_append
    rw [slots_node, List.mem_append, List.mem_cons] at hi
    rcases hi with hi | rfl | hi
    · exact ihl hl hi
    · exact ⟨_, hnode⟩
    · exact ihr hr hi

theorem congr_tree {shapes' : Nat → Option (K × Links)} (h : Wired shapes (t.wiring parent))
    (hsame : ∀ i ∈ t.slots, shapes' i = shapes i) : Wired shapes' (t.wiring parent) :=
  fun x hx => (hsame x.1 (mem_slots_of_wiring hx)).trans (h x hx)

theorem congr_around {shapes' : Nat → Option (K × Links)} {frames : List (Frame K)}
    {top : Option Nat} (h : Wired shapes (wiringAround frames top))
    (hsame : ∀ i ∈ outside frames, shapes' i = shapes i) :
    Wired shapes' (wiringAround frames top) :=
  fun x hx => (hsame x.1 (mem_outside_of_wiring hx)).trans (h x hx)

theorem relinked_tree (h : Wired shapes (t.wiring parent)) (hi : index ∉ t.slots) :
    Wired (relinked index f shapes) (t.wiring parent) :=
  h.congr_tree fun _ hmem => if_neg (ne_of_mem_of_not_mem hmem hi)

theorem relinked_around {frames : List (Frame K)} {top : Option Nat}
    (h : Wired shapes (wiringAround frames top)) (hi : index ∉ outside frames) :
    Wired (relinked index f shapes) (wiringAround frames top) :=
  h.congr_around fun _ hmem => if_neg (ne_of_mem_of_not_mem hmem hi)

/-- A tree comes below another parent by one link of its topmost node. -/
theorem reparent (h : Wired shapes (t.wiring parent)) (hn : t.slots.Nodup)
    (hi : t.root? = some index) (p : Option Nat) :
    Wired (relinked index ({ · with parent := p }) shapes) (t.wiring p) := by
  cases t with
  | leaf => cases hi
  | node left k i right =>
    cases hi
    obtain ⟨hnode, hbelow⟩ := h.of_cons
    obtain ⟨hleft, hright⟩ := hbelow.of_append
    rw [slots_node, List.nodup_middle, List.nodup_cons, List.mem_append, not_or] at hn
    apply cons
    · exact relinked_self hnode
    · exact (hleft.relinked_tree hn.1.1).append (hright.relinked_tree hn.1.2)

/-- A tree is hung below the end of another's right edge by two links. -/
theorem hung {p c : Nat} {q q' : Option Nat} (hl : Wired shapes (left.wiring q))
    (hr : Wired shapes (right.wiring q')) (hn : (left.slots ++ right.slots).Nodup)
    (hp : left.edge? .right = some p) (hc : right.root? = some c) :
    Wired (relinked c ({ · with parent := some p })
      (relinked p ({ · with right := some c }) shapes))
      ((hang right left).wiring q) := by
  have hcr := root?_mem_slots hc
  induction left generalizing q with
  | leaf => cases hp
  | node l k s r _ ih =>
    obtain ⟨hnode, hbelow⟩ := hl.of_cons
    obtain ⟨hleft, hright⟩ := hbelow.of_append
    rw [slots_node, List.append_assoc, List.cons_append, List.nodup_middle, List.nodup_cons,
      List.nodup_append'] at hn
    obtain ⟨hs, _, hrest, hdisjoint⟩ := hn
    simp only [List.mem_append, not_or] at hs
    have hcl : c ∉ l.slots := fun h => hdisjoint h (List.mem_append_right _ hcr)
    have hcs : s ≠ c := fun h => hs.2.2 (h ▸ hcr)
    cases hedge : r.edge? .right with
    | none =>
      -- the node itself is at the end of the edge
      have hps : s = p := by simpa [edge?, hedge] using hp
      have hleaf : r = leaf := edge?_eq_none_iff.mp hedge
      subst hps hleaf
      have hupper := hr.relinked_tree (f := ({ · with right := some c })) hs.2.2
      rw [hang, hang, wiring, hc]
      apply cons
      · rw [relinked, if_neg hcs]
        exact relinked_self hnode
      · refine append ?_ (hupper.reparent (List.nodup_append'.mp hrest).2.1 hc (some s))
        exact (hleft.relinked_tree hs.1).relinked_tree hcl
    | some last =>
      have hend : last = p := by simpa [edge?, hedge] using hp
      subst hend
      have hpr := edge?_mem_slots hedge
      have hpl : last ∉ l.slots := fun h => hdisjoint h (List.mem_append_left _ hpr)
      have hps : s ≠ last := fun h => hs.2.1 (h ▸ hpr)
      have htop : (hang right r).root? = r.root? := by
        apply root?_hang
        rintro rfl
        cases hedge
      rw [hang, wiring, htop]
      apply cons
      · rw [relinked, if_neg hcs, relinked, if_neg hps]
        exact hnode
      · exact ((hleft.relinked_tree hpl).relinked_tree hcl).append (ih hright hrest hedge)

end Wired

end DuplexRelay
