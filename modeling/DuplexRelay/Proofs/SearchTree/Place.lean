import Mathlib.Data.List.Nodup
import DuplexRelay.Proofs.SearchTree

/-! A place in a search tree, and the frames around it from the innermost to the outermost. A
descent for a key ends at a place. What an operation changes of the tree is what it puts there. -/

namespace DuplexRelay.SearchTree

inductive Branch where
  | left
  | right
  deriving DecidableEq

/-- A node above a place: the branch that the place is in, and the tree in the other branch. -/
structure Frame (K : Type) where
  branch : Branch
  key : K
  slot : Nat
  sibling : SearchTree K

variable {K : Type} {cmp : K → K → Ordering} {t left right : SearchTree K} {key k : K}
  {s slot : Nat} {frame : Frame K} {frames : List (Frame K)}

/-- The slot of the topmost node. -/
def root? : SearchTree K → Option Nat
  | leaf => none
  | node _ _ slot _ => some slot

def slots (t : SearchTree K) : List Nat := t.toList.map (·.2)

/-- The slot at the far end of the left or of the right edge. -/
def edge? (b : Branch) : SearchTree K → Option Nat
  | leaf => none
  | node left _ slot right =>
    match b with
    | .left => (left.edge? b).or (some slot)
    | .right => (right.edge? b).or (some slot)

/-- The node of a frame with a tree at the place. -/
def Frame.fill (t : SearchTree K) (f : Frame K) : SearchTree K :=
  match f.branch with
  | .left => node t f.key f.slot f.sibling
  | .right => node f.sibling f.key f.slot t

def plug : List (Frame K) → SearchTree K → SearchTree K
  | [], t => t
  | f :: frames, t => plug frames (f.fill t)

def parent? (frames : List (Frame K)) : Option Nat := frames.head?.map (·.slot)

/-- The slot of the innermost node that has the place in its left branch. -/
def turn? (frames : List (Frame K)) : Option Nat :=
  (frames.find? (·.branch = .left)).map (·.slot)

/-- All slots that are not at the place. -/
def outside : List (Frame K) → List Nat
  | [] => []
  | f :: frames => f.slot :: (f.sibling.slots ++ outside frames)

def before : List (Frame K) → List (K × Nat)
  | [] => []
  | f :: frames =>
    match f.branch with
    | .left => before frames
    | .right => before frames ++ (f.sibling.toList ++ [(f.key, f.slot)])

def after : List (Frame K) → List (K × Nat)
  | [] => []
  | f :: frames =>
    match f.branch with
    | .left => (f.key, f.slot) :: (f.sibling.toList ++ after frames)
    | .right => after frames

/-- The place at which the search for a key ends, and the tree there. It starts at `t` within
`frames`. -/
def descend (cmp : K → K → Ordering) (key : K) :
    SearchTree K → List (Frame K) → List (Frame K) × SearchTree K
  | leaf, frames => (frames, leaf)
  | node left k s right, frames =>
    match cmp key k with
    | .lt => left.descend cmp key (⟨.left, k, s, right⟩ :: frames)
    | .gt => right.descend cmp key (⟨.right, k, s, left⟩ :: frames)
    | .eq => (frames, node left k s right)

@[simp] theorem slots_leaf : (leaf : SearchTree K).slots = [] := rfl

@[simp] theorem slots_node : (node left k s right).slots = left.slots ++ s :: right.slots := by
  simp [slots]

theorem slots_hang (under t : SearchTree K) : (hang under t).slots = t.slots ++ under.slots := by
  rw [slots, toList_hang, List.map_append]
  rfl

theorem toList_plug (frames : List (Frame K)) (t : SearchTree K) :
    (plug frames t).toList = before frames ++ (t.toList ++ after frames) := by
  induction frames generalizing t with
  | nil => simp [plug, before, after]
  | cons f frames ih =>
    rw [plug, ih]
    cases hb : f.branch <;> simp [Frame.fill, before, after, hb]

/-- The slots of a tree are those at a place and those around it. -/
theorem slots_plug (frames : List (Frame K)) (t : SearchTree K) :
    (plug frames t).slots.Perm (t.slots ++ outside frames) := by
  induction frames generalizing t with
  | nil => simp [plug, outside]
  | cons f frames ih =>
    have hfilled : (f.fill t).slots.Perm (t.slots ++ f.slot :: f.sibling.slots) := by
      cases hb : f.branch with
      | left => simp [Frame.fill, hb]
      | right =>
        rw [Frame.fill, hb, slots_node]
        refine List.perm_middle.trans ?_
        exact (List.perm_append_comm.cons f.slot).trans List.perm_middle.symm
    have hall := (ih (f.fill t)).trans (hfilled.append_right (outside frames))
    rw [List.append_assoc] at hall
    exact hall

theorem length_slots (t : SearchTree K) : t.slots.length = t.toList.length := List.length_map _

theorem nodup_outside (hn : (outside (frame :: frames)).Nodup) :
    frame.slot ∉ frame.sibling.slots ∧ frame.slot ∉ outside frames ∧ (outside frames).Nodup := by
  rw [outside, List.nodup_cons, List.nodup_append', List.mem_append, not_or] at hn
  exact ⟨hn.1.1, hn.1.2, hn.2.2.1⟩

theorem nodup_plug_node (h : (plug frames (node left k s right)).slots.Nodup) :
    s ∉ left.slots ∧ s ∉ right.slots ∧ s ∉ outside frames ∧
      (left.slots ++ right.slots ++ outside frames).Nodup := by
  have hall := (slots_plug frames (node left k s right)).nodup_iff.mp h
  rw [slots_node, List.append_assoc, List.cons_append, List.nodup_middle, List.nodup_cons,
    List.mem_append, List.mem_append, not_or, not_or, ← List.append_assoc] at hall
  exact ⟨hall.1.1, hall.1.2.1, hall.1.2.2, hall.2⟩

theorem length_le_outside (frames : List (Frame K)) : frames.length ≤ (outside frames).length := by
  induction frames with
  | nil => exact Nat.le_refl 0
  | cons f frames ih =>
    simp only [outside, List.length_cons, List.length_append]
    omega

theorem head?_after (frames : List (Frame K)) :
    (after frames).head?.map (·.2) = turn? frames := by
  induction frames with
  | nil => rfl
  | cons f frames ih =>
    cases hb : f.branch with
    | left => simp [after, turn?, hb]
    | right =>
      simp only [after, hb, ih]
      simp [turn?, hb]

/-- The node above a key in the order is the first of the right branch, or else the node at which
the path to the key turned left last. -/
theorem above?_plug [Std.TransCmp cmp] (h : Ordered cmp (plug frames (node left k s right))) :
    (plug frames (node left k s right)).above? cmp k = right.first?.or (turn? frames) := by
  have hlist : (plug frames (node left k s right)).toList =
      (before frames ++ left.toList) ++ (k, s) :: (right.toList ++ after frames) := by
    simp [toList_plug]
  have hordered := h
  unfold Ordered at hordered
  rw [hlist, List.pairwise_append, List.pairwise_cons] at hordered
  obtain ⟨_, ⟨habove, _⟩, hbelow⟩ := hordered
  have hnone : (before frames ++ left.toList).find? (cmp k ·.1 = .lt) = none := by
    rw [List.find?_eq_none]
    intro x hx
    simp [Std.OrientedCmp.gt_of_lt (hbelow x hx (k, s) List.mem_cons_self)]
  have hall : (right.toList ++ after frames).filter (cmp k ·.1 = .lt) =
      right.toList ++ after frames := by
    rw [List.filter_eq_self]
    intro x hx
    simpa using habove x hx
  rw [above?_eq h, hlist, List.find?_append, hnone, Option.none_or,
    List.find?_cons_of_neg (by simp [Std.ReflCmp.compare_self]), ← List.head?_filter, hall,
    List.head?_append, first?_eq, ← head?_after]
  cases right.toList.head? <;> rfl

theorem edge?_left (t : SearchTree K) : t.edge? .left = t.first? := by
  rw [first?_eq]
  induction t with
  | leaf => rfl
  | node left k s right ih _ =>
    rw [edge?, ih, toList_node]
    cases left.toList <;> rfl

@[simp] theorem hang_leaf (t : SearchTree K) : hang leaf t = t := by
  induction t with
  | leaf => rfl
  | node left k s right _ ih => rw [hang, ih]

section Descent

theorem plug_descend (cmp : K → K → Ordering) (key : K) (t : SearchTree K)
    (frames : List (Frame K)) :
    plug (t.descend cmp key frames).1 (t.descend cmp key frames).2 = plug frames t := by
  induction t generalizing frames with
  | leaf => rfl
  | node left k s right ihl ihr =>
    unfold descend
    cases cmp key k with
    | lt => exact ihl _
    | gt => exact ihr _
    | eq => rfl

theorem find?_eq_descend (t : SearchTree K) (frames : List (Frame K)) :
    t.find? cmp key = (t.descend cmp key frames).2.root? := by
  induction t generalizing frames with
  | leaf => rfl
  | node left k s right ihl ihr =>
    unfold find? descend
    cases cmp key k with
    | lt => exact ihl _
    | gt => exact ihr _
    | eq => rfl

theorem insert_eq_plug (frames : List (Frame K)) (h : (t.descend cmp key frames).2 = leaf) :
    plug frames (t.insert cmp key slot) =
      plug (t.descend cmp key frames).1 (node leaf key slot leaf) := by
  induction t generalizing frames with
  | leaf => rfl
  | node left k s right ihl ihr =>
    unfold descend at h ⊢
    unfold insert
    cases hc : cmp key k with
    | lt =>
      simp only [hc] at h
      exact ihl _ h
    | gt =>
      simp only [hc] at h
      exact ihr _ h
    | eq =>
      simp only [hc] at h
      cases h

theorem erase_eq_plug (frames : List (Frame K))
    (h : (t.descend cmp key frames).2 = node left k s right) :
    plug frames (t.erase cmp key) = plug (t.descend cmp key frames).1 (hang right left) := by
  induction t generalizing frames with
  | leaf => cases h
  | node l a i r ihl ihr =>
    unfold descend at h ⊢
    unfold erase
    cases hc : cmp key a with
    | lt =>
      simp only [hc] at h
      exact ihl _ h
    | gt =>
      simp only [hc] at h
      exact ihr _ h
    | eq =>
      simp only [hc] at h
      cases h
      rfl

end Descent

end DuplexRelay.SearchTree
