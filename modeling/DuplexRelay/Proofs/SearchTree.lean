import DuplexRelay.SearchTree

/-! Search trees in order. The list of an ordered tree is strictly ascending, and each operation is
told by what it does to that list. -/

namespace DuplexRelay.SearchTree

variable {K : Type} {cmp : K → K → Ordering} {t : SearchTree K} {key k : K} {slot s : Nat}

/-- The keys ascend from left to right. -/
def Ordered (cmp : K → K → Ordering) (t : SearchTree K) : Prop :=
  t.toList.Pairwise fun a b => cmp a.1 b.1 = .lt

theorem ordered_leaf : Ordered cmp (leaf : SearchTree K) := List.Pairwise.nil

theorem ordered_node {left right : SearchTree K} :
    Ordered cmp (node left k s right) ↔
      Ordered cmp left ∧ Ordered cmp right ∧ (∀ x ∈ left.toList, cmp x.1 k = .lt) ∧
        (∀ x ∈ right.toList, cmp k x.1 = .lt) ∧
        ∀ x ∈ left.toList, ∀ y ∈ right.toList, cmp x.1 y.1 = .lt := by
  simp only [Ordered, toList_node, List.pairwise_append, List.pairwise_cons, List.mem_cons,
    forall_eq_or_imp]
  constructor
  · rintro ⟨hl, ⟨hk, hr⟩, hx⟩
    exact ⟨hl, hr, fun x hm => (hx x hm).1, hk, fun x hm => (hx x hm).2⟩
  · rintro ⟨hl, hr, hlk, hk, hx⟩
    exact ⟨hl, ⟨hk, hr⟩, fun x hm => ⟨hlk x hm, hx x hm⟩⟩

/-- Where keys are compared with one above them, they are all below what that one is below. -/
theorem lt_all [Std.TransCmp cmp] {entries : List (K × Nat)} (h : cmp key k = .lt)
    (hk : ∀ x ∈ entries, cmp k x.1 = .lt) : ∀ x ∈ entries, cmp key x.1 = .lt :=
  fun x hx => Std.TransCmp.lt_trans h (hk x hx)

theorem gt_all [Std.TransCmp cmp] {entries : List (K × Nat)} (h : cmp key k = .gt)
    (hk : ∀ x ∈ entries, cmp x.1 k = .lt) : ∀ x ∈ entries, cmp key x.1 = .gt :=
  fun x hx => Std.OrientedCmp.gt_of_lt (Std.TransCmp.lt_trans (hk x hx)
    (Std.OrientedCmp.lt_of_gt h))

theorem find?_eq_some_iff [Std.TransCmp cmp] (ht : Ordered cmp t) :
    t.find? cmp key = some slot ↔ ∃ k, (k, slot) ∈ t.toList ∧ cmp key k = .eq := by
  induction t with
  | leaf => simp [find?]
  | node left k s right ihl ihr =>
    obtain ⟨hl, hr, hlk, hkr, _⟩ := ordered_node.mp ht
    unfold find?
    simp only [toList_node, List.mem_append, List.mem_cons]
    -- the branch that is not searched has only keys on one side of the key in question
    cases hc : cmp key k with
    | lt =>
      have hright := lt_all hc hkr
      rw [ihl hl]
      constructor
      · rintro ⟨k', hm, he⟩
        exact ⟨k', .inl hm, he⟩
      · rintro ⟨k', hm | hm | hm, he⟩
        · exact ⟨k', hm, he⟩
        · cases hm
          simp [hc] at he
        · have := hright _ hm
          simp [this] at he
    | gt =>
      have hleft := gt_all hc hlk
      rw [ihr hr]
      constructor
      · rintro ⟨k', hm, he⟩
        exact ⟨k', .inr (.inr hm), he⟩
      · rintro ⟨k', hm | hm | hm, he⟩
        · have := hleft _ hm
          simp [this] at he
        · cases hm
          simp [hc] at he
        · exact ⟨k', hm, he⟩
    | eq =>
      constructor
      · intro h
        cases h
        exact ⟨k, .inr (.inl rfl), hc⟩
      · rintro ⟨k', hm | hm | hm, he⟩
        · have := Std.TransCmp.lt_of_lt_of_eq (hlk _ hm) (Std.OrientedCmp.eq_symm hc)
          simp [Std.OrientedCmp.gt_of_lt this] at he
        · cases hm
          rfl
        · have := Std.TransCmp.lt_of_eq_of_lt hc (hkr _ hm)
          simp [this] at he

theorem find?_eq_none_iff [Std.TransCmp cmp] (ht : Ordered cmp t) :
    t.find? cmp key = none ↔ ∀ x ∈ t.toList, cmp key x.1 ≠ .eq := by
  rw [Option.eq_none_iff_forall_not_mem]
  constructor
  · intro h x hx he
    exact h x.2 ((find?_eq_some_iff ht).mpr ⟨x.1, hx, he⟩)
  · intro h slot hs
    obtain ⟨k, hm, he⟩ := (find?_eq_some_iff ht).mp hs
    exact h _ hm he

/-- A new key goes between those below and those above it. -/
theorem toList_insert [Std.TransCmp cmp] (ht : Ordered cmp t)
    (hn : ∀ x ∈ t.toList, cmp key x.1 ≠ .eq) :
    (t.insert cmp key slot).toList =
      t.toList.filter (cmp key ·.1 = .gt) ++ (key, slot) ::
        t.toList.filter (cmp key ·.1 = .lt) := by
  induction t with
  | leaf => rfl
  | node left k s right ihl ihr =>
    obtain ⟨hl, hr, hlk, hkr, _⟩ := ordered_node.mp ht
    simp only [toList_node, List.mem_append, List.mem_cons] at hn
    unfold insert
    -- the branch that is not entered is kept as a whole by one filter and lost by the other
    cases hc : cmp key k with
    | lt =>
      have hright := lt_all hc hkr
      have hnone : right.toList.filter (cmp key ·.1 = .gt) = [] := by
        rw [List.filter_eq_nil_iff]
        intro x hx
        simp [hright x hx]
      have hall : right.toList.filter (cmp key ·.1 = .lt) = right.toList := by
        rw [List.filter_eq_self]
        intro x hx
        simp [hright x hx]
      have ih := ihl hl fun x hx => hn x (.inl hx)
      simp [ih, hc, hnone, hall]
    | gt =>
      have hleft := gt_all hc hlk
      have hall : left.toList.filter (cmp key ·.1 = .gt) = left.toList := by
        rw [List.filter_eq_self]
        intro x hx
        simp [hleft x hx]
      have hnone : left.toList.filter (cmp key ·.1 = .lt) = [] := by
        rw [List.filter_eq_nil_iff]
        intro x hx
        simp [hleft x hx]
      have ih := ihr hr fun x hx => hn x (.inr (.inr hx))
      simp [ih, hc, hnone, hall]
    | eq => exact absurd hc (hn (k, s) (.inr (.inl rfl)))

theorem length_split {entries : List (K × Nat)} (hn : ∀ x ∈ entries, cmp key x.1 ≠ .eq) :
    (entries.filter (cmp key ·.1 = .gt)).length + (entries.filter (cmp key ·.1 = .lt)).length =
      entries.length := by
  induction entries with
  | nil => rfl
  | cons x rest ih =>
    have ih := ih fun y hy => hn y (List.mem_cons_of_mem x hy)
    have hx := hn x List.mem_cons_self
    simp only [List.filter_cons, List.length_cons]
    cases hc : cmp key x.1 with
    | lt =>
      simp
      omega
    | gt =>
      simp
      omega
    | eq => exact absurd hc hx

theorem mem_insert [Std.TransCmp cmp] (ht : Ordered cmp t)
    (hn : ∀ x ∈ t.toList, cmp key x.1 ≠ .eq) {x : K × Nat} :
    x ∈ (t.insert cmp key slot).toList ↔ x = (key, slot) ∨ x ∈ t.toList := by
  rw [toList_insert ht hn]
  simp only [List.mem_append, List.mem_cons, List.mem_filter, decide_eq_true_eq]
  constructor
  · rintro (⟨hm, _⟩ | hx | ⟨hm, _⟩)
    · exact .inr hm
    · exact .inl hx
    · exact .inr hm
  · rintro (hx | hm)
    · exact .inr (.inl hx)
    · cases hc : cmp key x.1 with
      | lt => exact .inr (.inr ⟨hm, rfl⟩)
      | gt => exact .inl ⟨hm, rfl⟩
      | eq => exact absurd hc (hn x hm)

theorem ordered_insert [Std.TransCmp cmp] (ht : Ordered cmp t)
    (hn : ∀ x ∈ t.toList, cmp key x.1 ≠ .eq) : Ordered cmp (t.insert cmp key slot) := by
  unfold Ordered
  rw [toList_insert ht hn, List.pairwise_append, List.pairwise_cons]
  simp only [List.mem_filter, decide_eq_true_eq, List.mem_cons, forall_eq_or_imp]
  refine ⟨ht.filter _, ⟨fun x hx => hx.2, ht.filter _⟩, ?_⟩
  rintro x ⟨_, hx⟩
  have hbelow := Std.OrientedCmp.lt_of_gt hx
  exact ⟨hbelow, fun y hy => Std.TransCmp.lt_trans hbelow hy.2⟩

/-- The node of a key is left out, and nothing else. -/
theorem toList_erase [Std.TransCmp cmp] (ht : Ordered cmp t) :
    (t.erase cmp key).toList = t.toList.filter (cmp key ·.1 ≠ .eq) := by
  induction t with
  | leaf => rfl
  | node left k s right ihl ihr =>
    obtain ⟨hl, hr, hlk, hkr, _⟩ := ordered_node.mp ht
    unfold erase
    -- the branch that is not entered has no equal key
    cases hc : cmp key k with
    | lt =>
      have hright := lt_all hc hkr
      have hall : right.toList.filter (cmp key ·.1 ≠ .eq) = right.toList := by
        rw [List.filter_eq_self]
        intro x hx
        simp [hright x hx]
      simp only [toList_node, ihl hl, List.filter_append, List.filter_cons, hall]
      simp [hc]
    | gt =>
      have hleft := gt_all hc hlk
      have hall : left.toList.filter (cmp key ·.1 ≠ .eq) = left.toList := by
        rw [List.filter_eq_self]
        intro x hx
        simp [hleft x hx]
      simp only [toList_node, ihr hr, List.filter_append, List.filter_cons, hall]
      simp [hc]
    | eq =>
      have hleft : left.toList.filter (cmp key ·.1 ≠ .eq) = left.toList := by
        rw [List.filter_eq_self]
        intro x hx
        have := Std.TransCmp.lt_of_lt_of_eq (hlk x hx) (Std.OrientedCmp.eq_symm hc)
        simp [Std.OrientedCmp.gt_of_lt this]
      have hright : right.toList.filter (cmp key ·.1 ≠ .eq) = right.toList := by
        rw [List.filter_eq_self]
        intro x hx
        simp [Std.TransCmp.lt_of_eq_of_lt hc (hkr x hx)]
      simp only [toList_hang, toList_node, List.filter_append, List.filter_cons, hleft, hright]
      simp [hc]

theorem ordered_erase [Std.TransCmp cmp] (ht : Ordered cmp t) : Ordered cmp (t.erase cmp key) := by
  unfold Ordered
  rw [toList_erase ht]
  exact ht.filter _

theorem first?_eq (t : SearchTree K) : t.first? = t.toList.head?.map (·.2) := by
  induction t with
  | leaf => rfl
  | node left k s right ihl _ =>
    cases left with
    | leaf => rfl
    | node =>
      rw [first?, ihl]
      · simp only [toList_node, List.head?_append, List.head?_cons, Option.or_assoc, Option.some_or]
      · exact nofun

theorem above?_eq [Std.TransCmp cmp] (ht : Ordered cmp t) :
    t.above? cmp key = (t.toList.find? (cmp key ·.1 = .lt)).map (·.2) := by
  induction t with
  | leaf => rfl
  | node left k s right ihl ihr =>
    obtain ⟨hl, hr, hlk, _, _⟩ := ordered_node.mp ht
    unfold above?
    rw [toList_node, List.find?_append]
    by_cases hc : cmp key k = .lt
    · rw [List.find?_cons_of_pos (by simpa using hc), hc, ihl hl]
      cases left.toList.find? (cmp key ·.1 = .lt) <;> rfl
    · -- what is below a key that is not above is not above either
      have hnone : left.toList.find? (cmp key ·.1 = .lt) = none := by
        rw [List.find?_eq_none]
        intro x hx habove
        exact hc (Std.TransCmp.lt_trans (by simpa using habove) (hlk x hx))
      rw [hnone, List.find?_cons_of_neg (by simpa using hc), Option.none_or, ← ihr hr]
      cases hk : cmp key k with
      | lt => exact absurd hk hc
      | eq => rfl
      | gt => rfl

end DuplexRelay.SearchTree
