import DuplexRelay.Proofs.OrderedMap.Queries

/-! The slots of an ordered map along a sequence of queries. A slot is freed by the removal of its
entry and by nothing else, and its generation goes up by one then. -/

namespace DuplexRelay.OrderedMap

section Notions

variable {K V : Type} {cmp : K → K → Ordering}

/-- Whether a query removes the entry of a handle, if that entry is there. -/
def Query.removes (id : Handle) : Query K V → Bool
  | .erase i => i = id
  | .drain => true
  | _ => false

/-- What a query leaves of the value that is stored for a handle. -/
def Query.stores (id : Handle) (value : V) : Query K V → V
  | .update i f => if i = id then f value else value
  | _ => value

/-- How often a slot is freed while a map is asked one thing after another. -/
def frees (m : OrderedMap K V cmp) (index : Nat) : List (Query K V) → Nat
  | [] => 0
  | query :: queries =>
    let after := (m.answer query).2
    (if (m.held index).isSome && (after.held index).isNone then 1 else 0) +
      after.frees index queries

/-- A handle that stands for an entry. The handle of an equal key is no other. -/
structure Resolves (m : OrderedMap K V cmp) (id : Handle) (key : K) (value : V) : Prop where
  keyed : m.answer (.key id) = (.key (some key), m)
  valued : m.answer (.get id) = (.value (some value), m)
  updated : ∀ f, (m.answer (.update id f)).1 = .value (some value)
  erased : (m.answer (.erase id)).1 = .entry (some (key, value))
  found : ∀ other, cmp other key = .eq → m.answer (.find other) = (.handle (some id), m)

/-- A handle that stands for nothing and does nothing. -/
structure Stale (m : OrderedMap K V cmp) (id : Handle) : Prop where
  unkeyed : m.answer (.key id) = (.key none, m)
  unvalued : m.answer (.get id) = (.value none, m)
  unchanged : ∀ f, m.answer (.update id f) = (.value none, m)
  unerased : m.answer (.erase id) = (.entry none, m)
  unfollowed : m.answer (.next id) = (.handle none, m)

/-- What may happen to a slot in one step. Its generation goes with being freed. -/
inductive SlotStep (m m' : OrderedMap K V cmp) (index : Nat) : Prop where
  | kept : m'.handleAt index = m.handleAt index →
      ((m.held index).isSome → (m'.held index).isSome) → SlotStep m m' index
  | freed : (m.held index).isSome → m'.held index = none →
      (m'.handleAt index).generation = (m.handleAt index).generation + 1 → SlotStep m m' index

end Notions

variable {K V : Type} {cmp : K → K → Ordering} {m m' : OrderedMap K V cmp} {key : K} {value : V}
  {id : Handle} {entry : K × V} {entries left : List (Handle × K × V)} {query : Query K V}
  {reply : Answer K V} {index : Nat}

theorem stale_of_entry (h : m.entry? id = none) : Stale m id := by
  constructor <;> simp [answer, key?, get?, modify, erase, next?, h]

theorem answerAll_append (m : OrderedMap K V cmp) (first last : List (Query K V)) :
    (m.answerAll (first ++ last)).2 = ((m.answerAll first).2.answerAll last).2 := by
  induction first generalizing m with
  | nil => rfl
  | cons query first ih => exact ih (m.answer query).2

theorem frees_append (m : OrderedMap K V cmp) (index : Nat) (first last : List (Query K V)) :
    m.frees index (first ++ last) =
      m.frees index first + (m.answerAll first).2.frees index last := by
  induction first generalizing m with
  | nil => exact (Nat.zero_add _).symm
  | cons query first ih =>
    have hrest := ih (m.answer query).2
    simp only [List.cons_append, frees, answerAll]
    omega

/-- No slot is freed more than once in a step. -/
theorem frees_le (m : OrderedMap K V cmp) (index : Nat) (queries : List (Query K V)) :
    m.frees index queries ≤ queries.length := by
  induction queries generalizing m with
  | nil => exact Nat.le_refl 0
  | cons query queries ih =>
    have hrest := ih (m.answer query).2
    simp only [frees, List.length_cons]
    split <;> omega

/-- An answer to one of several queries is the answer to it where its turn comes. -/
theorem answered {queries : List (Query K V)}
    (h : reply ∈ (m.answerAll queries).1) : ∃ before query after,
      queries = before ++ query :: after ∧ ((m.answerAll before).2.answer query).1 = reply := by
  induction queries generalizing m with
  | nil => cases h
  | cons query queries ih =>
    rcases List.mem_cons.mp h with heq | hin
    · exact ⟨[], query, queries, rfl, heq.symm⟩
    · obtain ⟨before, q, after, hsplit, hreply⟩ := ih hin
      refine ⟨query :: before, q, after, ?_, hreply⟩
      rw [hsplit]
      rfl

section Entries

/-- What a query does not remove stays, with what the query stores. -/
theorem Replies.kept (h : Replies cmp entries query reply left) (hin : (id, entry) ∈ entries)
    (hkept : query.removes id = false) : (id, entry.1, query.stores id entry.2) ∈ left := by
  cases h with
  | added =>
    rcases List.mem_append.mp hin with hb | ha
    · exact List.mem_append_left _ hb
    · exact List.mem_append_right _ (List.mem_cons_of_mem _ ha)
  | @update _ i f =>
    refine List.mem_map.mpr ⟨(id, entry), hin, ?_⟩
    unfold Query.stores
    by_cases hi : id = i
    · simp [hi]
    · simp [hi, Ne.symm hi]
  | @erase _ i =>
    have hi : i ≠ id := by simpa [Query.removes] using hkept
    exact List.mem_filter.mpr ⟨hin, by simpa using Ne.symm hi⟩
  | drain => cases hkept
  | existing | found | absent | get | key | first | none | next | last | stale | list => exact hin

theorem Replies.removed (h : Replies cmp entries query reply left)
    (hgone : query.removes id = true) : (id, entry) ∉ left := by
  cases h with
  | @erase _ i =>
    have hi : i = id := by simpa [Query.removes] using hgone
    intro hin
    simpa [hi] using (List.mem_filter.mp hin).2
  | drain => exact List.not_mem_nil
  | added | update | existing | found | absent | get | key | first | none | next | last | stale
    | list => cases hgone

theorem Replies.given (h : Replies cmp entries query (.inserted (.added id)) left) :
    (∀ e, (id, e) ∉ entries) ∧ ∃ e, (id, e) ∈ left := by
  cases h with
  | added _ _ hfresh =>
    refine ⟨?_, _, List.mem_append_right _ List.mem_cons_self⟩
    intro e hin
    exact hfresh _ hin rfl

end Entries

section Slots

theorem slotStep_refl (m : OrderedMap K V cmp) (index : Nat) : SlotStep m m index :=
  .kept rfl fun h => h

theorem slotStep_modify (m : OrderedMap K V cmp) (f : V → V) (id : Handle) (index : Nat) :
    SlotStep m (m.modify id f) index := by
  refine .kept (handleAt_modify f m id index) ?_
  rw [held_modify, Option.isSome_map]
  exact fun h => h

theorem generation_erase (h : m.entry? id = some entry) :
    ((m.erase id).2.handleAt id.index).generation = (m.handleAt id.index).generation + 1 := by
  obtain ⟨_, hheld⟩ := entryAt_eq_some_iff.mp h
  unfold erase handleAt
  unfold held at hheld
  cases hslot : m.slots[id.index]? with
  | none => simp [hslot] at hheld
  | some slot => simp [h, Array.getElem?_modify, hslot]

theorem slotStep_insert (hm : m.WellFormed) (key : K) (value : V) (index : Nat) :
    SlotStep m (m.insert key value).2 index := by
  unfold insert
  cases m.find? key with
  | some other => exact slotStep_refl m index
  | none =>
    have hp := placed hm (key, value)
    refine .kept (hp.handleAt index) ?_
    intro hsome
    change (held (m.place (key, value)).2 index).isSome
    rw [hp.held]
    split
    · rfl
    · exact hsome

theorem slotStep_erase (m : OrderedMap K V cmp) (id : Handle) (index : Nat) :
    SlotStep m (m.erase id).2 index ∧ (m.held index = none → (m.erase id).2.held index = none) := by
  cases h : m.entry? id with
  | none =>
    have hsame : (m.erase id).2 = m := by
      unfold erase
      rw [h]
    rw [hsame]
    exact ⟨slotStep_refl m index, fun hnone => hnone⟩
  | some entry =>
    have hheld := held_erase h index
    by_cases hindex : index = id.index
    · rw [if_pos hindex] at hheld
      obtain ⟨_, hentry⟩ := entryAt_eq_some_iff.mp h
      have hgeneration := generation_erase h
      rw [← hindex] at hentry hgeneration
      exact ⟨.freed (by rw [hentry]; rfl) hheld hgeneration, fun _ => hheld⟩
    · rw [if_neg hindex] at hheld
      rw [hheld]
      refine ⟨.kept (handleAt_erase h hindex) ?_, fun hnone => hnone⟩
      rw [hheld]
      exact fun hsome => hsome

/-- A slot is freed at most once when entries are removed one by one, since nothing fills it. -/
theorem slotStep_removed (m : OrderedMap K V cmp) (ids : List Handle) (index : Nat) :
    let left := (ids.foldr (fun id (values, m) =>
      match erase id m with
      | (some (_, value), m) => (value :: values, m)
      | (none, m) => (values, m)) (([] : List V), m)).2
    SlotStep m left index ∧ (m.held index = none → left.held index = none) := by
  induction ids with
  | nil => exact ⟨slotStep_refl m index, fun hnone => hnone⟩
  | cons id ids ih =>
    obtain ⟨hslot, hempty⟩ := ih
    rw [List.foldr_cons]
    generalize List.foldr _ _ ids = before at hslot hempty
    obtain ⟨values, left⟩ := before
    have hstep : (match erase id left with
        | (some (_, value), m) => (value :: values, m)
        | (none, m) => (values, m)).2 = (left.erase id).2 := by
      rcases left.erase id with ⟨_ | ⟨k, v⟩, rest⟩ <;> rfl
    dsimp only at hslot hempty ⊢
    rw [hstep]
    obtain ⟨hlast, hstays⟩ := slotStep_erase left id index
    refine ⟨?_, fun hnone => hstays (hempty hnone)⟩
    -- what is vacant stays so, hence no slot is freed both by an earlier removal and by this one
    cases hslot with
    | freed hsome hnone hgeneration =>
      cases hlast with
      | kept hsame _ => exact .freed hsome (hstays hnone) (by rw [hsame, hgeneration])
      | freed hfull _ _ => simp [hnone] at hfull
    | kept hsame hsome =>
      cases hlast with
      | kept hsame' hsome' => exact .kept (hsame'.trans hsame) fun h => hsome' (hsome h)
      | freed hfull hnone hgeneration =>
        have hheld : (m.held index).isSome := by
          by_contra hvacant
          simp [hempty (by simpa using hvacant)] at hfull
        exact .freed hheld hnone (by rw [hgeneration, hsame])

theorem slotStep_answer (hm : m.WellFormed) (query : Query K V) (index : Nat) :
    SlotStep m (m.answer query).2 index := by
  cases query with
  | insert key value => exact slotStep_insert hm key value index
  | update id f => exact slotStep_modify m f id index
  | erase id => exact (slotStep_erase m id index).1
  | drain => exact (slotStep_removed m m.handles index).1
  | find | get | key | first | next | list => exact slotStep_refl m index

end Slots

end DuplexRelay.OrderedMap
