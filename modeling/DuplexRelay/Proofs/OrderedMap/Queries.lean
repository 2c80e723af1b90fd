import Mathlib.Data.List.Nodup
import DuplexRelay.Proofs.OrderedMap.Erase
import DuplexRelay.Proofs.OrderedMap.Insert
import DuplexRelay.Proofs.OrderedMap.Values

/-! Ordered maps seen through what they answer. A map that is asked one thing after another answers
as a plain list of entries would that is kept in the order of the keys. -/

namespace DuplexRelay.OrderedMap

section Asking

variable {K V : Type} {cmp : K → K → Ordering}

inductive Query (K V : Type) where
  | insert (key : K) (value : V)
  | find (key : K)
  | get (id : Handle)
  | key (id : Handle)
  | update (id : Handle) (f : V → V)
  | erase (id : Handle)
  | first
  | next (id : Handle)
  | list
  | drain

inductive Answer (K V : Type) where
  | inserted (result : Inserted)
  | handle (id : Option Handle)
  | key (key : Option K)
  | value (value : Option V)
  | entry (entry : Option (K × V))
  | entries (entries : List (K × V))
  | values (values : List V)
  deriving DecidableEq

/-- Answers a query. An update answers with the value that it finds. -/
def answer (m : OrderedMap K V cmp) : Query K V → Answer K V × OrderedMap K V cmp
  | .insert key value => let (result, m) := m.insert key value; (.inserted result, m)
  | .find key => (.handle (m.find? key), m)
  | .get id => (.value (m.get? id), m)
  | .key id => (.key (m.key? id), m)
  | .update id f => (.value (m.get? id), m.modify id f)
  | .erase id => let (entry, m) := m.erase id; (.entry entry, m)
  | .first => (.handle m.first?, m)
  | .next id => (.handle (m.next? id), m)
  | .list => (.entries m.toList, m)
  | .drain => let (values, m) := m.drain; (.values values, m)

def answerAll (m : OrderedMap K V cmp) : List (Query K V) → List (Answer K V) × OrderedMap K V cmp
  | [] => ([], m)
  | query :: queries =>
    let (first, m) := m.answer query
    let (others, m) := m.answerAll queries
    (first :: others, m)

/-- The handles that are seen in turn, from one on, when each is followed by the next. -/
inductive Walk (m : OrderedMap K V cmp) : Option Handle → List Handle → Prop where
  | finished : Walk m none []
  | visit {id : Handle} {others : List Handle} :
    Walk m (m.next? id) others → Walk m (some id) (id :: others)

end Asking

section Listing

variable {K V : Type} (cmp : K → K → Ordering)

/-- The entries ascend, so that no two keys are equal. -/
def Ascending (entries : List (Handle × K × V)) : Prop :=
  entries.Pairwise fun x y => cmp x.2.1 y.2.1 = .lt

/-- Of the entries whose keys have a property, one that is below all others. -/
structure Smallest (p : K → Prop) (entries : List (Handle × K × V)) (x : Handle × K × V) :
    Prop where
  mem : x ∈ entries
  holds : p x.2.1
  least : ∀ y ∈ entries, p y.2.1 → y = x ∨ cmp x.2.1 y.2.1 = .lt

/-- How a list of entries answers a query, and the list that is left. -/
inductive Replies : List (Handle × K × V) → Query K V → Answer K V → List (Handle × K × V) → Prop
    where
  | added {before after : List (Handle × K × V)} {key : K} {value : V} {id : Handle} :
    (∀ x ∈ before, cmp x.2.1 key = .lt) → (∀ x ∈ after, cmp key x.2.1 = .lt) →
      (∀ x ∈ before ++ after, x.1 ≠ id) →
      Replies (before ++ after) (.insert key value) (.inserted (.added id))
        (before ++ (id, key, value) :: after)
  | existing {entries : List (Handle × K × V)} {x : Handle × K × V} {key : K} {value : V} :
    x ∈ entries → cmp key x.2.1 = .eq →
      Replies entries (.insert key value) (.inserted (.existing x.1)) entries
  | found {entries : List (Handle × K × V)} {x : Handle × K × V} {key : K} :
    x ∈ entries → cmp key x.2.1 = .eq → Replies entries (.find key) (.handle (some x.1)) entries
  | absent {entries : List (Handle × K × V)} {key : K} :
    (∀ x ∈ entries, cmp key x.2.1 ≠ .eq) → Replies entries (.find key) (.handle none) entries
  | get {entries : List (Handle × K × V)} {id : Handle} :
    Replies entries (.get id) (.value ((entries.lookup id).map (·.2))) entries
  | key {entries : List (Handle × K × V)} {id : Handle} :
    Replies entries (.key id) (.key ((entries.lookup id).map (·.1))) entries
  | update {entries : List (Handle × K × V)} {id : Handle} {f : V → V} :
    Replies entries (.update id f) (.value ((entries.lookup id).map (·.2)))
      (entries.map fun x => if x.1 = id then (x.1, x.2.1, f x.2.2) else x)
  | erase {entries : List (Handle × K × V)} {id : Handle} :
    Replies entries (.erase id) (.entry (entries.lookup id)) (entries.filter (·.1 ≠ id))
  | first {entries : List (Handle × K × V)} {x : Handle × K × V} :
    Smallest cmp (fun _ => True) entries x → Replies entries .first (.handle (some x.1)) entries
  | none : Replies [] .first (.handle none) []
  | next {entries : List (Handle × K × V)} {id : Handle} {entry : K × V} {x : Handle × K × V} :
    entries.lookup id = some entry → Smallest cmp (cmp entry.1 · = .lt) entries x →
      Replies entries (.next id) (.handle (some x.1)) entries
  | last {entries : List (Handle × K × V)} {id : Handle} {entry : K × V} :
    entries.lookup id = some entry → (∀ x ∈ entries, cmp entry.1 x.2.1 ≠ .lt) →
      Replies entries (.next id) (.handle none) entries
  | stale {entries : List (Handle × K × V)} {id : Handle} :
    entries.lookup id = none → Replies entries (.next id) (.handle none) entries
  | list {entries : List (Handle × K × V)} :
    Replies entries .list (.entries (entries.map (·.2))) entries
  | drain {entries : List (Handle × K × V)} :
    Replies entries .drain (.values (entries.map (·.2.2))) []

/-- The answers of a list of entries to queries one after another. -/
inductive Dialogue : List (Handle × K × V) → List (Query K V) → List (Answer K V) →
    List (Handle × K × V) → Prop where
  | nil {entries : List (Handle × K × V)} : Dialogue entries [] [] entries
  | cons {entries between final : List (Handle × K × V)} {query : Query K V}
    {queries : List (Query K V)} {first : Answer K V} {others : List (Answer K V)} :
    Replies cmp entries query first between → Dialogue between queries others final →
      Dialogue entries (query :: queries) (first :: others) final

end Listing

variable {K V : Type} {cmp : K → K → Ordering} {m : OrderedMap K V cmp} {key : K} {value : V}
  {id : Handle} {entries rest : List (Handle × K × V)} {x : Handle × K × V}

theorem Ascending.smallest {p : K → Bool} (hs : Ascending cmp entries)
    (h : entries.filter (fun y => p y.2.1) = x :: rest) :
    Smallest cmp (p · = true) entries x := by
  have hx : x ∈ entries.filter fun y => p y.2.1 := by
    rw [h]
    exact List.mem_cons_self
  obtain ⟨hmem, hholds⟩ := List.mem_filter.mp hx
  refine ⟨hmem, hholds, ?_⟩
  intro y hy hp
  have hleft : y ∈ x :: rest := by
    rw [← h]
    exact List.mem_filter.mpr ⟨hy, hp⟩
  have hsorted := hs.filter fun y => p y.2.1
  rw [h, List.pairwise_cons] at hsorted
  rcases List.mem_cons.mp hleft with heq | hrest
  · exact .inl heq
  · exact .inr (hsorted.1 y hrest)

theorem Ascending.filter_above [Std.TransCmp cmp] {before after : List (Handle × K × V)}
    (hs : Ascending cmp (before ++ x :: after)) :
    (before ++ x :: after).filter (cmp x.2.1 ·.2.1 = .lt) = after := by
  obtain ⟨_, hafter, hbefore⟩ := List.pairwise_append.mp hs
  have hnone : before.filter (cmp x.2.1 ·.2.1 = .lt) = [] := by
    rw [List.filter_eq_nil_iff]
    intro y hy
    simp [Std.OrientedCmp.gt_of_lt (hbefore y hy x List.mem_cons_self)]
  have hall : after.filter (cmp x.2.1 ·.2.1 = .lt) = after := by
    rw [List.filter_eq_self]
    intro y hy
    simpa using (List.pairwise_cons.mp hafter).1 y hy
  rw [List.filter_append, hnone, List.filter_cons_of_neg (by simp [Std.ReflCmp.compare_self]), hall]
  rfl

theorem WellFormed.lookup_eq (hm : m.WellFormed) (id : Handle) :
    m.entries.lookup id = m.entry? id := by
  cases h : m.entries.lookup id with
  | none =>
    rw [List.lookup_eq_none_iff] at h
    symm
    rw [Option.eq_none_iff_forall_not_mem]
    intro e he
    have := h _ (hm.mem_entries.mpr he)
    simp at this
  | some e =>
    obtain ⟨before, after, hsplit, _⟩ := List.lookup_eq_some_iff.mp h
    have hmem : (id, e) ∈ m.entries := by
      rw [hsplit]
      exact List.mem_append_right _ List.mem_cons_self
    exact (hm.mem_entries.mp hmem).symm

theorem replies_first (hm : m.WellFormed) :
    Replies cmp m.entries .first (.handle m.first?) m.entries := by
  have hsorted : Ascending cmp m.entries := hm.entries_sorted
  rw [hm.first?_eq]
  cases hentries : m.entries with
  | nil => exact .none
  | cons x rest =>
    have hall : m.entries.filter (fun _ => true) = x :: rest := by
      rw [List.filter_true, hentries]
    have hsmall := hsorted.smallest (p := fun _ => true) hall
    rw [hentries] at hsmall
    exact .first ⟨hsmall.mem, trivial, fun y hy _ => hsmall.least y hy rfl⟩

variable [Std.TransCmp cmp]

theorem replies_insert (hm : m.WellFormed) (key : K) (value : V) :
    (m.insert key value).2.WellFormed ∧
      Replies cmp m.entries (.insert key value) (.inserted (m.insert key value).1)
        (m.insert key value).2.entries := by
  rcases h : m.insert key value with ⟨id | id, m'⟩
  · have hwf := wellFormed_added hm h
    have hentries := entries_added hm h
    have habsent := hm.find?_eq_none_iff.mp (absent_of_added h)
    have hsplit := filter_gt_append_filter_lt hm habsent
    have hnodup := hwf.entries_handles_nodup
    have hbelow : ∀ x ∈ m.entries.filter (cmp key ·.2.1 = .gt), cmp x.2.1 key = .lt := by
      intro x hx
      exact Std.OrientedCmp.lt_of_gt (by simpa using (List.mem_filter.mp hx).2)
    have habove : ∀ x ∈ m.entries.filter (cmp key ·.2.1 = .lt), cmp key x.2.1 = .lt := by
      intro x hx
      simpa using (List.mem_filter.mp hx).2
    refine ⟨hwf, ?_⟩
    dsimp only
    rw [hentries] at hnodup ⊢
    -- the handle in the middle is not among those around it
    have hfresh : ∀ x ∈ m.entries, x.1 ≠ id := by
      intro x hx hid
      rw [List.map_append, List.map_cons, List.nodup_middle, ← List.map_append, hsplit] at hnodup
      exact (List.nodup_cons.mp hnodup).1 (List.mem_map.mpr ⟨x, hx, hid⟩)
    rw [← hsplit] at hfresh
    have hreply : Replies cmp (_ ++ _) (.insert key value) _ _ := .added hbelow habove hfresh
    rw [hsplit] at hreply
    exact hreply
  · have hfind := find?_of_existing h
    obtain ⟨e, he, heq⟩ := hm.find?_eq_some_iff.mp hfind
    rw [insert_of_find? hfind] at h
    cases h
    exact ⟨hm, .existing he heq⟩

theorem replies_find (hm : m.WellFormed) (key : K) :
    Replies cmp m.entries (.find key) (.handle (m.find? key)) m.entries := by
  cases h : m.find? key with
  | none => exact .absent (hm.find?_eq_none_iff.mp h)
  | some id =>
    obtain ⟨e, he, heq⟩ := hm.find?_eq_some_iff.mp h
    exact .found he heq

theorem replies_next (hm : m.WellFormed) (id : Handle) :
    Replies cmp m.entries (.next id) (.handle (m.next? id)) m.entries := by
  have hlookup := hm.lookup_eq id
  cases h : m.entry? id with
  | none =>
    rw [h] at hlookup
    have hnone : m.next? id = none := by
      unfold next? key?
      rw [h, Option.map_none]
    rw [hnone]
    exact .stale hlookup
  | some entry =>
    have hsorted : Ascending cmp m.entries := hm.entries_sorted
    rw [h] at hlookup
    rw [hm.next?_of_some h]
    cases habove : m.entries.filter (cmp entry.1 ·.2.1 = .lt) with
    | nil =>
      refine .last hlookup ?_
      intro x hx hlt
      rw [List.filter_eq_nil_iff] at habove
      exact habove x hx (by simpa using hlt)
    | cons x rest =>
      have hsmall := hsorted.smallest (p := fun k => cmp entry.1 k = .lt) habove
      simp only [decide_eq_true_eq] at hsmall
      exact .next hlookup hsmall

/-- A well-formed map answers as the list of its entries does, and stays well-formed. -/
theorem replies_answer (hm : m.WellFormed) (query : Query K V) :
    (m.answer query).2.WellFormed ∧
      Replies cmp m.entries query (m.answer query).1 (m.answer query).2.entries := by
  cases query with
  | insert key value => exact replies_insert hm key value
  | find key => exact ⟨hm, replies_find hm key⟩
  | get id =>
    have hreply : Replies cmp m.entries (.get id) _ _ := .get
    rw [hm.lookup_eq] at hreply
    exact ⟨hm, hreply⟩
  | key id =>
    have hreply : Replies cmp m.entries (.key id) _ _ := .key
    rw [hm.lookup_eq] at hreply
    exact ⟨hm, hreply⟩
  | update id f =>
    have hreply : Replies cmp m.entries (.update id f) _ _ := .update
    rw [hm.lookup_eq, ← entries_modify] at hreply
    exact ⟨wellFormed_modify f hm id, hreply⟩
  | erase id =>
    have hreply : Replies cmp m.entries (.erase id) _ _ := .erase
    have herased : (m.erase id).1 = m.entry? id := by
      unfold OrderedMap.erase
      cases m.entry? id <;> rfl
    rw [hm.lookup_eq, ← entries_erase hm, ← herased] at hreply
    exact ⟨wellFormed_erase hm id, hreply⟩
  | first => exact ⟨hm, replies_first hm⟩
  | next id => exact ⟨hm, replies_next hm id⟩
  | list =>
    have hreply : Replies cmp m.entries .list _ _ := .list
    rw [← hm.toList_eq] at hreply
    exact ⟨hm, hreply⟩
  | drain =>
    have hreply : Replies cmp m.entries .drain _ _ := .drain
    rw [← values_drain hm, ← entries_drain hm] at hreply
    exact ⟨wellFormed_drain hm, hreply⟩

theorem dialogue_answerAll (hm : m.WellFormed) (queries : List (Query K V)) :
    (m.answerAll queries).2.WellFormed ∧
      Dialogue cmp m.entries queries (m.answerAll queries).1 (m.answerAll queries).2.entries := by
  induction queries generalizing m with
  | nil => exact ⟨hm, .nil⟩
  | cons query queries ih =>
    obtain ⟨hwf, hreply⟩ := replies_answer hm query
    obtain ⟨hleft, hdialogue⟩ := ih hwf
    exact ⟨hleft, .cons hreply hdialogue⟩

/-- From any entry on, a walk sees the entries that are left. -/
theorem walk_of_split (hm : m.WellFormed) {before after : List (Handle × K × V)}
    (h : m.entries = before ++ after) : Walk m (after.map (·.1)).head? (after.map (·.1)) := by
  induction after generalizing before with
  | nil => exact .finished
  | cons x after ih =>
    have hsorted : Ascending cmp (before ++ x :: after) := by
      rw [← h]
      exact hm.entries_sorted
    have hx : x ∈ m.entries := by
      rw [h]
      exact List.mem_append_right _ List.mem_cons_self
    have hnext : m.next? x.1 = (after.map (·.1)).head? := by
      rw [hm.next?_of_some (hm.mem_entries.mp hx), h, hsorted.filter_above]
    have hsplit : m.entries = (before ++ [x]) ++ after := by
      rw [h, List.append_assoc]
      rfl
    have hrest := ih hsplit
    rw [← hnext] at hrest
    exact .visit hrest

/-- Whatever a map is asked from the start, it answers as a list that is kept in ascending order. A
walk sees the handles of that list in order, and so does the map's own list of entries. -/
theorem answers_as_sorted_list (queries : List (Query K V)) :
    ∃ entries : List (Handle × K × V),
      Dialogue cmp [] queries ((empty : OrderedMap K V cmp).answerAll queries).1 entries ∧
        Ascending cmp entries ∧ (entries.map (·.1)).Nodup ∧
        ((empty : OrderedMap K V cmp).answerAll queries).2.size = entries.length ∧
        Walk ((empty : OrderedMap K V cmp).answerAll queries).2
          ((empty : OrderedMap K V cmp).answerAll queries).2.first? (entries.map (·.1)) ∧
        ((empty : OrderedMap K V cmp).answerAll queries).2.toList = entries.map (·.2) := by
  have hempty : (empty : OrderedMap K V cmp).WellFormed := wellFormed_empty
  obtain ⟨hwf, hdialogue⟩ := dialogue_answerAll hempty queries
  have hwalk := walk_of_split hwf (List.nil_append _).symm
  rw [← hwf.first?_eq] at hwalk
  exact ⟨_, hdialogue, hwf.entries_sorted, hwf.entries_handles_nodup, hwf.size_eq, hwalk,
    hwf.toList_eq⟩

/-- Questions to a map of numbers in the order of their last digits. -/
def lastDigitQueries : List (Query Nat String) :=
  [.insert 18 "a", .insert 3 "b", .insert 28 "c", .insert 11 "d", .insert 6 "e", .insert 9 "f",
    .find 16, .next ⟨1, 0⟩, .erase ⟨1, 0⟩, .next ⟨1, 0⟩, .insert 42 "g", .next ⟨2, 0⟩,
    .update ⟨3, 0⟩ (· ++ "!"), .first, .list, .drain, .first]

theorem lastDigitQueries_answered :
    ((empty : OrderedMap Nat String (compareOn (· % 10))).answerAll lastDigitQueries).1 =
      [.inserted (.added ⟨0, 0⟩), .inserted (.added ⟨1, 0⟩), .inserted (.existing ⟨0, 0⟩),
        .inserted (.added ⟨2, 0⟩), .inserted (.added ⟨3, 0⟩), .inserted (.added ⟨4, 0⟩),
        .handle (some ⟨3, 0⟩), .handle (some ⟨3, 0⟩), .entry (some (3, "b")), .handle none,
        .inserted (.added ⟨1, 1⟩), .handle (some ⟨1, 1⟩), .value (some "e"),
        .handle (some ⟨2, 0⟩), .entries [(11, "d"), (42, "g"), (6, "e!"), (18, "a"), (9, "f")],
        .values ["d", "g", "e!", "a", "f"], .handle none] ∧
    ∃ entries : List (Handle × Nat × String),
      Dialogue (compareOn (· % 10)) [] lastDigitQueries
          ((empty : OrderedMap Nat String (compareOn (· % 10))).answerAll lastDigitQueries).1
          entries ∧
        Ascending (compareOn (· % 10)) entries ∧ (entries.map (·.1)).Nodup := by
  obtain ⟨entries, hdialogue, hsorted, hnodup, _⟩ :=
    @answers_as_sorted_list Nat String (compareOn (· % 10)) _ lastDigitQueries
  refine ⟨?_, entries, hdialogue, hsorted, hnodup⟩
  decide +kernel

end DuplexRelay.OrderedMap
