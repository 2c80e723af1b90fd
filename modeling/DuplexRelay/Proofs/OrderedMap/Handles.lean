import DuplexRelay.Proofs.OrderedMap.Slots

/-! What the handles of ordered maps are worth. A slot's generation counts how often the slot was
freed, so a handle resolves to the entry that it was given for until that entry is removed, and to
nothing from then on, unless a slot is freed as often as generations can tell apart. -/

namespace DuplexRelay.OrderedMap

variable {K V : Type} {cmp : K → K → Ordering} {m m' : OrderedMap K V cmp} {key : K} {value : V}
  {id : Handle} {entry : K × V} {entries left : List (Handle × K × V)} {query : Query K V}
  {reply : Answer K V} {index : Nat}

section Lifetimes

variable [Std.TransCmp cmp]

/-- The generation of a slot counts how often the slot was freed. -/
theorem generation_answerAll (hm : m.WellFormed) (index : Nat) (queries : List (Query K V)) :
    ((m.answerAll queries).2.handleAt index).generation =
      (m.handleAt index).generation + UInt32.ofNat (m.frees index queries) := by
  induction queries generalizing m with
  | nil => simp [answerAll, frees]
  | cons query queries ih =>
    have hrest := ih (replies_answer hm query).1
    change ((((m.answer query).2).answerAll queries).2.handleAt index).generation = _
    rw [hrest]
    simp only [frees]
    cases slotStep_answer hm query index with
    | kept hsame hsome =>
      have hnot : ((m.held index).isSome && ((m.answer query).2.held index).isNone) = false := by
        cases hheld : m.held index with
        | none => rfl
        | some e =>
          rw [hheld] at hsome
          simpa using hsome rfl
      rw [hsame, hnot]
      simp
    | freed hsome hnone hgeneration =>
      rw [hgeneration, hsome, hnone]
      simp [UInt32.ofNat_add, UInt32.add_assoc]

theorem resolves_of_entry (hm : m.WellFormed) (h : m.entry? id = some entry) :
    Resolves m id entry.1 entry.2 := by
  have hfind : ∀ other, cmp other entry.1 = .eq → m.find? other = some id :=
    fun other he => hm.find?_eq_some_iff.mpr ⟨entry, hm.mem_entries.mpr h, he⟩
  refine ⟨?_, ?_, ?_, ?_, ?_⟩
  · simp [answer, key?, h]
  · simp [answer, get?, h]
  · simp [answer, get?, h]
  · simp [answer, erase, h]
  · intro other he
    simp [answer, hfind other he]

theorem entry_kept (hm : m.WellFormed) (h : m.entry? id = some entry)
    (hkept : query.removes id = false) :
    OrderedMap.entry? (m.answer query).2 id = some (entry.1, query.stores id entry.2) := by
  obtain ⟨hwf, hreply⟩ := replies_answer hm query
  exact hwf.mem_entries.mp (hreply.kept (hm.mem_entries.mpr h) hkept)

theorem entry_removed (hm : m.WellFormed) (hgone : query.removes id = true) :
    OrderedMap.entry? (m.answer query).2 id = none := by
  obtain ⟨hwf, hreply⟩ := replies_answer hm query
  rw [Option.eq_none_iff_forall_not_mem]
  intro e he
  exact hreply.removed hgone (hwf.mem_entries.mpr he)

theorem entry_kept_along (hm : m.WellFormed) (h : m.entry? id = some entry)
    {queries : List (Query K V)} (hkept : ∀ query ∈ queries, query.removes id = false) :
    OrderedMap.entry? (m.answerAll queries).2 id =
      some (entry.1, queries.foldl (fun value query => query.stores id value) entry.2) := by
  induction queries generalizing m entry with
  | nil => exact h
  | cons query queries ih =>
    have hstep := entry_kept hm h (hkept query List.mem_cons_self)
    exact ih (replies_answer hm query).1 hstep fun q hq => hkept q (List.mem_cons_of_mem query hq)

theorem frees_pos (hm : m.WellFormed) (h : m.entry? id = some entry) {queries : List (Query K V)}
    (hgone : ∃ query ∈ queries, query.removes id = true) : 0 < m.frees id.index queries := by
  induction queries generalizing m entry with
  | nil =>
    obtain ⟨query, hq, _⟩ := hgone
    cases hq
  | cons query queries ih =>
    simp only [frees]
    cases hremoves : query.removes id with
    | false =>
      have hlater : ∃ q ∈ queries, q.removes id = true := by
        obtain ⟨q, hq, hr⟩ := hgone
        rcases List.mem_cons.mp hq with rfl | hin
        · rw [hremoves] at hr
          cases hr
        · exact ⟨q, hin, hr⟩
      have hrest := ih (replies_answer hm query).1 (entry_kept hm h hremoves) hlater
      omega
    | true =>
      have hlost := entry_removed hm hremoves
      obtain ⟨hid, hheld⟩ := entryAt_eq_some_iff.mp h
      cases slotStep_answer hm query id.index with
      | kept hsame hsome =>
        -- a slot that kept its handle and is occupied would still resolve
        obtain ⟨e, he⟩ := Option.isSome_iff_exists.mp (hsome (by rw [hheld]; rfl))
        have hthere := entryAt_eq_some_iff.mpr ⟨hsame.trans hid, he⟩
        rw [hlost] at hthere
        cases hthere
      | freed hsome hnone _ =>
        rw [hsome, hnone]
        exact Nat.lt_of_lt_of_le Nat.one_pos (Nat.le_add_right 1 _)

/-- Once an entry is removed its handle resolves to nothing, as long as generations differ. -/
theorem entry_gone (hm : m.WellFormed) (h : m.entry? id = some entry)
    {queries : List (Query K V)} (hgone : ∃ query ∈ queries, query.removes id = true)
    (hfrees : m.frees id.index queries < UInt32.size) :
    OrderedMap.entry? (m.answerAll queries).2 id = none := by
  have hpos := frees_pos hm h hgone
  have hgeneration := generation_answerAll hm id.index queries
  obtain ⟨hid, _⟩ := entryAt_eq_some_iff.mp h
  rw [entryAt_eq, if_neg]
  intro hagain
  rw [hid, hagain] at hgeneration
  have hzero : UInt32.ofNat (m.frees id.index queries) = 0 := by
    simpa using hgeneration
  have hnat := congrArg UInt32.toNat hzero
  rw [UInt32.toNat_ofNat_of_lt' hfrees] at hnat
  simp only [UInt32.toNat_zero] at hnat
  omega

/-- The handle of an entry is not given to another one, neither while the entry is there nor
later. -/
theorem not_given_again (hm : m.WellFormed) (h : m.entry? id = some entry)
    {queries : List (Query K V)} (hfrees : m.frees id.index queries < UInt32.size) :
    .inserted (.added id) ∉ (m.answerAll queries).1 := by
  intro hin
  obtain ⟨before, query, after, hsplit, hreply⟩ := answered hin
  have hwf := (dialogue_answerAll hm before).1
  obtain ⟨hwf', hgiven⟩ := replies_answer hwf query
  rw [hreply] at hgiven
  obtain ⟨hfresh, e, hthere⟩ := hgiven.given
  -- the entry has been removed before, and so the handle is stale even after the insertion
  have hremoved : ∃ q ∈ before, q.removes id = true := by
    by_contra hnone
    simp only [not_exists, not_and, Bool.not_eq_true] at hnone
    exact hfresh _ (hwf.mem_entries.mpr (entry_kept_along hm h hnone))
  obtain ⟨q, hq, hr⟩ := hremoved
  have hgone : ∃ q ∈ before ++ [query], q.removes id = true :=
    ⟨q, List.mem_append_left _ hq, hr⟩
  have hsmaller : m.frees id.index (before ++ [query]) < UInt32.size := by
    have hall : queries = (before ++ [query]) ++ after := by
      rw [hsplit, List.append_assoc]
      rfl
    rw [hall, frees_append] at hfrees
    omega
  have hlost := entry_gone hm h hgone hsmaller
  rw [answerAll_append] at hlost
  change OrderedMap.entry? ((m.answerAll before).2.answer query).2 id = none at hlost
  rw [hwf'.mem_entries.mp hthere] at hlost
  cases hlost

/-- What an insertion gives is the handle of an entry with an equal key, old or new. -/
theorem entry_inserted (hm : m.WellFormed) (key : K) (value : V) :
    (m.insert key value).2.WellFormed ∧
      ∃ entry, OrderedMap.entry? (m.insert key value).2 (m.insert key value).1.handle = some entry ∧
        cmp key entry.1 = .eq ∧
        (m.insert key value = (.existing (m.insert key value).1.handle, m) ∨
          entry = (key, value)) := by
  obtain ⟨hwf, hreply⟩ := replies_insert hm key value
  refine ⟨hwf, ?_⟩
  rcases h : m.insert key value with ⟨id | id, m'⟩
  · rw [h] at hwf
    have hentries := entries_added hm h
    have hin : (id, key, value) ∈ m'.entries := by
      rw [hentries]
      exact List.mem_append_right _ List.mem_cons_self
    exact ⟨(key, value), hwf.mem_entries.mp hin, Std.ReflCmp.compare_self, .inr rfl⟩
  · have hfind := find?_of_existing h
    obtain ⟨e, he, heq⟩ := hm.find?_eq_some_iff.mp hfind
    rw [insert_of_find? hfind] at h
    cases h
    exact ⟨e, hm.mem_entries.mp he, heq, .inl rfl⟩

/-- A handle that an insertion gives resolves to the entry of the key, with what was stored through
the handle since, until a query removes that entry. From then on the handle is stale, and at no
time is it given to another entry. -/
theorem handles_never_alias (before between : List (Query K V)) (key : K) (value : V)
    (hfrees : ∀ index, (empty : OrderedMap K V cmp).frees index
      (before ++ .insert key value :: between) < UInt32.size) :
    let m := ((empty : OrderedMap K V cmp).answerAll before).2
    let id := (m.insert key value).1.handle
    let last := (m.insert key value).2.answerAll between
    ∃ entry, OrderedMap.entry? (m.insert key value).2 id = some entry ∧ cmp key entry.1 = .eq ∧
      (m.insert key value = (.existing id, m) ∨ entry = (key, value)) ∧
      ((∀ query ∈ between, query.removes id = false) → Resolves last.2 id entry.1
        (between.foldl (fun value query => query.stores id value) entry.2)) ∧
      ((∃ query ∈ between, query.removes id = true) → Stale last.2 id) ∧
      .inserted (.added id) ∉ last.1 ∧ last.2.handles.Nodup := by
  intro m id last
  have hempty : (empty : OrderedMap K V cmp).WellFormed := wellFormed_empty
  have hm : m.WellFormed := (dialogue_answerAll hempty before).1
  obtain ⟨hwf, entry, hentry, hkey, hwhich⟩ := entry_inserted hm key value
  have hlast : last.2.WellFormed := (dialogue_answerAll hwf between).1
  have hlater : (m.insert key value).2.frees id.index between < UInt32.size := by
    have hall := hfrees id.index
    rw [frees_append] at hall
    simp only [frees] at hall
    change _ + (_ + (m.insert key value).2.frees id.index between) < _ at hall
    omega
  refine ⟨entry, hentry, hkey, hwhich, ?_, ?_, not_given_again hwf hentry hlater, ?_⟩
  · intro hkept
    exact resolves_of_entry hlast (entry_kept_along hwf hentry hkept)
  · intro hgone
    exact stale_of_entry (entry_gone hwf hentry hgone hlater)
  · rw [hlast.handles_eq]
    exact hlast.entries_handles_nodup

/-- Of the entries that are made here, the second is removed and its slot used again, and so is the
third after its value was changed. -/
def lastDigitChurn : List (Query Nat String) :=
  [.erase ⟨1, 0⟩, .insert 4 "e", .update ⟨2, 0⟩ (· ++ "!"), .erase ⟨2, 0⟩, .insert 9 "f"]

theorem handles_never_alias_reused :
    let m := ((empty : OrderedMap Nat String (compareOn (· % 10))).answerAll
      [.insert 18 "a", .insert 3 "b", .insert 28 "c"]).2
    (m.insert 6 "d").1 = .added ⟨2, 0⟩ ∧
      ((m.insert 6 "d").2.answerAll lastDigitChurn).1 =
        [.entry (some (3, "b")), .inserted (.added ⟨1, 1⟩), .value (some "d"),
          .entry (some (6, "d!")), .inserted (.added ⟨2, 1⟩)] ∧
      Resolves ((m.insert 6 "d").2.answerAll (lastDigitChurn.take 3)).2 ⟨2, 0⟩ 6 "d!" ∧
      Stale ((m.insert 6 "d").2.answerAll lastDigitChurn).2 ⟨2, 0⟩ := by
  intro m
  have hrare : ∀ between : List (Query Nat String), between.length ≤ 5 →
      ∀ index, (empty : OrderedMap Nat String (compareOn (· % 10))).frees index
        ([.insert 18 "a", .insert 3 "b", .insert 28 "c"] ++ .insert 6 "d" :: between) <
          UInt32.size := by
    intro between hshort index
    refine Nat.lt_of_le_of_lt (frees_le empty index _) ?_
    simp only [List.length_append, List.length_cons, List.length_nil, UInt32.size]
    omega
  have hinserted : (m.insert 6 "d").1 = .added ⟨2, 0⟩ := by decide +kernel
  obtain ⟨entry, _, _, hwhich, hresolves, _⟩ := @handles_never_alias Nat String
    (compareOn (· % 10)) _ [.insert 18 "a", .insert 3 "b", .insert 28 "c"]
    (lastDigitChurn.take 3) 6 "d" (hrare _ (by decide))
  obtain ⟨_, _, _, _, _, hstale, _⟩ := @handles_never_alias Nat String
    (compareOn (· % 10)) _ [.insert 18 "a", .insert 3 "b", .insert 28 "c"]
    lastDigitChurn 6 "d" (hrare _ (by decide))
  have hnew : entry = (6, "d") := by
    rcases hwhich with hexisting | hnew
    · have hfirst := congrArg Prod.fst hexisting
      change (m.insert 6 "d").1 = _ at hfirst
      rw [hinserted] at hfirst
      cases hfirst
    · exact hnew
  refine ⟨hinserted, by decide +kernel, ?_, ?_⟩
  · have h := hresolves (by decide)
    rw [hnew] at h
    change Resolves _ (m.insert 6 "d").1.handle _ _ at h
    rw [hinserted] at h
    exact h
  · have h := hstale (by decide)
    change Stale _ (m.insert 6 "d").1.handle at h
    rw [hinserted] at h
    exact h

end Lifetimes

end DuplexRelay.OrderedMap
