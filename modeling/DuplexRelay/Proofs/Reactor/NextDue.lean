import DuplexRelay.Proofs.Reactor.RequestEffects

/-! The walk over the registrations. Wherever it goes on, it finds the first registration that has
something to be told, because those that it passed over have nothing. -/

namespace DuplexRelay.Reactor

variable {C : Type} {r r' : Reactor C} {id i : Handle} {cursor : Option Handle} {due : Due C}

theorem due?_eq (r : Reactor C) (id : Handle) :
    r.due? id = (r.registrations.entry? id).bind fun e =>
      (noticeOf e.1 e.2).map fun n => ⟨id, n.events, n.callback⟩ := by
  unfold due? OrderedMap.get? noticeOf
  cases r.registrations.entry? id with
  | none => rfl
  | some e =>
    cases hc : e.2.callback with
    | none => cases hp : e.2.pending.isEmpty <;> simp [hc]
    | some callback => cases hp : e.2.pending.isEmpty <;> simp [hc, hp]

theorem nextDue?_none_eq (hr : r.registrations.WellFormed) :
    r.nextDue? none = r.entries.findSome? fun x =>
      (noticeOf x.2.1 x.2.2).map fun n => ⟨x.1, n.events, n.callback⟩ := by
  unfold nextDue? handlesFrom
  dsimp only
  rw [hr.handles_eq, List.findSome?_map, ← List.head?_filterMap, ← List.head?_filterMap]
  congr 1
  apply List.filterMap_congr
  rintro ⟨id, e⟩ hx
  simp only [Function.comp_apply, due?_eq, hr.mem_entries.mp hx, Option.bind_some]

theorem undelivered_of_nextDue?_none (hr : r.registrations.WellFormed)
    (h : r.nextDue? none = none) : r.undelivered = [] := by
  rw [nextDue?_none_eq hr, List.findSome?_eq_none_iff] at h
  unfold undelivered
  rw [List.filterMap_eq_nil_iff]
  intro x hx
  simpa using h x hx

/-- The first registration that has something to be told stands behind others that have not. -/
theorem nextDue?_split (hr : r.registrations.WellFormed) (h : r.nextDue? none = some due) :
    ∃ fd reg before after, r.entries = before ++ (due.id, fd, reg) :: after ∧
      (∀ x ∈ before, noticeOf x.2.1 x.2.2 = none) ∧
      noticeOf fd reg = some ⟨fd, due.events, due.callback⟩ := by
  rw [nextDue?_none_eq hr, List.findSome?_eq_some_iff] at h
  obtain ⟨before, ⟨id, fd, reg⟩, after, hsplit, hnotice, hbefore⟩ := h
  rw [Option.map_eq_some_iff] at hnotice
  obtain ⟨n, hn, rfl⟩ := hnotice
  refine ⟨fd, reg, before, after, hsplit, ?_, ?_⟩
  · intro x hx
    simpa using hbefore x hx
  · have hfd := noticeOf_fd hn
    dsimp only at hn hfd
    rw [hn, ← hfd]

theorem due?_update {f : Registration C → Registration C}
    (h : ∀ e, r.registrations.entry? id = some e → noticeOf e.1 (f e.2) = noticeOf e.1 e.2) :
    (r.update id f).due? i = r.due? i := by
  rw [due?_eq, due?_eq]
  change (OrderedMap.entry? (OrderedMap.modify id f r.registrations) i).bind _ = _
  rw [OrderedMap.entryAt_modify]
  cases he : r.registrations.entry? i with
  | none => rfl
  | some e =>
    by_cases hi : i = id
    · rw [hi] at he
      simp [hi, h e he]
    · simp [hi]

theorem handles_update (f : Registration C → Registration C) (id : Handle) (r : Reactor C) :
    (r.update id f).registrations.handles = r.registrations.handles :=
  OrderedMap.handles_modify f r.registrations id

theorem due?_takeDue_self (id : Handle) (r : Reactor C) : (r.takeDue id).due? id = none := by
  rw [due?_eq]
  change (OrderedMap.entry? (OrderedMap.modify id _ r.registrations) id).bind _ = _
  rw [OrderedMap.entryAt_modify]
  cases r.registrations.entry? id with
  | none => rfl
  | some e => simp [noticeOf_none]

theorem due?_takeDue_other (h : i ≠ id) : (r.takeDue id).due? i = r.due? i := by
  rw [due?_eq, due?_eq]
  change (OrderedMap.entry? (OrderedMap.modify id _ r.registrations) i).bind _ = _
  rw [OrderedMap.entryAt_modify]
  cases r.registrations.entry? i with
  | none => rfl
  | some e => simp [h]

theorem sound_takeDue (hr : r.Sound none) (id : Handle) : (r.takeDue id).Sound (some id) := by
  refine ⟨OrderedMap.wellFormed_modify _ hr.wf id, ?_⟩
  intro i fd reg hx hcallback
  obtain ⟨old, hold, rfl⟩ := mem_entries_update hx
  by_cases hi : i = id
  · rw [if_pos hi, hi]
    exact ⟨rfl, rfl⟩
  · rw [if_neg hi] at hcallback
    cases (hr.resting hold hcallback).1

theorem undelivered_takeDue (hr : r.Sound none) (h : r.nextDue? none = some due) :
    ∃ fd, r.undelivered = ⟨fd, due.events, due.callback⟩ :: (r.takeDue due.id).undelivered := by
  obtain ⟨fd, reg, before, after, hsplit, hbefore, hnotice⟩ := nextDue?_split hr.wf h
  have hnodup := hr.wf.entries_handles_nodup
  change (r.entries.map (·.1)).Nodup at hnodup
  rw [hsplit, List.map_append, List.map_cons, List.nodup_append, List.nodup_cons] at hnodup
  have hdry : before.filterMap (fun x => noticeOf x.2.1 x.2.2) = [] := by
    rw [List.filterMap_eq_nil_iff]
    exact hbefore
  have hother : ∀ x ∈ after, x.1 ≠ due.id := by
    intro x hx heq
    exact hnodup.2.1.1 (List.mem_map.mpr ⟨x, hx, heq⟩)
  refine ⟨fd, ?_⟩
  unfold undelivered takeDue
  rw [entries_update, hsplit, List.map_append, List.map_cons, List.filterMap_append,
    List.filterMap_append, List.filterMap_cons, List.filterMap_cons, hnotice, hdry,
    List.filterMap_map, List.filterMap_map]
  have hbefore' : before.filterMap ((fun x => noticeOf x.2.1 x.2.2) ∘ fun x =>
      if x.1 = due.id then (x.1, x.2.1, { x.2.2 with pending := .none, callback := none })
      else x) = [] := by
    rw [List.filterMap_eq_nil_iff]
    intro x hx
    simp only [Function.comp_apply]
    split
    · exact noticeOf_none rfl
    · exact hbefore x hx
  have hafter : after.filterMap ((fun x => noticeOf x.2.1 x.2.2) ∘ fun x =>
      if x.1 = due.id then (x.1, x.2.1, { x.2.2 with pending := .none, callback := none })
      else x) = after.filterMap fun x => noticeOf x.2.1 x.2.2 := by
    apply List.filterMap_congr
    intro x hx
    simp only [Function.comp_apply, if_neg (hother x hx)]
  rw [hbefore', hafter, if_pos rfl, noticeOf_none rfl]
  rfl

theorem noticeOf_putBack {fd : Fd} {reg : Registration C} {callback : C}
    (hr : r.Sound (some id)) (hx : (i, fd, reg) ∈ r.entries) :
    noticeOf fd { reg with callback := reg.callback.or (some callback) } = noticeOf fd reg := by
  cases hc : reg.callback with
  | none =>
    have hp := (hr.resting hx hc).2
    rw [noticeOf_none hp]
    exact noticeOf_none hp
  | some running => simp [noticeOf, hc]

theorem sound_putBack (hr : r.Sound (some id)) (callback : C) :
    (r.putBack id callback).Sound none := by
  refine ⟨OrderedMap.wellFormed_modify _ hr.wf id, ?_⟩
  intro i fd reg hx hcallback
  obtain ⟨old, hold, rfl⟩ := mem_entries_update hx
  by_cases hi : i = id
  · simp [hi] at hcallback
  · rw [if_neg hi] at hcallback
    exact absurd (Option.some.inj (hr.resting hold hcallback).1).symm hi

theorem undelivered_putBack (hr : r.Sound (some id)) (callback : C) :
    (r.putBack id callback).undelivered = r.undelivered :=
  undelivered_update fun _ _ hx => noticeOf_putBack hr hx

theorem due?_putBack (hr : r.Sound (some id)) (callback : C) (i : Handle) :
    (r.putBack id callback).due? i = r.due? i :=
  due?_update fun _ he => noticeOf_putBack hr (hr.wf.mem_entries.mpr he)

theorem untouched_performed {q : Request C} (hb : r.Busy) (h : Performed r q r')
    (ht : r'.touched = false) :
    r.touched = false ∧ r'.registrations.handles = r.registrations.handles ∧
      ∀ i, r'.due? i = r.due? i := by
  cases h with
  | refused | ignored | absent | missed | deferred => exact ⟨ht, rfl, fun _ => rfl⟩
  | added | removed => cases ht
  | modified =>
    refine ⟨ht, handles_update _ _ r, fun i => due?_update fun e _ => ?_⟩
    exact noticeOf_quiet (quiet_interest _) e.1 e.2
  | forced =>
    refine ⟨ht, handles_update _ _ r, fun i => due?_update fun e _ => ?_⟩
    exact noticeOf_quiet (quiet_forced _) e.1 e.2
  | disposed hp =>
    rcases hb with hb | hb <;> simp [hp] at hb

theorem untouched_performAll {qs : List (Request C)} (hb : r.Busy)
    (h : Request.performAll qs r = .ok r') (ht : r'.touched = false) :
    r.touched = false ∧ r'.registrations.handles = r.registrations.handles ∧
      ∀ i, r'.due? i = r.due? i := by
  induction qs generalizing r with
  | nil =>
    cases h
    exact ⟨ht, rfl, fun _ => rfl⟩
  | cons q rest ih =>
    obtain ⟨r₁, hq, h⟩ := Checked.bind_eq_ok_iff.mp h
    have hperformed := performed hq
    obtain ⟨ht₁, hhandles, hdues⟩ := ih (busy_performed hb hperformed) h
    obtain ⟨ht₀, hhandles', hdues'⟩ := untouched_performed hb hperformed ht₁
    exact ⟨ht₀, hhandles.trans hhandles', fun i => (hdues i).trans (hdues' i)⟩

/-- Whatever stands up to the cursor has nothing to be told. -/
def NothingDueUpTo (cursor : Option Handle) (r : Reactor C) : Prop :=
  ∀ id, cursor = some id → ∃ before after, r.registrations.handles = before ++ id :: after ∧
    id ∉ before ∧ r.due? id = none ∧ ∀ i ∈ before, r.due? i = none

theorem nothingDueUpTo_none (r : Reactor C) : NothingDueUpTo none r := by
  intro id h
  cases h

theorem nextDue?_of_nothingDueUpTo (h : NothingDueUpTo cursor r) :
    r.nextDue? cursor = r.nextDue? none := by
  cases cursor with
  | none => rfl
  | some id =>
    obtain ⟨before, after, hsplit, hmem, hid, hbefore⟩ := h id rfl
    have hskip : (before ++ id :: after).dropWhile (· ≠ id) = id :: after := by
      rw [List.dropWhile_append_of_pos]
      · simp
      · intro i hi
        have hne : i ≠ id := fun heq => hmem (heq ▸ hi)
        simpa using hne
    have hnone : before.findSome? r.due? = none := by
      rw [List.findSome?_eq_none_iff]
      exact hbefore
    unfold nextDue? handlesFrom
    dsimp only
    rw [hsplit, hskip, List.findSome?_append, hnone, List.findSome?_cons, hid]
    rfl

/-- After the first one was told, the walk can go on behind it. -/
theorem nothingDueUpTo_due (hr : r.registrations.WellFormed) (h : r.nextDue? none = some due)
    (hhandles : r'.registrations.handles = r.registrations.handles)
    (hid : r'.due? due.id = none) (hother : ∀ i, i ≠ due.id → r'.due? i = r.due? i) :
    NothingDueUpTo (some due.id) r' := by
  obtain ⟨fd, reg, before, after, hsplit, hbefore, _⟩ := nextDue?_split hr h
  have hnodup := hr.entries_handles_nodup
  change (r.entries.map (·.1)).Nodup at hnodup
  have hentries : r.registrations.handles = r.entries.map (·.1) := hr.handles_eq
  rw [hsplit, List.map_append, List.map_cons] at hentries hnodup
  have hmem : due.id ∉ before.map (·.1) :=
    fun hi => (List.nodup_append.mp hnodup).2.2 _ hi _ List.mem_cons_self rfl
  rintro id ⟨⟩
  refine ⟨_, _, hhandles.trans hentries, hmem, hid, ?_⟩
  intro i hi
  obtain ⟨⟨j, d, old⟩, hx, rfl⟩ := List.mem_map.mp hi
  have hold : r.registrations.entry? j = some (d, old) := by
    apply hr.mem_entries.mp
    change _ ∈ r.entries
    rw [hsplit]
    exact List.mem_append_left _ hx
  have hne : j ≠ due.id := fun heq => hmem (heq ▸ hi)
  rw [hother j hne, due?_eq, hold]
  simp [hbefore _ hx]

end DuplexRelay.Reactor
