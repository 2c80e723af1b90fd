import DuplexRelay.Proofs.Reactor.Requests

/-! The effect of a request during a pass, on what was not delivered yet and on the table of the
descriptors that are registered. Along a sequence of requests the effects add up. -/

namespace DuplexRelay

namespace Reactor

variable {C : Type} {r r' : Reactor C} {id : Handle} {fd : Fd} {reg : Registration C}

/-- A pass is going on, even if the reactor was discarded in it. -/
def Busy (r : Reactor C) : Prop := r.phase = .dispatching ∨ r.phase = .pendingDispose

theorem busy_performed {q : Request C} (hb : r.Busy) (h : Performed r q r') : r'.Busy := by
  cases h with
  | disposed hp =>
    rcases hb with hb | hb <;> simp [hp] at hb
  | deferred => exact .inr rfl
  | refused | ignored | absent | missed | added | modified | removed | forced => exact hb

/-- During a pass, only the removal of a registration takes away what it must be told. -/
theorem undelivered_performed {running : Option Handle} {q : Request C} (hr : r.Sound running)
    (hb : r.Busy) (h : Performed r q r') :
    r'.undelivered = r.undelivered.filter (·.fd ∉ q.removed) := by
  have hsame : r.undelivered = r.undelivered.filter fun n => n.fd ∉ ([] : List Fd) := by simp
  cases h with
  | refused | ignored | missed | deferred => exact hsame
  | absent hfind =>
    symm
    rw [List.filter_eq_self]
    intro n hn
    obtain ⟨x, hx, hnotice⟩ := List.mem_filterMap.mp hn
    have hne := hr.wf.find?_eq_none_iff.mp hfind x hx
    rw [ne_eq, Std.LawfulEqCmp.compare_eq_iff_eq, ← noticeOf_fd hnotice] at hne
    simp only [Request.removed, List.mem_singleton, decide_eq_true_eq]
    exact fun heq => hne heq.symm
  | added hd hs hi => exact (entries_added hr.wf hi).2.trans hsame
  | modified => exact (undelivered_quiet (quiet_interest _) _ r).trans hsame
  | forced => exact (undelivered_quiet (quiet_forced _) _ r).trans hsame
  | @removed fd id hfind =>
    unfold undelivered
    change ((r.registrations.erase _).2.entries).filterMap _ = _
    rw [entries_removed hr.wf hfind, List.filterMap_filter, List.filter_filterMap]
    apply List.filterMap_congr
    intro x _
    cases hn : noticeOf x.2.1 x.2.2 with
    | none => simp
    | some n =>
      have hfd := noticeOf_fd hn
      by_cases hx : x.2.1 = fd <;> simp [Request.removed, hfd, hx, Option.filter]
  | disposed hp =>
    rcases hb with hb | hb <;> simp [hp] at hb

/-- Which descriptors are registered, and whether the reactor was discarded. -/
def table (r : Reactor C) : Table := ⟨r.isRegistered, r.isDisposed⟩

theorem isRegistered_added {interest : SocketEvents} {callback : C}
    {registrations : OrderedMap Fd (Registration C) Fd.order} (hr : r.registrations.WellFormed)
    (hi : r.registrations.insert fd { interest, callback := some callback } =
      (.added id, registrations)) :
    ({ r with registrations, touched := true } : Reactor C).isRegistered =
      fun d => d = fd || r.isRegistered d := by
  funext d
  rw [Bool.eq_iff_iff, isRegistered_iff (OrderedMap.wellFormed_added hr hi), Bool.or_eq_true,
    isRegistered_iff hr, decide_eq_true_eq]
  have hmem := (entries_added hr hi).1
  constructor
  · rintro ⟨x, hx, rfl⟩
    rcases (hmem x).mp hx with rfl | hx
    · exact .inl rfl
    · exact .inr ⟨x, hx, rfl⟩
  · rintro (rfl | ⟨x, hx, rfl⟩)
    · exact ⟨_, (hmem _).mpr (.inl rfl), rfl⟩
    · exact ⟨x, (hmem x).mpr (.inr hx), rfl⟩

theorem isRegistered_removed (hr : r.registrations.WellFormed)
    (h : r.registrations.find? fd = some id) :
    ({ r with registrations := (r.registrations.erase id).2, touched := true } :
      Reactor C).isRegistered = fun d => d ≠ fd && r.isRegistered d := by
  funext d
  rw [Bool.eq_iff_iff, isRegistered_iff (OrderedMap.wellFormed_erase hr id), Bool.and_eq_true,
    isRegistered_iff hr, decide_eq_true_eq]
  unfold entries
  rw [entries_removed hr h]
  simp only [List.mem_filter, decide_eq_true_eq]
  constructor
  · rintro ⟨x, ⟨hx, hne⟩, rfl⟩
    exact ⟨hne, x, hx, rfl⟩
  · rintro ⟨hne, x, hx, rfl⟩
    exact ⟨x, ⟨hx, hne⟩, rfl⟩

theorem registered_table (r : Reactor C) (fd : Fd) :
    r.table.registered fd = (r.registrations.find? fd).isSome := rfl

theorem table_add (hr : r.registrations.WellFormed) (fd : Fd) (interest : SocketEvents)
    (callback : C) : ((Request.add fd interest callback).perform r).map table =
      (Request.add fd interest callback).enter r.table := by
  change Except.map table (Except.map _ (r.add fd interest callback)) = _
  unfold add
  rw [Request.enter, show r.table.discarded = r.isDisposed from rfl, registered_table]
  by_cases hd : (r.isDisposed || !selectable fd) = true
  · rw [if_pos hd]
    cases hd' : r.isDisposed <;> simp_all [Except.map]
  · rw [if_neg hd]
    simp only [Bool.or_eq_true, Bool.not_eq_true', not_or, Bool.not_eq_true,
      Bool.not_eq_false] at hd
    simp only [hd.1, hd.2, Bool.false_eq_true, if_false, Bool.not_true]
    cases hfind : r.registrations.find? fd with
    | some id => simp [OrderedMap.insert_of_find? hfind]
    | none =>
      rcases hi : r.registrations.insert fd { interest, callback := some callback } with
        ⟨id | id, registrations⟩
      · simp only [hi, Checked.map_ok, Option.isSome_none, Bool.false_eq_true, if_false]
        rw [table, isRegistered_added hr hi, ← hd.1]
        rfl
      · rw [OrderedMap.find?_of_existing hi] at hfind
        cases hfind

theorem table_modify (hr : r.registrations.WellFormed) (hp : r.phase ≠ .disposed) (fd : Fd)
    (interest : SocketEvents) : (r.modify fd interest).map table =
      (Request.modify (C := C) fd interest).enter r.table := by
  unfold modify
  rw [Request.enter, if_neg hp, registered_table]
  cases hfind : r.registrations.find? fd with
  | some id =>
    rw [Checked.map_ok, table, isRegistered_update hr]
    rfl
  | none => rfl

theorem table_del (hr : r.registrations.WellFormed) (fd : Fd) :
    .ok (r.del fd).table = (Request.del (C := C) fd).enter r.table := by
  unfold del
  rw [Request.enter]
  cases hfind : r.registrations.find? fd with
  | some id =>
    simp only [table]
    rw [isRegistered_removed hr hfind]
    rfl
  | none =>
    have hsame : r.isRegistered = fun d => d ≠ fd && r.isRegistered d := by
      funext d
      by_cases hd : d = fd
      · subst hd
        simp [isRegistered, hfind]
      · simp [hd]
    simp only [table]
    rw [← hsame]

theorem table_reschedule (hr : r.registrations.WellFormed) (fd : Fd) (events : SocketEvents) :
    (r.reschedule fd events).2.table = r.table := by
  unfold reschedule
  cases hfind : r.registrations.find? fd with
  | some id =>
    simp only [table]
    rw [isRegistered_update hr]
    rfl
  | none => rfl

theorem table_discard (hb : r.Busy) :
    r.discard.map table = (Request.discard (C := C)).enter r.table := by
  unfold discard
  rw [Request.enter]
  rcases hb with hb | hb
  · simp only [hb, Checked.map_ok]
    have hno : r.table.discarded = false := by simp [table, isDisposed, hb]
    simp only [hno, Bool.false_eq_true, if_false]
    rfl
  · simp only [hb, Checked.map_error]
    have hyes : r.table.discarded = true := by simp [table, isDisposed, hb]
    simp only [hyes, if_true]

/-- A request during a pass violates a contract exactly where the table says so. -/
theorem table_perform {running : Option Handle} (hr : r.Sound running) (hb : r.Busy)
    (q : Request C) : (q.perform r).map table = q.enter r.table := by
  cases q with
  | add fd interest callback => exact table_add hr.wf fd interest callback
  | modify fd interest =>
    have hp : r.phase ≠ .disposed := by
      rcases hb with hb | hb <;> simp [hb]
    exact table_modify hr.wf hp fd interest
  | del fd => exact table_del hr.wf fd
  | reschedule fd events => exact congrArg Except.ok (table_reschedule hr.wf fd events)
  | discard => exact table_discard hb

/-- All that a callback asks for comes to a result, and none of it touches what is to be told to
others, apart from removing them. -/
theorem performedAll {running : Option Handle} {qs : List (Request C)} (hr : r.Sound running)
    (hb : r.Busy) (h : Request.performAll qs r = .ok r') :
    r'.Sound running ∧ r'.Busy ∧
      r'.undelivered = r.undelivered.filter (·.fd ∉ qs.flatMap Request.removed) := by
  induction qs generalizing r with
  | nil =>
    cases h
    exact ⟨hr, hb, by simp⟩
  | cons q rest ih =>
    obtain ⟨r₁, hq, h⟩ := Checked.bind_eq_ok_iff.mp h
    have hperformed := performed hq
    obtain ⟨hr', hb', hrest⟩ := ih (sound_performed hr hperformed) (busy_performed hb hperformed) h
    refine ⟨hr', hb', ?_⟩
    rw [hrest, undelivered_performed hr hb hperformed, List.filter_filter]
    apply List.filter_congr
    intro n _
    simp [Bool.and_comm]

theorem table_performAll {running : Option Handle} (hr : r.Sound running) (hb : r.Busy)
    (qs : List (Request C)) :
    (Request.performAll qs r).map table = Request.enterAll qs r.table := by
  induction qs generalizing r with
  | nil => rfl
  | cons q rest ih =>
    unfold Request.performAll Request.enterAll
    rw [← table_perform hr hb, Checked.bind_map, Checked.map_bind]
    cases hq : q.perform r with
    | error v => rfl
    | ok r₁ =>
      have hperformed := performed hq
      exact ih (sound_performed hr hperformed) (busy_performed hb hperformed)

end Reactor

end DuplexRelay
