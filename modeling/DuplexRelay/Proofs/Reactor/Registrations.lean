import DuplexRelay.Proofs.Reactor.Snapshot

/-! What requests do to the registration of one descriptor. Requests for other descriptors leave it
as it is, and what is to be delivered in any case is never taken back. -/

namespace DuplexRelay

/-- Nothing that a registration must be told got lost. -/
structure Registration.NothingLost {C : Type} (reg reg' : Registration C) : Prop where
  callback : reg'.callback = reg.callback
  pending : reg'.pending = reg.pending
  forced : reg.forced.readable = true → reg'.forced.readable = true

namespace Registration

variable {C : Type} {reg reg₁ reg' : Registration C}

theorem NothingLost.refl (reg : Registration C) : reg.NothingLost reg := ⟨rfl, rfl, id⟩

theorem NothingLost.trans (h : reg.NothingLost reg₁) (h' : reg₁.NothingLost reg') :
    reg.NothingLost reg' :=
  ⟨h'.callback.trans h.callback, h'.pending.trans h.pending, h'.forced ∘ h.forced⟩

theorem kept_interest (interest : SocketEvents) (reg : Registration C) :
    reg.NothingLost { reg with interest } := ⟨rfl, rfl, id⟩

theorem kept_forced (events : SocketEvents) (reg : Registration C) :
    reg.NothingLost { reg with forced := reg.forced ∪ events } := by
  refine ⟨rfl, rfl, fun h => ?_⟩
  change (reg.forced.readable || events.readable) = true
  rw [h, Bool.true_or]

end Registration

namespace Request

variable {C : Type}

/-- The request changes nothing but the one registration, and does not remove it. -/
def OnlyAdjusts (fd : Fd) : Request C → Prop
  | modify d _ | reschedule d _ => d = fd
  | _ => False

/-- The request neither removes the registration nor changes what it waits for. -/
def Spares (fd : Fd) : Request C → Prop
  | modify d _ | del d => d ≠ fd
  | _ => True

theorem OnlyAdjusts.spares {q : Request C} {fd d : Fd} (h : q.OnlyAdjusts fd) (hd : d ≠ fd) :
    q.Spares d := by
  cases q with
  | modify => exact fun heq => hd (heq.symm.trans h)
  | reschedule => trivial
  | add | del | discard => cases h

end Request

namespace Reactor

variable {C : Type} {r r₁ r' : Reactor C} {id : Handle} {fd d : Fd} {reg : Registration C}

theorem registration?_eq_some_iff (hr : r.registrations.WellFormed) :
    r.registration? fd = some reg ↔ ∃ id, (id, fd, reg) ∈ r.entries := by
  unfold registration? OrderedMap.get?
  simp only [Option.bind_eq_some_iff, hr.find?_eq_some_iff, Option.map_eq_some_iff,
    ← hr.mem_entries, Std.LawfulEqCmp.compare_eq_iff_eq]
  constructor
  · rintro ⟨id, ⟨e, he, rfl⟩, e', he', rfl⟩
    have hsame := hr.mem_entries.mp he
    rw [hr.mem_entries.mp he'] at hsame
    cases hsame
    exact ⟨id, he⟩
  · rintro ⟨id, hx⟩
    exact ⟨id, ⟨_, hx, rfl⟩, _, hx, rfl⟩

theorem registration?_update (f : Registration C → Registration C) (id : Handle)
    (r : Reactor C) (fd : Fd) :
    (r.update id f).registration? fd = (r.registration? fd).map fun reg =>
      if r.registrations.find? fd = some id then f reg else reg := by
  have hfind : (r.update id f).registrations.find? fd = r.registrations.find? fd := by
    unfold update OrderedMap.find?
    rw [(OrderedMap.tree_modify f r.registrations id).1]
    congr 1
    funext index
    exact OrderedMap.handleAt_modify f r.registrations id index
  unfold registration?
  rw [hfind]
  cases hi : r.registrations.find? fd with
  | none => rfl
  | some i =>
    unfold update OrderedMap.get?
    simp only [Option.bind_some, OrderedMap.entryAt_modify, Option.map_map, Option.some.injEq]
    congr 1
    funext e
    simp only [Function.comp_apply]
    split <;> rfl

theorem registration?_update_self (f : Registration C → Registration C)
    (h : r.registrations.find? fd = some id) :
    (r.update id f).registration? fd = (r.registration? fd).map f := by
  rw [registration?_update, h]
  simp

theorem registration?_update_other (hr : r.registrations.WellFormed)
    (f : Registration C → Registration C) (h : r.registrations.find? fd = some id) (hd : d ≠ fd) :
    (r.update id f).registration? d = r.registration? d := by
  have hne : r.registrations.find? d ≠ some id := by
    intro hfind
    obtain ⟨e, he, hfd⟩ := hr.find?_eq_some_iff.mp h
    obtain ⟨e', he', hd'⟩ := hr.find?_eq_some_iff.mp hfind
    have hsame := hr.mem_entries.mp he
    rw [hr.mem_entries.mp he'] at hsame
    cases hsame
    rw [Std.LawfulEqCmp.compare_eq_iff_eq] at hfd hd'
    exact hd (hd'.trans hfd.symm)
  rw [registration?_update]
  simp [hne]

/-- The registration of a descriptor stays, with what it waits for, and nothing that it must be told
gets lost. -/
def Undisturbed (fd : Fd) (r r' : Reactor C) : Prop :=
  ∀ reg, r.registration? fd = some reg →
    ∃ reg', r'.registration? fd = some reg' ∧ reg.NothingLost reg' ∧ reg'.interest = reg.interest

theorem undisturbed_of_eq (h : r'.registration? fd = r.registration? fd) :
    r.Undisturbed fd r' := by
  intro reg hreg
  exact ⟨reg, h.trans hreg, .refl reg, rfl⟩

theorem Undisturbed.trans (h : r.Undisturbed fd r₁) (h' : r₁.Undisturbed fd r') :
    r.Undisturbed fd r' := by
  intro reg hreg
  obtain ⟨reg₁, hreg₁, hkept, hinterest⟩ := h reg hreg
  obtain ⟨reg', hreg', hkept', hinterest'⟩ := h' reg₁ hreg₁
  exact ⟨reg', hreg', hkept.trans hkept', hinterest'.trans hinterest⟩

/-- A request that spares a descriptor leaves its registration as it is, unless it disposes of the
reactor. -/
theorem undisturbed_performed {q : Request C} (hr : r.registrations.WellFormed)
    (hq : q.Spares fd) (h : Performed r q r') : r'.phase = .disposed ∨ r.Undisturbed fd r' := by
  cases h with
  | refused | ignored | absent | missed | deferred => exact .inr (undisturbed_of_eq rfl)
  | disposed => exact .inl rfl
  | added hd hs hi =>
    refine .inr ?_
    intro reg hreg
    rw [registration?_eq_some_iff hr] at hreg
    obtain ⟨i, hx⟩ := hreg
    refine ⟨reg, ?_, .refl reg, rfl⟩
    rw [registration?_eq_some_iff (OrderedMap.wellFormed_added hr hi)]
    exact ⟨i, ((entries_added hr hi).1 _).mpr (.inr hx)⟩
  | modified hfind =>
    exact .inr (undisturbed_of_eq (registration?_update_other hr _ hfind (Ne.symm hq)))
  | @removed d i hfind =>
    refine .inr ?_
    intro reg hreg
    rw [registration?_eq_some_iff hr] at hreg
    obtain ⟨j, hx⟩ := hreg
    refine ⟨reg, ?_, .refl reg, rfl⟩
    rw [registration?_eq_some_iff (OrderedMap.wellFormed_erase hr i)]
    refine ⟨j, ?_⟩
    unfold entries
    rw [entries_removed hr hfind, List.mem_filter]
    exact ⟨hx, by simpa using Ne.symm hq⟩
  | @forced d events i hfind =>
    refine .inr ?_
    by_cases hd : fd = d
    · subst hd
      intro reg hreg
      rw [registration?_update_self _ hfind, hreg]
      exact ⟨_, rfl, Registration.kept_forced events reg, rfl⟩
    · exact undisturbed_of_eq (registration?_update_other hr _ hfind hd)

/-- The registration of a descriptor stays, and nothing that it must be told gets lost. -/
def Retained (fd : Fd) (r r' : Reactor C) : Prop :=
  ∀ reg, r.registration? fd = some reg → ∃ reg', r'.registration? fd = some reg' ∧
    reg.NothingLost reg'

theorem Retained.refl (fd : Fd) (r : Reactor C) : r.Retained fd r :=
  fun reg hreg => ⟨reg, hreg, .refl reg⟩

theorem Retained.trans (h : r.Retained fd r₁) (h' : r₁.Retained fd r') : r.Retained fd r' := by
  intro reg hreg
  obtain ⟨reg₁, hreg₁, hkept⟩ := h reg hreg
  obtain ⟨reg', hreg', hkept'⟩ := h' reg₁ hreg₁
  exact ⟨reg', hreg', hkept.trans hkept'⟩

theorem Undisturbed.retained (h : r.Undisturbed fd r') : r.Retained fd r' := by
  intro reg hreg
  obtain ⟨reg', hreg', hkept, _⟩ := h reg hreg
  exact ⟨reg', hreg', hkept⟩

theorem retained_performed {q : Request C} (hq : q.OnlyAdjusts fd) (h : Performed r q r') :
    r.Retained fd r' := by
  cases h with
  | refused | added | absent | removed | disposed | deferred => cases hq
  | ignored | missed => exact .refl fd r
  | @modified d interest id hfind =>
    obtain rfl : d = fd := hq
    intro reg hreg
    rw [registration?_update_self _ hfind, hreg]
    exact ⟨_, rfl, Registration.kept_interest interest reg⟩
  | @forced d events id hfind =>
    obtain rfl : d = fd := hq
    intro reg hreg
    rw [registration?_update_self _ hfind, hreg]
    exact ⟨_, rfl, Registration.kept_forced events reg⟩

/-- A disposed reactor stays so, and only a discard disposes of one. -/
theorem phase_performed {q : Request C} (h : Performed r q r') :
    r'.phase = r.phase ∨ q = .discard ∧ r.phase ≠ .disposed := by
  cases h with
  | disposed hp => exact .inr ⟨rfl, by simp [hp]⟩
  | deferred hp => exact .inr ⟨rfl, by simp [hp]⟩
  | refused | ignored | absent | missed | added | modified | removed | forced => exact .inl rfl

theorem disposed_performed {q : Request C} (hr : r.phase = .disposed) (h : Performed r q r') :
    r'.phase = .disposed := by
  rcases phase_performed h with hp | ⟨_, hp⟩
  · exact hp.trans hr
  · exact absurd hr hp

def Asked (A : Request C → Prop) (r r' : Reactor C) : Prop :=
  ∃ qs, (∀ q ∈ qs, A q) ∧ Request.performAll qs r = .ok r'

variable {A B : Request C → Prop}

theorem Asked.refl (A : Request C → Prop) (r : Reactor C) : Asked A r r :=
  ⟨[], by simp, rfl⟩

theorem Asked.single {q : Request C} (hq : A q) (h : q.perform r = .ok r') : Asked A r r' :=
  ⟨[q], by simpa using hq, by simp [Request.performAll, h]⟩

theorem performAll_append (qs qs' : List (Request C)) (r : Reactor C) :
    Request.performAll (qs ++ qs') r = Request.performAll qs r >>= Request.performAll qs' := by
  induction qs generalizing r with
  | nil => rfl
  | cons q rest ih =>
    rw [List.cons_append]
    unfold Request.performAll
    cases q.perform r with
    | error v => rfl
    | ok r₁ => exact ih r₁

theorem Asked.trans (h : Asked A r r₁) (h' : Asked A r₁ r') : Asked A r r' := by
  obtain ⟨qs, hqs, hperform⟩ := h
  obtain ⟨qs', hqs', hperform'⟩ := h'
  refine ⟨qs ++ qs', ?_, ?_⟩
  · intro q hq
    rcases List.mem_append.mp hq with hq | hq
    · exact hqs q hq
    · exact hqs' q hq
  · rw [performAll_append, hperform]
    exact hperform'

theorem Asked.mono (hab : ∀ q, A q → B q) (h : Asked A r r') : Asked B r r' := by
  obtain ⟨qs, hqs, hperform⟩ := h
  exact ⟨qs, fun q hq => hab q (hqs q hq), hperform⟩

/-- What each request of a kind keeps, all of them keep. -/
theorem Asked.keeps {P : Reactor C → Prop} (h : Asked A r r') (hr : P r)
    (hstep : ∀ {r q r'}, A q → P r → Performed r q r' → P r') : P r' := by
  obtain ⟨qs, hqs, hperform⟩ := h
  induction qs generalizing r with
  | nil =>
    cases hperform
    exact hr
  | cons q rest ih =>
    obtain ⟨r₁, hq, hrest⟩ := Checked.bind_eq_ok_iff.mp hperform
    have hkept := hstep (hqs q List.mem_cons_self) hr (performed hq)
    exact ih hkept (fun q hq => hqs q (List.mem_cons_of_mem _ hq)) hrest

theorem Asked.wellFormed (h : Asked A r r') (hr : r.registrations.WellFormed) :
    r'.registrations.WellFormed :=
  h.keeps hr fun _ hr h => wellFormed_performed hr h

theorem Asked.undisturbed (h : Asked A r r') (hr : r.registrations.WellFormed)
    (ha : ∀ q, A q → q.Spares fd) : r'.phase = .disposed ∨ r.Undisturbed fd r' := by
  have hkept := h.keeps
    (P := fun r₁ => r₁.registrations.WellFormed ∧
      (r₁.phase = .disposed ∨ r.Undisturbed fd r₁))
    ⟨hr, .inr (undisturbed_of_eq rfl)⟩
  refine (hkept ?_).2
  rintro r₁ q r₂ hq ⟨hwf, hold⟩ hperformed
  refine ⟨wellFormed_performed hwf hperformed, ?_⟩
  rcases hold with hdisposed | hold
  · exact .inl (disposed_performed hdisposed hperformed)
  · rcases undisturbed_performed hwf (ha q hq) hperformed with hdisposed | hnew
    · exact .inl hdisposed
    · exact .inr (hold.trans hnew)

theorem Asked.retained (h : Asked (Request.OnlyAdjusts fd) r r') : r.Retained fd r' :=
  h.keeps (P := r.Retained fd) (.refl fd r) fun hq hold hperformed =>
    hold.trans (retained_performed hq hperformed)

theorem Asked.phase (h : Asked (Request.OnlyAdjusts fd) r r') : r'.phase = r.phase := by
  refine h.keeps (P := fun r₁ => r₁.phase = r.phase) rfl ?_
  intro r₁ q r₂ hq hold hperformed
  rcases phase_performed hperformed with hp | ⟨rfl, _⟩
  · exact hp.trans hold
  · cases hq

/-- A registration that is accepted is the only one of its descriptor, and leaves all others as they
are. -/
structure Enlisted (fd : Fd) (interest : SocketEvents) (callback : C) (r r' : Reactor C) :
    Prop where
  undisposed : r.phase ≠ .disposed
  phase : r'.phase = r.phase
  wf : r'.registrations.WellFormed
  absent : r.registration? fd = none
  present : r'.registration? fd = some { interest, callback := some callback }
  others : ∀ d reg, r.registration? d = some reg → r'.registration? d = some reg

theorem enlisted {interest : SocketEvents} {callback : C} (hr : r.registrations.WellFormed)
    (h : r.add fd interest callback = .ok (.ok r')) : Enlisted fd interest callback r r' := by
  unfold add at h
  split at h
  · cases h
  rename_i hdisposed
  split at h
  · cases h
  split at h
  · cases h
  rename_i id registrations hi
  simp only [Except.ok.injEq] at h
  subst h
  have hwf := OrderedMap.wellFormed_added hr hi
  refine ⟨?_, rfl, hwf, ?_, ?_, ?_⟩
  · intro hp
    simp [isDisposed, hp] at hdisposed
  · unfold registration?
    rw [OrderedMap.absent_of_added hi]
    rfl
  · rw [registration?_eq_some_iff hwf]
    exact ⟨id, ((entries_added hr hi).1 _).mpr (.inl rfl)⟩
  · intro d reg hreg
    rw [registration?_eq_some_iff hr] at hreg
    rw [registration?_eq_some_iff hwf]
    obtain ⟨i, hx⟩ := hreg
    exact ⟨i, ((entries_added hr hi).1 _).mpr (.inr hx)⟩

theorem find?_of_entry (hr : r.registrations.WellFormed) (hx : (id, fd, reg) ∈ r.entries) :
    r.registrations.find? fd = some id :=
  hr.find?_eq_some_iff.mpr ⟨(fd, reg), hx, Std.ReflCmp.compare_self⟩

theorem registration?_takeDue {due : Due C} (hr : r.registrations.WellFormed)
    (h : r.nextDue? none = some due) (hreg : r.registration? fd = some reg) :
    (r.takeDue due.id).registration? fd = some reg ∨
      reg.callback = some due.callback ∧ reg.pending = due.events ∧
        (r.takeDue due.id).registration? fd =
          some { reg with pending := .none, callback := none } := by
  obtain ⟨d, old, before, after, hsplit, _, hnotice⟩ := nextDue?_split hr h
  have hx : (due.id, d, old) ∈ r.entries := by
    rw [hsplit]
    simp
  unfold takeDue
  rw [registration?_update, hreg]
  by_cases hfind : r.registrations.find? fd = some due.id
  · refine .inr ?_
    obtain ⟨id, hy⟩ := (registration?_eq_some_iff hr).mp hreg
    rw [find?_of_entry hr hy, Option.some.injEq] at hfind
    subst hfind
    have hsame := hr.mem_entries.mp hx
    rw [hr.mem_entries.mp hy] at hsame
    cases hsame
    unfold noticeOf at hnotice
    split at hnotice
    · cases hnotice
    · obtain ⟨callback, hcallback, heq⟩ := Option.map_eq_some_iff.mp hnotice
      simp only [Notice.mk.injEq] at heq
      obtain ⟨_, hevents, rfl⟩ := heq
      exact ⟨hcallback, hevents, by simp [find?_of_entry hr hy]⟩
  · exact .inl (by simp [hfind])

theorem registration?_putBack (hr : r.Sound (some id)) (callback : C)
    (hreg : r.registration? fd = some reg) :
    (r.putBack id callback).registration? fd =
      some { reg with callback := reg.callback.or (some callback) } ∨
    (r.putBack id callback).registration? fd = some reg ∧ reg.callback ≠ none := by
  unfold putBack
  rw [registration?_update, hreg]
  by_cases hfind : r.registrations.find? fd = some id
  · exact .inl (by simp [hfind])
  · refine .inr ⟨by simp [hfind], ?_⟩
    intro hnone
    obtain ⟨i, hx⟩ := (registration?_eq_some_iff hr.wf).mp hreg
    have hrunning := (hr.resting hx hnone).1
    rw [find?_of_entry hr.wf hx] at hfind
    exact hfind hrunning.symm

theorem registration?_snapshot (hr : r.registrations.WellFormed) (ready : Fd → SocketEvents)
    (hreg : r.registration? fd = some reg) :
    (r.snapshot ready).registration? fd = some { reg with
      pending := observed reg.interest (ready fd) ∪ reg.forced, forced := .none } := by
  obtain ⟨id, hx⟩ := (registration?_eq_some_iff hr).mp hreg
  rw [registration?_eq_some_iff (wellFormed_snapshot hr ready)]
  refine ⟨id, ?_⟩
  rw [entries_snapshot]
  exact List.mem_map.mpr ⟨_, hx, rfl⟩

/-- Where nothing is left to be delivered, a registration with its callback has nothing to be
told. -/
theorem pending_of_delivered (hr : r.registrations.WellFormed) (h : r.undelivered = [])
    (hreg : r.registration? fd = some reg) (hc : reg.callback ≠ none) : reg.pending = .none := by
  obtain ⟨id, hx⟩ := (registration?_eq_some_iff hr).mp hreg
  unfold undelivered at h
  rw [List.filterMap_eq_nil_iff] at h
  have hnone : noticeOf fd reg = none := h _ hx
  unfold noticeOf at hnone
  split at hnone
  · rename_i hempty
    exact SocketEvents.isEmpty_iff.mp hempty
  · rw [Option.map_eq_none_iff] at hnone
    exact absurd hnone hc

end Reactor

end DuplexRelay
