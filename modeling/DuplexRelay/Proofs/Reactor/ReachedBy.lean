import DuplexRelay.Proofs.Reactor.Underway

/-! Reactors with all that ever happened to them. Between two calls from outside a reactor is at
rest, and what it knows can be read off its history. -/

namespace DuplexRelay.Reactor

variable {C σ : Type} {r r' : Reactor C} {h p : History C} {ready : Fd → SocketEvents}
  {poll : List Fd → Except OsError (Fd → SocketEvents)}
  {act : C → SocketEvents → Reactor C → σ → List (Request C) × σ} {s : σ}

/-- What the system answers, if it is asked about all registered descriptors. -/
def asks (poll : List Fd → Except OsError (Fd → SocketEvents)) (r : Reactor C) :
    Except OsError (Fd → SocketEvents) :=
  settled (poll (r.registrations.toList.map (·.1)))

/-- A note of the snapshot that a pass takes, if it takes one. -/
def lookNote (poll : List Fd → Except OsError (Fd → SocketEvents)) (r : Reactor C) : History C :=
  match r.phase, r.asks poll with
  | .idle, .ok ready =>
    if r.anyReady ready || r.hasForced then [⟨.looked, (r.snapshot ready).begun⟩] else []
  | _, _ => []

/-- Has a pass run, with a note of all that happens in it. -/
def monitorNoted (poll : List Fd → Except OsError (Fd → SocketEvents))
    (act : C → SocketEvents → Reactor C → σ → List (Request C) × σ) (r : Reactor C) (s : σ)
    (h : History C) : Checked (Except Failure Nat × Reactor C × σ × History C) :=
  r.monitor poll (noting act) (s, h ++ r.lookNote poll)

/-- The reactors that come about by requests and passes, with what happened to them. -/
inductive ReachedBy : History C → Reactor C → Prop
  | new : ReachedBy [] {}
  | asked {h : History C} {r r' : Reactor C} {q : Request C} {e : Event C} (hl : ReachedBy h r)
      (ha : q.answer r = .ok (e, r')) : ReachedBy (h ++ [⟨e, r'⟩]) r'
  | monitored {σ : Type} {poll : List Fd → Except OsError (Fd → SocketEvents)}
      {act : C → SocketEvents → Reactor C → σ → List (Request C) × σ} {h h' : History C}
      {r r' : Reactor C} {s s' : σ} {result : Except Failure Nat} (hl : ReachedBy h r)
      (hm : r.monitorNoted poll act s h = .ok (result, r', s', h')) : ReachedBy h' r'

/-- A reactor at rest, as its history says. -/
structure MatchesHistory (h : History C) (r : Reactor C) : Prop where
  resting : r.Resting
  delivered : r.undelivered = []
  standing : r.phase = .idle → ∀ fd, r.standing fd = History.standing h fd
  disposed : r.isDisposed = History.discarded h
  emptied : r.phase = .disposed → r.entries = []
  afterDiscard : History.Each Moment.AfterDiscard h

theorem undelivered_of_entries (h : r.entries = []) : r.undelivered = [] := by
  unfold undelivered
  rw [h]
  rfl

/-- What a request leaves undelivered was undelivered before. -/
theorem delivered_performed {q : Request C} (hr : r.Sound none) (hd : r.undelivered = [])
    (h : Performed r q r') : r'.undelivered = [] := by
  cases h with
  | refused | ignored | absent | missed | deferred => exact hd
  | added _ _ hi => exact (entries_added hr.wf hi).2.trans hd
  | modified => exact (undelivered_quiet (quiet_interest _) _ r).trans hd
  | forced => exact (undelivered_quiet (quiet_forced _) _ r).trans hd
  | removed hfind =>
    unfold undelivered at hd ⊢
    rw [List.filterMap_eq_nil_iff] at hd ⊢
    intro x hx
    change x ∈ (r.registrations.erase _).2.entries at hx
    rw [entries_removed hr.wf hfind] at hx
    exact hd x (List.mem_of_mem_filter hx)
  | disposed => exact undelivered_of_entries (OrderedMap.entries_drain hr.wf)

theorem find?_of_emptied (hr : r.registrations.WellFormed) (h : r.entries = []) (fd : Fd) :
    r.registrations.find? fd = none := by
  have hempty : r.registrations.entries = [] := h
  rw [hr.find?_eq_none_iff, hempty]
  intro x hx
  cases hx

/-- A disposed reactor has no registrations, and gets none. -/
theorem emptied_performed {q : Request C} (hr : r.Sound none)
    (he : r.phase = .disposed → r.entries = []) (h : Performed r q r')
    (hp : r'.phase = .disposed) : r'.entries = [] := by
  cases h with
  | refused | ignored | absent | missed => exact he hp
  | added hd =>
    have hphase : r.phase = .disposed := hp
    simp [isDisposed, hphase] at hd
  | modified hfind | forced hfind | removed hfind =>
    rw [find?_of_emptied hr.wf (he hp)] at hfind
    cases hfind
  | disposed => exact OrderedMap.entries_drain hr.wf
  | deferred => cases hp

theorem MatchesHistory.asked {q : Request C} {e : Event C} (hk : MatchesHistory h r)
    (ha : q.answer r = .ok (e, r')) : MatchesHistory (h ++ [⟨e, r'⟩]) r' := by
  obtain ⟨hperformed, _⟩ := answered ha
  have hresting := resting_performed hk.resting hperformed
  have hdisposed : r'.isDisposed = History.discarded (h ++ [⟨e, r'⟩]) := by
    rw [isDisposed_answered ha, hk.disposed]
    simp
  refine ⟨hresting, delivered_performed hk.resting.sound hk.delivered hperformed, ?_, hdisposed,
    emptied_performed hk.resting.sound hk.emptied hperformed, ?_⟩
  · intro hidle fd
    have hbefore : r.phase = .idle := by
      rcases hk.resting.still with hp | hp
      · exact hp
      · rw [disposed_performed hp hperformed] at hidle
        cases hidle
    rw [History.standing_concat, ← hk.standing hbefore]
    exact standing_answered hk.resting.sound.wf ha (by simp [hidle]) fd
  · refine History.each_concat.mpr ⟨hk.afterDiscard, hdisposed, ?_⟩
    intro hlate
    exact late_answered ha (hk.disposed.trans hlate)

theorem notices_eq_nil_iff (hr : r.Sound none) (ready : Fd → SocketEvents) :
    r.notices ready = [] ↔ (r.anyReady ready || r.hasForced) = false := by
  refine ⟨?_, notices_of_quiet⟩
  intro hnone
  unfold notices at hnone
  rw [List.filterMap_eq_nil_iff] at hnone
  have hempty : ∀ x ∈ r.registrations.toList,
      (observed x.2.interest (ready x.1)).isEmpty = true ∧ x.2.forced.isEmpty = true := by
    rintro ⟨fd, reg⟩ hx
    have hnotice := hnone _ hx
    dsimp only at hnotice
    split at hnotice
    · rename_i hmask
      rw [isEmpty_union, Bool.and_eq_true] at hmask
      exact hmask
    · rw [Option.map_eq_none_iff] at hnotice
      rw [hr.wf.toList_eq] at hx
      obtain ⟨⟨id, e⟩, hentry, rfl⟩ := List.mem_map.mp hx
      cases (hr.resting hentry hnotice).1
  simp only [Bool.or_eq_false_iff, anyReady, hasForced, List.any_eq_false]
  constructor
  · intro x hx
    simp [(hempty x hx).1]
  · intro x hx
    simp [(hempty x hx).2]

/-- What a pass over a reactor at rest comes to: nothing, if there is nothing to tell, and otherwise
a walk over the notices. -/
theorem monitor_eq {invoke : C → SocketEvents → Reactor C → σ → Checked (Reactor C × σ)}
    (hr : r.Sound none) (hp : r.phase = .idle) (hs : r.asks poll = .ok ready) :
    r.monitor poll invoke s = if r.notices ready = [] then .ok (.ok 0, r, s)
      else (dispatch invoke (r.notices ready).length none (r.snapshot ready).begun s).map
        fun x => (.ok x.1, x.2.1.endPass, x.2.2) := by
  have hadmitted : r.admitPass = .ok (.ok ()) := by simp [admitPass, hp]
  have hcount : (r.snapshot ready).outstanding = (r.notices ready).length := by
    rw [outstanding_eq (sound_snapshot hr ready), undelivered_snapshot hr.wf]
  unfold asks at hs
  unfold monitor
  simp only [hadmitted, Checked.ok_bind, hs]
  by_cases hnone : r.notices ready = []
  · rw [if_pos hnone, (notices_eq_nil_iff hr ready).mp hnone]
    rfl
  · have hsome : (r.anyReady ready || r.hasForced) = true := by
      rw [← Bool.not_eq_false, ← notices_eq_nil_iff hr]
      exact hnone
    obtain ⟨k, hk⟩ := Nat.exists_eq_succ_of_ne_zero fun hzero =>
      hnone (List.eq_nil_of_length_eq_zero hzero)
    rw [if_neg hnone, if_pos hsome]
    unfold pass
    simp only [hcount, hk]
    change (dispatch invoke (k + 1) none (r.snapshot ready).begun s >>= _) >>= _ = _
    cases dispatch invoke (k + 1) none (r.snapshot ready).begun s <;> rfl

theorem dispatch_pos {invoke : C → SocketEvents → Reactor C → σ → Checked (Reactor C × σ)}
    {active n : Nat} {s' : σ} (hr : r.registrations.WellFormed) (hne : r.undelivered ≠ [])
    (h : dispatch invoke (active + 1) none r s = .ok (n, r', s')) : 0 < n := by
  unfold dispatch at h
  cases hdue : r.nextDue? none with
  | none => exact absurd (undelivered_of_nextDue?_none hr hdue) hne
  | some due =>
    simp only [hdue, Checked.bind_eq_ok_iff] at h
    obtain ⟨_, _, h⟩ := h
    split at h
    · cases h
      exact Nat.one_pos
    · split at h <;>
      · obtain ⟨_, _, h⟩ := Checked.bind_eq_ok_iff.mp h
        cases h
        exact Nat.succ_pos _

/-- A callback that was called in a pass did what is against a contract. -/
def CallbackMisuse (act : C → SocketEvents → Reactor C → σ → List (Request C) × σ) (h : History C)
    (v : Violation) : Prop :=
  ∃ callback events r₁ s₁ h₁, h <+: h₁ ∧ r₁.Busy ∧
    (∀ fd, r₁.standing fd = History.standing h₁ fd) ∧
    noting act callback events r₁ (s₁, h₁) = .error v

/-- A pass that came to its end, with all that happened in it. -/
structure CompletedPass (ready : Fd → SocketEvents) (h : History C) (r : Reactor C) (p : History C)
    (n : Nat) (r₁ : Reactor C) : Prop where
  underway : Underway (r.notices ready) (h ++ [⟨.looked, (r.snapshot ready).begun⟩]) p r₁
  sound : r₁.Sound none
  busy : r₁.Busy
  calls : History.calls p = n
  called : 0 < n
  done : r₁.phase = .pendingDispose ∨ r₁.undelivered = []

theorem MatchesHistory.begun (hk : MatchesHistory h r) (hp : r.phase = .idle)
    (ready : Fd → SocketEvents) :
    Underway (r.notices ready) (h ++ [⟨.looked, (r.snapshot ready).begun⟩]) []
      (r.snapshot ready).begun := by
  have hwf := hk.resting.sound.wf
  have hfresh : History.discarded h = false := by
    rw [← hk.disposed]
    simp [isDisposed, hp]
  refine ⟨notices_ascend hwf ready, by simp [hfresh, Event.isDiscard], ?_, ?_, rfl,
    History.each_nil, History.each_nil, History.each_nil⟩
  · intro fd
    rw [List.append_nil, History.standing_concat, ← hk.standing hp]
    exact standing_snapshot hwf ready fd
  · have hsame : (r.snapshot ready).begun.undelivered = r.notices ready :=
      undelivered_snapshot hwf ready
    simp [hsame, History.spent]

variable (act s) in
theorem MatchesHistory.pass (hk : MatchesHistory h r) (hp : r.phase = .idle)
    (hs : r.asks poll = .ok ready) (hsome : r.notices ready ≠ []) :
    (∃ v, r.monitorNoted poll act s h = .error v ∧ CallbackMisuse act h v) ∨
      ∃ n p r₁ s', r.monitorNoted poll act s h = .ok (.ok n, r₁.endPass, s',
          h ++ [⟨.looked, (r.snapshot ready).begun⟩] ++ p) ∧ CompletedPass ready h r p n r₁ := by
  have hr := hk.resting.sound
  have hlook : r.lookNote poll = [⟨.looked, (r.snapshot ready).begun⟩] := by
    have hready : (r.anyReady ready || r.hasForced) = true := by
      rw [← Bool.not_eq_false, ← notices_eq_nil_iff hr]
      exact hsome
    unfold lookNote
    simp only [hp, hs]
    rw [if_pos hready]
  have hstart := hk.begun hp ready
  have hleft : (r.snapshot ready).begun.undelivered = r.notices ready := by
    rw [hstart.undelivered]
    simp [History.spent]
  have hcounted : UnderwayCounting (σ := σ) (r.notices ready) (h ++ r.lookNote poll) 0
      (r.snapshot ready).begun (s, h ++ r.lookNote poll) := by
    rw [hlook]
    exact ⟨[], by simp, hstart, rfl⟩
  -- a pass is over when as many callbacks were called as there were notices
  have hwalks := noting_walks (r.notices ready) (h ++ r.lookNote poll) act
  have hactive : (r.snapshot ready).begun.undelivered.length ≤ (r.notices ready).length :=
    Nat.le_of_eq (congrArg List.length hleft)
  unfold monitorNoted
  rw [monitor_eq hr hp hs, if_neg hsome]
  cases hd : dispatch (noting act) (r.notices ready).length none (r.snapshot ready).begun
      (s, h ++ r.lookNote poll) with
  | error v =>
    refine .inl ⟨v, rfl, ?_⟩
    obtain ⟨k, due, r₁, ⟨s₁, _⟩, _, hbusy, ⟨_, p, rfl, hu, _⟩, _, hstop⟩ :=
      dispatch_stops noting_obeys hwalks (sound_begun hr) (.inl rfl) ⟨rfl, hcounted⟩
        (nothingDueUpTo_none _) hactive hd
    refine ⟨due.callback, due.events, r₁.takeDue due.id, s₁, _, ?_, hbusy, ?_, hstop⟩
    · rw [List.append_assoc]
      exact List.prefix_append _ _
    · intro fd
      rw [standing_takeDue]
      exact hu.standing fd
  | ok x =>
    obtain ⟨n, r₁, s', h'⟩ := x
    obtain ⟨hsound, hbusy, hend⟩ := dispatch_walks noting_obeys hwalks (sound_begun hr) (.inl rfl)
      ⟨rfl, hcounted⟩ (nothingDueUpTo_none _) hactive hd
    obtain ⟨⟨p, hh, hu, hcalls⟩, hdone⟩ : UnderwayCounting (σ := σ) (r.notices ready)
        (h ++ r.lookNote poll) (0 + n) r₁ (s', h') ∧
          (r₁.phase = .pendingDispose ∨ r₁.undelivered = []) := by
      rcases hend with ⟨hphase, hcounted⟩ | ⟨hnone, _, hcounted⟩
      · exact ⟨hcounted, .inl hphase⟩
      · exact ⟨hcounted, .inr hnone⟩
    have hpos : 0 < n := by
      obtain ⟨k, hlength⟩ := Nat.exists_eq_succ_of_ne_zero fun hzero =>
        hsome (List.eq_nil_of_length_eq_zero hzero)
      rw [hlength] at hd
      exact dispatch_pos (sound_begun hr).wf (by rwa [hleft]) hd
    have hh' : h' = h ++ r.lookNote poll ++ p := hh
    rw [hlook] at hh' hu
    rw [hh']
    rw [Nat.zero_add] at hcalls
    exact .inr ⟨n, p, r₁, s', rfl, hu, hsound, hbusy, hcalls, hpos, hdone⟩

theorem monitorNoted_of_disposed (hp : r.phase = .disposed) :
    r.monitorNoted poll act s h = .ok (.error .reactorDiscarded, r, s, h) := by
  simp [monitorNoted, lookNote, monitor, admitPass, hp]

theorem monitorNoted_of_error {e : OsError} (hp : r.phase = .idle) (hs : r.asks poll = .error e) :
    r.monitorNoted poll act s h = .ok (.error (.selectFailed e), r, s, h) := by
  have hsettled : settled (poll (r.registrations.toList.map (·.1))) = .error e := hs
  simp [monitorNoted, lookNote, monitor, admitPass, hp, hs, hsettled]

theorem monitorNoted_of_quiet (hr : r.Sound none) (hp : r.phase = .idle)
    (hs : r.asks poll = .ok ready) (hnone : r.notices ready = []) :
    r.monitorNoted poll act s h = .ok (.ok 0, r, s, h) := by
  have hlook : r.lookNote poll = [] := by
    unfold lookNote
    simp [hp, hs, (notices_eq_nil_iff hr ready).mp hnone]
  unfold monitorNoted
  rw [monitor_eq hr hp hs, if_pos hnone, hlook, List.append_nil]

/-- After a pass a reactor is at rest again. -/
theorem MatchesHistory.completedPass {n : Nat} {r₁ : Reactor C} (hk : MatchesHistory h r)
    (hw : CompletedPass ready h r p n r₁) :
    MatchesHistory (h ++ [⟨.looked, (r.snapshot ready).begun⟩] ++ p) r₁.endPass := by
  have hu := hw.underway
  have hfresh := hu.fresh
  have hdisposed : r₁.endPass.isDisposed = r₁.isDisposed := by
    unfold endPass
    rcases hw.busy with hp | hp <;> simp [isDisposed, dispose, hp]
  have hdrained : r₁.dispose.entries = [] := OrderedMap.entries_drain hw.sound.wf
  refine ⟨resting_endPass hw.sound, ?_, ?_, ?_, ?_, ?_⟩
  · unfold endPass
    split
    · exact undelivered_of_entries hdrained
    · rename_i hphase
      exact hw.done.resolve_left hphase
  · intro hidle fd
    rw [← hu.standing]
    unfold endPass at hidle ⊢
    split
    · rename_i hphase
      rw [if_pos hphase] at hidle
      cases hidle
    · rfl
  · rw [hdisposed, hu.disposed, History.discarded_append, hfresh, Bool.false_or]
  · intro hphase
    unfold endPass at hphase ⊢
    split
    · exact hdrained
    · rename_i hother
      rw [if_neg hother] at hphase
      cases hphase
  · refine History.each_append.mpr ⟨History.each_concat.mpr ⟨hk.afterDiscard, ?_⟩, hu.afterDiscard⟩
    refine ⟨hfresh.symm, ?_⟩
    intro hlate
    rw [History.discarded_append, hlate] at hfresh
    cases hfresh

theorem ReachedBy.matchesHistory (hl : ReachedBy h r) : MatchesHistory h r := by
  induction hl with
  | new =>
    refine ⟨⟨sound_new, .inl rfl⟩, rfl, fun _ _ => rfl, rfl, ?_, History.each_nil⟩
    intro hp
    cases hp
  | asked _ ha ih => exact ih.asked ha
  | @monitored σ poll act h h' r r' s s' result _ hm ih =>
    rcases ih.resting.still with hp | hp
    · cases hs : r.asks poll with
      | error e =>
        rw [monitorNoted_of_error hp hs] at hm
        cases hm
        exact ih
      | ok ready =>
        by_cases hnone : r.notices ready = []
        · rw [monitorNoted_of_quiet ih.resting.sound hp hs hnone] at hm
          cases hm
          exact ih
        · rcases ih.pass act s hp hs hnone with
            ⟨v, herror, _⟩ | ⟨n, p, r₁, s₁, hok, hw⟩
          · rw [herror] at hm
            cases hm
          · rw [hok] at hm
            cases hm
            exact ih.completedPass hw
    · rw [monitorNoted_of_disposed hp] at hm
      cases hm
      exact ih

theorem ReachedBy.askedAll {qs : List (Request C)} {h' : History C} (hl : ReachedBy h r)
    (ha : Request.answerAll qs r h = .ok (r', h')) : ReachedBy h' r' := by
  induction qs generalizing r h with
  | nil =>
    cases ha
    exact hl
  | cons q rest ih =>
    obtain ⟨⟨e, r₁⟩, hq, hrest⟩ := Checked.bind_eq_ok_iff.mp ha
    exact ih (.asked hl hq) hrest

end DuplexRelay.Reactor
