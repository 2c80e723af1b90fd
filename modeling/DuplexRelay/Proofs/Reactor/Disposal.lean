import DuplexRelay.Proofs.Reactor.ReachedBy

/-! The end of a reactor. A reactor that was discarded calls no callback any more and takes no
registration. If that happens in a pass, its registrations stay until the pass is over. -/

namespace DuplexRelay.Reactor

variable {C σ : Type} {r r' : Reactor C} {h p : History C} {ready : Fd → SocketEvents}

/-- Nothing is under way: every registration has its callback, and nothing is left to be told. -/
structure AtRest (r : Reactor C) : Prop where
  still : r.phase = .idle ∨ r.phase = .disposed
  registrations : ∀ fd reg, r.registration? fd = some reg →
    reg.pending = .none ∧ reg.callback ≠ none

/-- The reactor was discarded, so no registration is accepted, and it must not be discarded
again. -/
structure RefusesRequests (r : Reactor C) : Prop where
  add : ∀ fd interest callback, r.add fd interest callback = .ok (.error .reactorDiscarded)
  discard : r.discard = .error .discardedTwice

/-- No pass can be run any more, and nothing is registered. -/
structure Discarded (r : Reactor C) : Prop extends RefusesRequests r where
  monitor : ∀ {σ : Type} (poll : List Fd → Except OsError (Fd → SocketEvents))
    (invoke : C → SocketEvents → Reactor C → σ → Checked (Reactor C × σ)) (s : σ),
    r.monitor poll invoke s = .ok (.error .reactorDiscarded, r, s)
  count : r.count = 0
  unregistered : ∀ fd, r.isRegistered fd = false

theorem refusesRequests_of_isDisposed (hd : r.isDisposed = true) : RefusesRequests r := by
  constructor
  · intro fd interest callback
    unfold Reactor.add
    rw [if_pos hd]
  · unfold Reactor.discard
    cases hp : r.phase <;> simp [isDisposed, hp] at hd <;> rfl

theorem MatchesHistory.atRest (hk : MatchesHistory h r) : AtRest r := by
  refine ⟨hk.resting.still, ?_⟩
  intro fd reg hreg
  have hsound := hk.resting.sound
  have hcallback : reg.callback ≠ none := by
    intro hnone
    obtain ⟨id, hx⟩ := (registration?_eq_some_iff hsound.wf).mp hreg
    cases (hsound.resting hx hnone).1
  exact ⟨pending_of_delivered hsound.wf hk.delivered hreg hcallback, hcallback⟩

theorem MatchesHistory.phase_of_discarded (hk : MatchesHistory h r)
    (hd : History.discarded h = true) : r.phase = .disposed := by
  apply hk.resting.still.resolve_left
  intro hidle
  rw [← hk.disposed] at hd
  simp [isDisposed, hidle] at hd

theorem MatchesHistory.ended (hk : MatchesHistory h r) (hd : History.discarded h = true) :
    Discarded r := by
  have hp := hk.phase_of_discarded hd
  have hwf := hk.resting.sound.wf
  have hnone := hk.emptied hp
  refine ⟨refusesRequests_of_isDisposed (hk.disposed.trans hd), ?_, ?_, ?_⟩
  · intro σ poll invoke s
    simp [Reactor.monitor, admitPass, hp]
  · have hempty : r.registrations.entries = [] := hnone
    rw [Reactor.count, hwf.size_eq, hempty, List.length_nil]
  · intro fd
    rw [isRegistered, find?_of_emptied hwf hnone]
    rfl

/-- What was discarded stays so: no callback is called, nothing is registered, and it is not
discarded once more. -/
structure StaysDiscarded (h : History C) (r : Reactor C) : Prop where
  late : History.Each (fun before m => History.discarded before = true → m.event.Late) h
  closed : History.Each
    (fun before m => History.discarded (before ++ [m]) = true → RefusesRequests m.reactor) h
  ended : History.discarded h = true → Discarded r

theorem MatchesHistory.staysDiscarded (hk : MatchesHistory h r) : StaysDiscarded h r := by
  refine ⟨hk.afterDiscard.mono fun _ _ hm => hm.late, hk.afterDiscard.mono ?_, hk.ended⟩
  intro before m hm hd
  exact refusesRequests_of_isDisposed (hm.disposed.trans hd)

/-- During a pass no other one can be started, and all registrations are there that were made and
not removed, whether or not the reactor was discarded. -/
structure RegistrationsVisible (before : History C) (m : Moment C) : Prop where
  nested : ∀ {σ : Type} (poll : List Fd → Except OsError (Fd → SocketEvents))
    (invoke : C → SocketEvents → Reactor C → σ → Checked (Reactor C × σ)) (s : σ),
    m.reactor.monitor poll invoke s = .error .nestedMonitor
  standing : ∀ fd, m.reactor.standing fd = History.standing (before ++ [m]) fd

theorem registrationsVisible_of_busy {before : History C} {m : Moment C} (hb : m.reactor.Busy)
    (hs : ∀ fd, m.reactor.standing fd = History.standing (before ++ [m]) fd) :
    RegistrationsVisible before m := by
  refine ⟨?_, hs⟩
  intro σ poll invoke s
  rcases hb with hp | hp <;> simp [Reactor.monitor, admitPass, hp]

/-- What came of a call from outside that was to run a pass. -/
structure PassResult (h p : History C) (r : Reactor C) (result : Except Failure Nat)
    (r' : Reactor C) : Prop where
  refused : ∀ e, result = .error e → p = [] ∧ r' = r
  counted : ∀ n, result = .ok n → n = History.calls p
  visible : History.Each (fun before => RegistrationsVisible (h ++ before)) p
  ended : History.discarded p = true → r'.phase = .disposed ∧ Discarded r'

theorem passResult_unchanged {result : Except Failure Nat}
    (hcount : ∀ n, result = .ok n → n = 0) : PassResult h [] r result r :=
  ⟨fun _ _ => ⟨rfl, rfl⟩, hcount, History.each_nil, nofun⟩

theorem CompletedPass.passResult {n : Nat} {r₁ : Reactor C} (hk : MatchesHistory h r)
    (hp : r.phase = .idle) (hw : CompletedPass ready h r p n r₁) :
    PassResult h ([⟨.looked, (r.snapshot ready).begun⟩] ++ p) r (.ok n) r₁.endPass := by
  have hu := hw.underway
  refine ⟨nofun, ?_, ?_, ?_⟩
  · rintro _ ⟨⟩
    rw [History.calls_append, hw.calls]
    exact (Nat.zero_add n).symm
  · refine History.each_append.mpr ⟨History.each_singleton.mpr ?_, ?_⟩
    · rw [List.append_nil]
      apply registrationsVisible_of_busy (.inl rfl)
      simpa using (hk.begun hp ready).standing
    · refine hu.inPass.mono ?_
      intro before m hm
      rw [List.append_assoc] at hm
      exact registrationsVisible_of_busy hm.busy hm.standing
  · intro hd
    have hk' := hk.completedPass hw
    have hd' : History.discarded (h ++ [⟨.looked, (r.snapshot ready).begun⟩] ++ p) = true := by
      rw [List.append_assoc, History.discarded_append, hd, Bool.or_true]
    exact ⟨hk'.phase_of_discarded hd', hk'.ended hd'⟩

/-- The life of a reactor. Between two calls from outside it is at rest. Once it was discarded, no
callback is called and nothing registered, and further discards and passes fail. A discard in the
middle of a pass leaves all registrations until the pass is over, and the pass still counts the
callbacks that it called. -/
theorem discarded_for_good (hl : ReachedBy h r) : AtRest r ∧ StaysDiscarded h r ∧
    ∀ {σ : Type} (poll : List Fd → Except OsError (Fd → SocketEvents))
      (act : C → SocketEvents → Reactor C → σ → List (Request C) × σ) (s : σ) result r' s' h',
      r.monitorNoted poll act s h = .ok (result, r', s', h') →
        ∃ p, h' = h ++ p ∧ PassResult h p r result r' := by
  have hk := hl.matchesHistory
  refine ⟨hk.atRest, hk.staysDiscarded, ?_⟩
  intro σ poll act s result r' s' h' hm
  rcases hk.resting.still with hp | hp
  · cases hs : r.asks poll with
    | error e =>
      rw [monitorNoted_of_error hp hs] at hm
      cases hm
      exact ⟨[], (List.append_nil h).symm, passResult_unchanged nofun⟩
    | ok ready =>
      by_cases hnone : r.notices ready = []
      · rw [monitorNoted_of_quiet hk.resting.sound hp hs hnone] at hm
        cases hm
        refine ⟨[], (List.append_nil h).symm, passResult_unchanged ?_⟩
        rintro _ ⟨⟩
        rfl
      · rcases hk.pass act s hp hs hnone with
          ⟨v, hstop, _⟩ | ⟨n, p, r₁, s₁, hok, hw⟩
        · rw [hstop] at hm
          cases hm
        · rw [hok] at hm
          cases hm
          exact ⟨_, List.append_assoc .., hw.passResult hk hp⟩
  · rw [monitorNoted_of_disposed hp] at hm
    cases hm
    exact ⟨[], (List.append_nil h).symm, passResult_unchanged nofun⟩

/-- The callback of the first descriptor forces something for the second one, discards the reactor
and removes the third one. -/
def discardingAll (callback : Nat) (_ : SocketEvents) (_ : Reactor Nat) (s : Unit) :
    List (Request Nat) × Unit :=
  if callback = 30 then
    ([.reschedule 5 { error := true }, .discard, .del 7, .add 9 .none 90], s)
  else ([], s)

def threeListed : Checked (Reactor Nat × History Nat) :=
  Request.answerAll
    [.add 3 .none 30, .add 5 .none 50, .add 7 .none 70, .reschedule 3 { writable := true },
      .reschedule 7 { writable := true }] {} []

/-- A pass in which the first of three callbacks discards the reactor. -/
def discardingPass (r : Reactor Nat) (h : History Nat) :
    Checked (Except Failure Nat × Reactor Nat × Unit × History Nat) :=
  r.monitorNoted (fun _ => .ok fun _ => .none) discardingAll () h

theorem discardingPass_outcome :
    (threeListed.toOption.any fun (r, h) =>
      (discardingPass r h).toOption.any fun (result, _, _, h') =>
        result.toOption.any (· = 1) && !History.discarded h && History.discarded h') = true := by
  decide +kernel

/-- The reactor is discarded by the first callback of a pass, which is the only one that is
called. -/
theorem discarded_for_good_deferred : ∃ (h p : History Nat) (r r' : Reactor Nat), ReachedBy h r ∧
    AtRest r ∧ discardingPass r h = .ok (.ok 1, r', (), h ++ p) ∧ History.discarded p = true ∧
    History.calls p = 1 ∧ Discarded r' := by
  have houtcome := discardingPass_outcome
  cases hlisted : threeListed with
  | error v => simp [hlisted, Except.toOption] at houtcome
  | ok x =>
    obtain ⟨r, h⟩ := x
    simp only [hlisted, Except.toOption, Option.any_some] at houtcome
    cases hpass : discardingPass r h with
    | error v => simp [hpass] at houtcome
    | ok y =>
      obtain ⟨result, r', s', h'⟩ := y
      simp only [hpass, Option.any_some, Bool.and_eq_true, Bool.not_eq_true'] at houtcome
      obtain ⟨⟨hone, halive⟩, hdiscarded⟩ := houtcome
      rcases result with e | n
      · cases hone
      · obtain rfl := of_decide_eq_true hone
        have hreached : ReachedBy h r := ReachedBy.new.askedAll hlisted
        obtain ⟨hrest, _, hconcluded⟩ := discarded_for_good hreached
        obtain ⟨p, rfl, hp⟩ := hconcluded _ discardingAll () _ r' s' h' hpass
        have hin : History.discarded p = true := by
          rw [History.discarded_append, halive, Bool.false_or] at hdiscarded
          exact hdiscarded
        exact ⟨h, p, r, r', hreached, hrest, hpass, hin, (hp.counted 1 rfl).symm, (hp.ended hin).2⟩

end DuplexRelay.Reactor
