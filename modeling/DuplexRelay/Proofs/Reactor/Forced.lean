import DuplexRelay.Proofs.Reactor.ReachedBy

/-! Forced events. What was forced for a descriptor is told with the next snapshot, once, whatever
callbacks do in between. -/

namespace DuplexRelay

namespace History

variable {C : Type}

/-- What a descriptor has to be told by a snapshot: the readiness that it waits for, exceptional
conditions, and all events that were forced for it since the last snapshot. -/
def due (h : History C) (ready : Fd → SocketEvents) (fd : Fd) : SocketEvents :=
  match standing h fd with
  | some x => Reactor.observed x.interest (ready fd) ∪ x.owed
  | none => .none

end History

namespace Reactor

variable {C σ : Type} {r r' : Reactor C} {h p : History C} {ready : Fd → SocketEvents}

theorem mem_notices_iff (hr : r.Sound none) {n : Notice C} :
    n ∈ r.notices ready ↔ ∃ reg, r.registration? n.fd = some reg ∧
      n.events = observed reg.interest (ready n.fd) ∪ reg.forced ∧ n.events ≠ .none ∧
      reg.callback = some n.callback := by
  unfold notices
  rw [hr.wf.toList_eq, List.filterMap_map, List.mem_filterMap]
  simp only [registration?_eq_some_iff hr.wf]
  constructor
  · rintro ⟨⟨id, fd, reg⟩, hx, hn⟩
    simp only [Function.comp_apply] at hn
    split at hn
    · cases hn
    · rename_i hmask
      obtain ⟨callback, hcallback, rfl⟩ := Option.map_eq_some_iff.mp hn
      exact ⟨reg, ⟨id, hx⟩, rfl, fun heq => hmask (SocketEvents.isEmpty_iff.mpr heq), hcallback⟩
  · rintro ⟨reg, ⟨id, hx⟩, hevents, hmask, hcallback⟩
    refine ⟨(id, n.fd, reg), hx, ?_⟩
    simp only [Function.comp_apply]
    rw [← hevents, if_neg fun hempty => hmask (SocketEvents.isEmpty_iff.mp hempty), hcallback]
    rfl

/-- The notices of a pass are what the history says is due. -/
theorem MatchesHistory.due_of_mem (hk : MatchesHistory h r) (hp : r.phase = .idle) {n : Notice C}
    (hn : n ∈ r.notices ready) : n.events = History.due h ready n.fd ∧ n.events ≠ .none ∧
      ∃ reg, r.registration? n.fd = some reg ∧ reg.callback = some n.callback := by
  obtain ⟨reg, hreg, hevents, hmask, hcallback⟩ := (mem_notices_iff hk.resting.sound).mp hn
  refine ⟨?_, hmask, reg, hreg, hcallback⟩
  unfold History.due
  rw [← hk.standing hp, Reactor.standing, hreg]
  exact hevents

theorem MatchesHistory.mem_of_due (hk : MatchesHistory h r) (hp : r.phase = .idle) {fd : Fd}
    (hd : History.due h ready fd ≠ .none) : ∃ n ∈ r.notices ready, n.fd = fd := by
  unfold History.due at hd
  rw [← hk.standing hp, Reactor.standing] at hd
  cases hreg : r.registration? fd with
  | none => simp [hreg] at hd
  | some reg =>
    rw [hreg] at hd
    have hcallback : reg.callback ≠ none := by
      intro hnone
      obtain ⟨id, hx⟩ := (registration?_eq_some_iff hk.resting.sound.wf).mp hreg
      cases (hk.resting.sound.resting hx hnone).1
    obtain ⟨callback, hcallback⟩ := Option.ne_none_iff_exists'.mp hcallback
    exact ⟨⟨fd, _, callback⟩,
      (mem_notices_iff hk.resting.sound).mpr ⟨reg, hreg, rfl, hd, hcallback⟩, rfl⟩

/-- A callback is called with just what was due at the snapshot, for a registration that was there
at the snapshot and since then, and neither twice nor before one that comes first. -/
def ToldDue (ready : Fd → SocketEvents) (h : History C) (r : Reactor C) (before : History C)
    (m : Moment C) : Prop :=
  ∀ fd events callback, m.event = .called fd events callback →
    events = History.due h ready fd ∧ events ≠ .none ∧
      (∃ reg, r.registration? fd = some reg ∧ reg.callback = some callback) ∧
      fd ∉ History.spent before ∧ History.discarded before = false ∧
      ∀ d < fd, History.due h ready d ≠ .none → d ∈ History.spent before

/-- What is due is told by a pass, and what is forced meanwhile is left for the next one. -/
structure PassTellsDue (ready : Fd → SocketEvents) (h : History C) (r : Reactor C) (p : History C)
    (n : Nat) (r' : Reactor C) : Prop where
  quiet : (∀ fd, History.due h ready fd = .none) → n = 0 ∧ p = [] ∧ r' = r
  looked : ∀ fd, History.due h ready fd ≠ .none → 0 < n ∧
    ∃ m rest, p = m :: rest ∧ m.event = .looked ∧ ∀ x ∈ rest, x.event ≠ .looked
  told : History.Each (ToldDue ready h r) p
  served : ∀ fd, History.due h ready fd ≠ .none →
    fd ∈ History.spent p ∨ History.discarded p = true
  standing : r'.phase = .idle → ∀ fd, r'.standing fd = History.standing (h ++ p) fd

theorem CompletedPass.passTellsDue {n : Nat} {r₁ : Reactor C} (hk : MatchesHistory h r)
    (hp : r.phase = .idle) (hw : CompletedPass ready h r p n r₁) :
    PassTellsDue ready h r ([⟨.looked, (r.snapshot ready).begun⟩] ++ p) n r₁.endPass := by
  have hu := hw.underway
  have hspent : ∀ before : History C, History.spent
      ((⟨.looked, (r.snapshot ready).begun⟩ : Moment C) :: before) = History.spent before :=
    fun _ => rfl
  constructor
  case quiet =>
    intro hnone
    have hcalled := hw.called
    obtain ⟨m, hm, hcall⟩ : ∃ m ∈ p, m.event.isCall = true := by
      rw [← hw.calls] at hcalled
      exact List.countP_pos_iff.mp hcalled
    obtain ⟨before, after, rfl⟩ := List.append_of_mem hm
    cases he : m.event with
    | called fd events callback =>
      have hprefix : before ++ [m] <+: before ++ m :: after := ⟨after, by simp⟩
      obtain ⟨hn, _⟩ := hu.turns before m hprefix fd events callback he
      obtain ⟨hevents, hmask, _⟩ := hk.due_of_mem hp hn
      exact absurd (hevents.trans (hnone fd)) hmask
    | _ => simp [he, Event.isCall] at hcall
  case looked =>
    intro fd _
    refine ⟨hw.called, _, p, rfl, rfl, ?_⟩
    intro m hm
    obtain ⟨before, after, rfl⟩ := List.append_of_mem hm
    exact (hu.inPass before m ⟨after, by simp⟩).event
  case told =>
    refine History.each_append.mpr ⟨?_, ?_⟩
    · rw [History.each_singleton]
      exact nofun
    · refine hu.turns.mono ?_
      intro before m hturn fd events callback he
      obtain ⟨hn, hnew, halive, hearlier⟩ := hturn fd events callback he
      obtain ⟨hevents, hmask, hreg⟩ := hk.due_of_mem hp hn
      refine ⟨hevents, hmask, hreg, hnew, halive, ?_⟩
      intro d hd hdue
      obtain ⟨x, hx, rfl⟩ := hk.mem_of_due hp hdue
      exact hearlier x hx hd
  case served =>
    intro fd hdue
    obtain ⟨x, hx, rfl⟩ := hk.mem_of_due hp hdue
    rcases hw.done with hphase | hnone
    · right
      change History.discarded p = true
      rw [← hu.disposed]
      simp [isDisposed, hphase]
    · left
      change x.fd ∈ History.spent p
      rw [hu.undelivered, List.filter_eq_nil_iff] at hnone
      simpa using hnone x hx
  case standing =>
    intro hidle
    rw [← List.append_assoc]
    exact (hk.completedPass hw).standing hidle

/-- Forced events are neither lost nor told twice. Whatever is forced for a registered descriptor
goes into the history, inside of callbacks and outside. A pass that can not ask the system changes
nothing. Otherwise, unless a callback violates a contract, it tells each descriptor once, in
ascending order, what it is ready for together with all that was forced for it since the last
snapshot before this one, unless it is removed or the reactor discarded before its turn. It does so
whenever something was forced, and leaves what is forced meanwhile for the next pass. -/
theorem forced_told_once (hl : ReachedBy h r) (hidle : r.phase = .idle)
    (poll : List Fd → Except OsError (Fd → SocketEvents))
    (act : C → SocketEvents → Reactor C → σ → List (Request C) × σ) (s : σ) :
    (∀ (r₀ : Reactor C) (fd : Fd) (events : SocketEvents), r₀.isRegistered fd = true →
      (Request.reschedule fd events).answer r₀ =
        .ok (.forced fd events, (r₀.reschedule fd events).2)) ∧
    (∀ e, r.asks poll = .error e →
      r.monitorNoted poll act s h = .ok (.error (.selectFailed e), r, s, h)) ∧
    ∀ ready, r.asks poll = .ok ready →
      (∃ v, r.monitorNoted poll act s h = .error v ∧ CallbackMisuse act h v) ∨
      ∃ n p r' s', r.monitorNoted poll act s h = .ok (.ok n, r', s', h ++ p) ∧
        PassTellsDue ready h r p n r' := by
  have hk := hl.matchesHistory
  refine ⟨fun _ _ events hreg => answer_reschedule hreg events,
    fun e hs => monitorNoted_of_error hidle hs, ?_⟩
  intro ready hs
  by_cases hnone : r.notices ready = []
  · refine .inr ⟨0, [], r, s, ?_, ?_⟩
    · rw [List.append_nil]
      exact monitorNoted_of_quiet hk.resting.sound hidle hs hnone
    · have hdry : ∀ fd, ¬ History.due h ready fd ≠ .none := by
        intro fd hdue
        obtain ⟨n, hn, _⟩ := hk.mem_of_due hidle hdue
        rw [hnone] at hn
        cases hn
      refine ⟨fun _ => ⟨rfl, rfl, rfl⟩, fun fd hdue => absurd hdue (hdry fd), History.each_nil,
        fun fd hdue => absurd hdue (hdry fd), ?_⟩
      rw [List.append_nil]
      exact hk.standing
  · rcases hk.pass act s hidle hs hnone with
      hstop | ⟨n, p, r₁, s', hok, hw⟩
    · exact .inl hstop
    · refine .inr ⟨n, _, _, s', ?_, hw.passTellsDue hk hidle⟩
      rw [hok, List.append_assoc]

/-- The callback of the second descriptor forces something for itself and for the first one. -/
def forcing (callback : Nat) (_ : SocketEvents) (_ : Reactor Nat) (s : Unit) :
    List (Request Nat) × Unit :=
  if callback = 50 then
    ([.reschedule 5 { error := true }, .reschedule 3 { readable := true }], s)
  else ([], s)

def nothingReady (_ : Fd) : SocketEvents := .none

/-- Two descriptors, and a pass over what was forced for the second one. -/
def forcedPass : Checked (Except Failure Nat × Reactor Nat × Unit × History Nat) := do
  let (r, h) ← Request.answerAll
    [.add 3 .none 30, .add 5 .none 50, .reschedule 5 { writable := true }] {} []
  r.monitorNoted (fun _ => .ok nothingReady) forcing () h

theorem forcedPass_dues :
    (forcedPass.toOption.any fun (_, r, _, h) => r.phase = .idle &&
      History.due h nothingReady 3 = { readable := true } &&
      History.due h nothingReady 5 = { error := true } &&
      (r.monitorNoted (fun _ => .ok nothingReady) forcing () h).toOption.isSome) = true := by
  decide +kernel

/-- What was forced in one pass is told in the next one. -/
theorem forced_told_once_next : ∃ h r, ReachedBy h r ∧ r.phase = .idle ∧
    History.due h nothingReady 3 = { readable := true } ∧
    History.due h nothingReady 5 = { error := true } ∧
    ∃ n p r' s', r.monitorNoted (fun _ => .ok nothingReady) forcing () h =
      .ok (.ok n, r', s', h ++ p) ∧ PassTellsDue nothingReady h r p n r' := by
  have hdues := forcedPass_dues
  cases hpass : forcedPass with
  | error v => simp [hpass, Except.toOption] at hdues
  | ok x =>
    obtain ⟨result, r, s, h⟩ := x
    simp only [hpass, Except.toOption, Option.any_some, Bool.and_eq_true,
      decide_eq_true_eq] at hdues
    obtain ⟨⟨⟨hidle, hthree⟩, hfive⟩, hgoes⟩ := hdues
    obtain ⟨⟨r₀, h₀⟩, hasked, hmonitored⟩ := Checked.bind_eq_ok_iff.mp hpass
    have hreached : ReachedBy h r := .monitored (ReachedBy.new.askedAll hasked) hmonitored
    refine ⟨h, r, hreached, hidle, hthree, hfive, ?_⟩
    obtain ⟨_, _, hready⟩ :=
      forced_told_once hreached hidle (fun _ => .ok nothingReady) forcing ()
    rcases hready nothingReady rfl with ⟨v, hstop, _⟩ | hserved
    · rw [hstop] at hgoes
      cases hgoes
    · exact hserved

end Reactor

end DuplexRelay
