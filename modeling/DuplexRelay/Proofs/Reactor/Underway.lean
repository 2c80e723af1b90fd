import Mathlib.Data.List.Induction
import DuplexRelay.Proofs.Reactor.History

/-! Passes with a note of all that happens in them. While a pass is under way, its notices are told
in their order, each one as it was at the snapshot, and what the reactor knows is what the history
says. -/

namespace DuplexRelay

namespace History

variable {C : Type} {X Y : History C → Moment C → Prop} {h p : History C} {m : Moment C}

/-- Each moment is of a kind that may depend on what came before. -/
def Each (X : History C → Moment C → Prop) (h : History C) : Prop :=
  ∀ before m, before ++ [m] <+: h → X before m

theorem each_nil : Each X ([] : History C) := by
  intro before m hprefix
  simp at hprefix

theorem each_concat : Each X (h ++ [m]) ↔ Each X h ∧ X h m := by
  unfold Each
  simp only [List.prefix_concat_iff]
  constructor
  · intro hall
    refine ⟨fun before x hx => hall before x (.inr hx), hall h m (.inl rfl)⟩
  · rintro ⟨hold, hnew⟩ before x (heq | hx)
    · obtain ⟨rfl, hlast⟩ := List.append_inj' heq rfl
      cases hlast
      exact hnew
    · exact hold before x hx

theorem each_singleton : Each X [m] ↔ X [] m := by
  have hconcat : Each X ([] ++ [m]) ↔ _ := each_concat
  simpa [each_nil] using hconcat

theorem each_append : Each X (h ++ p) ↔ Each X h ∧ Each (fun before => X (h ++ before)) p := by
  induction p using List.reverseRecOn with
  | nil => simp [each_nil]
  | append_singleton p m ih =>
    rw [← List.append_assoc, each_concat, each_concat, ih, and_assoc]

theorem Each.mono (hx : Each X h) (hxy : ∀ before m, X before m → Y before m) : Each Y h :=
  fun before m hprefix => hxy before m (hx before m hprefix)

end History

/-- What is so from the moment on at which a reactor was discarded. -/
structure Moment.AfterDiscard {C : Type} (before : History C) (m : Moment C) : Prop where
  disposed : m.reactor.isDisposed = History.discarded (before ++ [m])
  late : History.discarded before = true → m.event.Late

/-- A moment of a pass, after its snapshot. -/
structure Moment.InPass {C : Type} (before : History C) (m : Moment C) : Prop where
  event : m.event ≠ .looked
  busy : m.reactor.Busy
  standing : ∀ fd, m.reactor.standing fd = History.standing (before ++ [m]) fd

/-- A callback is called only in its turn: with a notice of the pass, once, and after all notices of
smaller descriptors. -/
def Moment.InTurn {C : Type} (notices : List (Reactor.Notice C)) (before : History C)
    (m : Moment C) : Prop :=
  ∀ fd events callback, m.event = .called fd events callback →
    ⟨fd, events, callback⟩ ∈ notices ∧ fd ∉ History.spent before ∧
      History.discarded before = false ∧
      ∀ n ∈ notices, n.fd < fd → n.fd ∈ History.spent before

namespace Reactor

variable {C σ : Type} {r r' : Reactor C} {notices : List (Notice C)} {h p : History C}
  {due : Due C} {running : Option Handle}

/-- The descriptor whose callback runs. -/
def running? (r : Reactor C) : Option Fd :=
  (r.registrations.toList.find? fun x => x.2.callback.isNone).map (·.1)

/-- A note of the callback that is about to run. -/
def callNote (callback : C) (events : SocketEvents) (r : Reactor C) : History C :=
  (r.running?.map fun fd => ⟨.called fd events callback, r⟩).toList

/-- Runs a callback that makes some requests, and takes note of the call and of what the requests
come to. -/
def noting (act : C → SocketEvents → Reactor C → σ → List (Request C) × σ) (callback : C)
    (events : SocketEvents) (r : Reactor C) (x : σ × History C) :
    Checked (Reactor C × σ × History C) := do
  let (requests, s) := act callback events r x.1
  let (r, h) ← Request.answerAll requests r (x.2 ++ r.callNote callback events)
  return (r, s, h)

theorem noting_obeys {act : C → SocketEvents → Reactor C → σ → List (Request C) × σ} :
    Obeys (noting act) := by
  intro callback events r x r' x' h
  obtain ⟨⟨r₁, h₁⟩, hanswer, heq⟩ := Checked.bind_eq_ok_iff.mp h
  cases heq
  refine ⟨(act callback events r x.1).1, ?_⟩
  rw [← Request.answerAll_performAll, hanswer, Checked.map_ok]

/-- What is taken out to be told is the first of what was not delivered yet, and is found again as
the one that runs. -/
theorem running?_takeDue (hr : r.Sound none) (hdue : r.nextDue? none = some due) :
    ∃ fd, (r.takeDue due.id).running? = some fd ∧
      r.undelivered = ⟨fd, due.events, due.callback⟩ :: (r.takeDue due.id).undelivered := by
  obtain ⟨fd, reg, before, after, hsplit, hbefore, hnotice⟩ := nextDue?_split hr.wf hdue
  refine ⟨fd, ?_, ?_⟩
  · have hnodup := hr.wf.entries_handles_nodup
    change (r.entries.map (·.1)).Nodup at hnodup
    rw [hsplit, List.map_append, List.map_cons, List.nodup_append] at hnodup
    have hhandles : ∀ x ∈ before, x.1 ≠ due.id := by
      intro x hx heq
      exact hnodup.2.2 _ (List.mem_map_of_mem hx) _ List.mem_cons_self heq
    -- all callbacks were in place before, so the one that is missing now is the first that is
    have hcallbacks : ∀ x ∈ before, x.2.2.callback ≠ none := by
      intro x hx hnone
      have hmem : x ∈ r.entries := by
        rw [hsplit]
        exact List.mem_append_left _ hx
      cases (hr.resting hmem hnone).1
    have hlisted : (r.takeDue due.id).registrations.toList =
        (r.takeDue due.id).entries.map (·.2) := (sound_takeDue hr due.id).wf.toList_eq
    unfold running?
    rw [hlisted]
    unfold takeDue
    rw [entries_update, hsplit, List.map_append, List.map_append, List.find?_append]
    have hnone : ((before.map fun x => if x.1 = due.id
        then (x.1, x.2.1, { x.2.2 with pending := SocketEvents.none, callback := none })
        else x).map (·.2)).find? (fun x => x.2.callback.isNone) = none := by
      rw [List.find?_eq_none]
      intro y hy
      obtain ⟨z, hz, rfl⟩ := List.mem_map.mp hy
      obtain ⟨x, hx, rfl⟩ := List.mem_map.mp hz
      rw [if_neg (hhandles x hx)]
      simpa using hcallbacks x hx
    rw [hnone]
    simp
  · obtain ⟨d, hfirst⟩ := undelivered_takeDue hr hdue
    have hhead : r.undelivered.head? = some ⟨fd, due.events, due.callback⟩ := by
      have hdry : before.filterMap (fun x => noticeOf x.2.1 x.2.2) = [] := by
        rw [List.filterMap_eq_nil_iff]
        exact hbefore
      unfold undelivered
      rw [hsplit, List.filterMap_append, hdry, List.nil_append, List.filterMap_cons, hnotice]
      rfl
    rw [hfirst, List.head?_cons] at hhead
    cases hhead
    exact hfirst

/-- A pass is under way: some of its notices were told or are obsolete, and the reactor is as the
history says. -/
structure Underway (notices : List (Notice C)) (h p : History C) (r : Reactor C) : Prop where
  ascend : notices.Pairwise fun a b => a.fd < b.fd
  fresh : History.discarded h = false
  standing : ∀ fd, r.standing fd = History.standing (h ++ p) fd
  undelivered : r.undelivered = notices.filter (·.fd ∉ History.spent p)
  disposed : r.isDisposed = History.discarded p
  afterDiscard : History.Each (fun before => Moment.AfterDiscard (h ++ before)) p
  inPass : History.Each (fun before => Moment.InPass (h ++ before)) p
  turns : History.Each (Moment.InTurn notices) p

theorem Underway.noted {q : Request C} {e : Event C} (hu : Underway notices h p r)
    (hr : r.Sound running) (hb : r.Busy) (ha : q.answer r = .ok (e, r')) :
    Underway notices h (p ++ [⟨e, r'⟩]) r' := by
  obtain ⟨hperformed, _⟩ := answered ha
  have hbusy := busy_performed hb hperformed
  have hphase : r'.phase ≠ .disposed := by
    rcases hbusy with hp | hp <;> simp [hp]
  obtain ⟨hspent, hcall, hlook⟩ := spent_answered ha
  have hstanding : ∀ fd, r'.standing fd = History.standing (h ++ p ++ [⟨e, r'⟩]) fd := by
    intro fd
    rw [History.standing_concat, ← hu.standing]
    exact standing_answered hr.wf ha hphase fd
  have hdisposed : r'.isDisposed = (History.discarded p || e.isDiscard) := by
    rw [isDisposed_answered ha, hu.disposed]
  constructor
  case ascend => exact hu.ascend
  case fresh => exact hu.fresh
  case standing =>
    rw [← List.append_assoc]
    exact hstanding
  case undelivered =>
    rw [undelivered_performed hr hb hperformed, hu.undelivered, List.filter_filter, ← hspent]
    apply List.filter_congr
    intro n _
    simp [Bool.and_comm]
  case disposed => simpa using hdisposed
  case afterDiscard =>
    refine History.each_concat.mpr ⟨hu.afterDiscard, ?_, ?_⟩
    · simpa [hu.fresh] using hdisposed
    · intro hlate
      rw [History.discarded_append, hu.fresh, Bool.false_or, ← hu.disposed] at hlate
      exact late_answered ha hlate
  case inPass => exact History.each_concat.mpr ⟨hu.inPass, hlook, hbusy, hstanding⟩
  case turns =>
    refine History.each_concat.mpr ⟨hu.turns, ?_⟩
    rintro fd events callback heq
    have hev : e = .called fd events callback := heq
    rw [hev] at hcall
    cases hcall

theorem Underway.notedAll {qs : List (Request C)} {h' : History C} (hu : Underway notices h p r)
    (hr : r.Sound running) (hb : r.Busy) (ha : Request.answerAll qs r (h ++ p) = .ok (r', h')) :
    ∃ p', h' = h ++ p' ∧ r'.Sound running ∧ Underway notices h p' r' ∧ p'.calls = p.calls := by
  induction qs generalizing r p with
  | nil =>
    cases ha
    exact ⟨p, rfl, hr, hu, rfl⟩
  | cons q rest ih =>
    obtain ⟨⟨e, r₁⟩, hq, hrest⟩ := Checked.bind_eq_ok_iff.mp ha
    obtain ⟨hperformed, _⟩ := answered hq
    dsimp only at hrest
    rw [List.append_assoc] at hrest
    obtain ⟨p', hh, hr', hu', hcalls⟩ := ih (hu.noted hr hb hq) (sound_performed hr hperformed)
      (busy_performed hb hperformed) hrest
    refine ⟨p', hh, hr', hu', ?_⟩
    rw [hcalls, History.calls_append]
    simp [History.calls, (spent_answered hq).2.1]

/-- The first notice that is left has the smallest descriptor of those that are. -/
theorem Underway.foremost {first : Notice C} {others : List (Notice C)}
    (hu : Underway notices h p r) (hfirst : r.undelivered = first :: others) :
    first ∈ notices ∧ first.fd ∉ History.spent p ∧ (∀ n ∈ others, first.fd < n.fd) ∧
      ∀ n ∈ notices, n.fd < first.fd → n.fd ∈ History.spent p := by
  have hsplit : notices.filter (·.fd ∉ History.spent p) = first :: others :=
    hu.undelivered.symm.trans hfirst
  have hbehind : ∀ n ∈ others, first.fd < n.fd := by
    have hpairwise := hu.ascend.filter fun n => decide (n.fd ∉ History.spent p)
    rw [hsplit, List.pairwise_cons] at hpairwise
    exact hpairwise.1
  have hin : first ∈ notices.filter (·.fd ∉ History.spent p) := by
    rw [hsplit]
    exact List.mem_cons_self
  obtain ⟨hmem, hnew⟩ := List.mem_filter.mp hin
  refine ⟨hmem, by simpa using hnew, hbehind, ?_⟩
  intro n hn hlt
  apply Decidable.byContradiction
  intro hopen
  have hkept : n ∈ notices.filter (·.fd ∉ History.spent p) :=
    List.mem_filter.mpr ⟨hn, by simpa using hopen⟩
  rw [hsplit] at hkept
  rcases List.mem_cons.mp hkept with rfl | hlater
  · exact absurd hlt (Int.lt_irrefl _)
  · exact absurd hlt (Int.lt_asymm (hbehind n hlater))

theorem Underway.called (hu : Underway notices h p r) (hr : r.Sound none)
    (hb : r.phase = .dispatching) (hdue : r.nextDue? none = some due) :
    Underway notices h (p ++ (r.takeDue due.id).callNote due.callback due.events)
        (r.takeDue due.id) ∧
      History.calls ((r.takeDue due.id).callNote due.callback due.events) = 1 := by
  obtain ⟨fd, hrunning, hfirst⟩ := running?_takeDue hr hdue
  have hnote : (r.takeDue due.id).callNote due.callback due.events =
      [⟨.called fd due.events due.callback, r.takeDue due.id⟩] := by
    simp [callNote, hrunning]
  have halive : History.discarded p = false := by
    rw [← hu.disposed]
    simp [isDisposed, hb]
  have hsame : (r.takeDue due.id).isDisposed = r.isDisposed := rfl
  have hstanding : ∀ d, (r.takeDue due.id).standing d = History.standing (h ++ p) d := by
    intro d
    rw [standing_takeDue]
    exact hu.standing d
  obtain ⟨hmem, hnew, hbehind, hbefore⟩ := hu.foremost hfirst
  rw [hnote]
  refine ⟨?_, rfl⟩
  constructor
  case ascend => exact hu.ascend
  case fresh => exact hu.fresh
  case standing =>
    intro d
    rw [← List.append_assoc, History.standing_concat]
    exact hstanding d
  case undelivered =>
    -- only the first notice that was left has the descriptor of the callback
    have hrest : notices.filter (·.fd ∉ History.spent (p ++ [⟨.called fd due.events due.callback,
        r.takeDue due.id⟩])) = r.undelivered.filter (·.fd ≠ fd) := by
      rw [hu.undelivered, List.filter_filter]
      apply List.filter_congr
      intro n _
      simp [Event.spent, Bool.and_comm]
    rw [hrest, hfirst, List.filter_cons_of_neg (by simp), List.filter_eq_self.mpr]
    intro n hn
    simpa using Int.ne_of_gt (hbehind n hn)
  case disposed => simp [hsame, hu.disposed, Event.isDiscard]
  case afterDiscard =>
    refine History.each_concat.mpr ⟨hu.afterDiscard, ?_, ?_⟩
    · simp [hsame, hu.disposed, hu.fresh, Event.isDiscard]
    · intro hlate
      simp [hu.fresh, halive] at hlate
  case inPass =>
    refine History.each_concat.mpr ⟨hu.inPass, ?_, .inl hb, ?_⟩
    · intro hlooked
      cases hlooked
    intro d
    rw [History.standing_concat]
    exact hstanding d
  case turns =>
    refine History.each_concat.mpr ⟨hu.turns, ?_⟩
    intro d events callback heq
    cases heq
    exact ⟨hmem, hnew, halive, hbefore⟩

/-- A pass that is under way, with the number of callbacks that were called. -/
def UnderwayCounting (notices : List (Notice C)) (h : History C) (k : Nat) (r : Reactor C)
    (x : σ × History C) : Prop :=
  ∃ p, x.2 = h ++ p ∧ Underway notices h p r ∧ History.calls p = k

theorem Underway.same (hu : Underway notices h p r)
    (hstanding : ∀ fd, r'.standing fd = r.standing fd)
    (hundelivered : r'.undelivered = r.undelivered) (hdisposed : r'.isDisposed = r.isDisposed) :
    Underway notices h p r' where
  ascend := hu.ascend
  fresh := hu.fresh
  standing fd := (hstanding fd).trans (hu.standing fd)
  undelivered := hundelivered.trans hu.undelivered
  disposed := hdisposed.trans hu.disposed
  afterDiscard := hu.afterDiscard
  inPass := hu.inPass
  turns := hu.turns

theorem noting_walks (notices : List (Notice C)) (h : History C)
    (act : C → SocketEvents → Reactor C → σ → List (Request C) × σ) :
    WalkInvariant (noting act)
    (fun k r x => r.phase = .dispatching ∧ UnderwayCounting notices h k r x)
      (UnderwayCounting notices h) where
  call := by
    rintro k due r ⟨s, _⟩ r' ⟨s', h'⟩ hr hb ⟨hphase, p, rfl, hu, rfl⟩ hdue hinvoke
    obtain ⟨⟨r₁, h₁⟩, hanswer, heq⟩ := Checked.bind_eq_ok_iff.mp hinvoke
    cases heq
    have htaken := sound_takeDue hr due.id
    have hbusy : (r.takeDue due.id).Busy := hb
    obtain ⟨hcalled, hone⟩ := hu.called hr hphase hdue
    dsimp only at hanswer
    rw [List.append_assoc] at hanswer
    obtain ⟨p', rfl, hsound, hu', hcalls⟩ := hcalled.notedAll htaken hbusy hanswer
    refine ⟨p', rfl, ?_, by rw [hcalls, History.calls_append, hone]⟩
    exact hu'.same (standing_putBack due.id due.callback r')
      (undelivered_putBack hsound due.callback) rfl
  next := by
    rintro k r x hb hphase ⟨p, hx, hu, hk⟩
    have hgoing : r.phase = .dispatching := hb.resolve_right hphase
    exact ⟨⟨hgoing, p, hx, hu, hk⟩, hgoing, p, hx, hu.same (fun _ => rfl) rfl rfl, hk⟩

end Reactor

end DuplexRelay
