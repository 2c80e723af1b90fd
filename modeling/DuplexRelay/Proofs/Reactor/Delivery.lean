import DuplexRelay.Proofs.Reactor.NextDue

/-! A pass delivers its snapshot. However callbacks change the registrations meanwhile, a walk over
them calls just those that one gets by going once through the notices taken at the start. -/

namespace DuplexRelay.Reactor

variable {C σ : Type} {r r' : Reactor C} {cursor : Option Handle} {active : Nat}

/-- All that a callback does to the reactor is to make requests. -/
def Obeys (invoke : C → SocketEvents → Reactor C → σ → Checked (Reactor C × σ)) : Prop :=
  ∀ {callback events r s r' s'}, invoke callback events r s = .ok (r', s') →
    ∃ requests, Request.performAll requests r = .ok r'

/-- One round of a walk: the first registration that has something to be told was told it, and its
callback made some requests. -/
structure WalkRound (due : Due C) (requests : List (Request C)) (r r' : Reactor C) : Prop where
  first : ∃ fd,
    r.undelivered = ⟨fd, due.events, due.callback⟩ :: (r.takeDue due.id).undelivered
  sound : r'.Sound none
  busy : r'.Busy
  left : r'.undelivered =
    (r.takeDue due.id).undelivered.filter (·.fd ∉ requests.flatMap Request.removed)
  nothingDue : r'.touched = false → NothingDueUpTo (some due.id) r'

theorem walkRound {due : Due C} {requests : List (Request C)} (hr : r.Sound none) (hb : r.Busy)
    (hdue : r.nextDue? none = some due)
    (h : Request.performAll requests (r.takeDue due.id) = .ok r') :
    WalkRound due requests r (r'.putBack due.id due.callback) := by
  have htaken := sound_takeDue hr due.id
  have hbusy : (r.takeDue due.id).Busy := hb
  obtain ⟨hsound, hbusy', hleft⟩ := performedAll htaken hbusy h
  refine ⟨undelivered_takeDue hr hdue, sound_putBack hsound due.callback, hbusy', ?_, ?_⟩
  · rw [undelivered_putBack hsound, hleft]
  · intro ht
    obtain ⟨_, hhandles, hdues⟩ := untouched_performAll hbusy h ht
    refine nothingDueUpTo_due hr.wf hdue ?_ ?_ ?_
    · exact (handles_update _ _ r').trans (hhandles.trans (handles_update _ _ r))
    · rw [due?_putBack hsound, hdues, due?_takeDue_self]
    · intro i hi
      rw [due?_putBack hsound, hdues, due?_takeDue_other hi]

theorem WalkRound.fewer {due : Due C} {requests : List (Request C)}
    (h : WalkRound due requests r r')
    (ha : r.undelivered.length ≤ active + 1) : r'.undelivered.length ≤ active := by
  obtain ⟨fd, hfirst⟩ := h.first
  rw [hfirst, List.length_cons] at ha
  rw [h.left]
  exact Nat.le_trans (List.length_filter_le _ _) (by omega)

/-- The walk starts over, so nothing that happened before matters to it. -/
def untouched (r : Reactor C) : Reactor C := { r with touched := false }

/-- What each call of a callback makes of what was so before it. The walk goes on from there, unless
the reactor was discarded. -/
structure WalkInvariant (invoke : C → SocketEvents → Reactor C → σ → Checked (Reactor C × σ))
    (Before After : Nat → Reactor C → σ → Prop) : Prop where
  call : ∀ {k due r s r' s'}, r.Sound none → r.Busy → Before k r s → r.nextDue? none = some due →
    invoke due.callback due.events (r.takeDue due.id) s = .ok (r', s') →
    After (k + 1) (r'.putBack due.id due.callback) s'
  next : ∀ {k r s}, r.Busy → r.phase ≠ .pendingDispose → After k r s →
    Before k r s ∧ Before k r.untouched s

/-- At the end of a walk everything was delivered, unless the reactor was discarded. -/
theorem dispatch_walks {invoke : C → SocketEvents → Reactor C → σ → Checked (Reactor C × σ)}
    {Before After : Nat → Reactor C → σ → Prop} (hi : Obeys invoke)
    (hw : WalkInvariant invoke Before After) {k n : Nat} {s s' : σ} (hr : r.Sound none)
    (hb : r.Busy)
    (hp : Before k r s) (hc : NothingDueUpTo cursor r) (ha : r.undelivered.length ≤ active)
    (h : dispatch invoke active cursor r s = .ok (n, r', s')) :
    r'.Sound none ∧ r'.Busy ∧ (r'.phase = .pendingDispose ∧ After (k + n) r' s' ∨
      r'.undelivered = [] ∧ Before (k + n) r' s') := by
  -- each call takes away one of the notices that are left, of which there are no more than calls
  induction active generalizing cursor r s k n with
  | zero =>
    cases h
    exact ⟨hr, hb, .inr ⟨List.eq_nil_of_length_eq_zero (by omega), hp⟩⟩
  | succ active ih =>
    unfold dispatch at h
    rw [nextDue?_of_nothingDueUpTo hc] at h
    cases hdue : r.nextDue? none with
    | none =>
      simp only [hdue, Except.ok.injEq, Prod.mk.injEq] at h
      obtain ⟨rfl, rfl, rfl⟩ := h
      exact ⟨hr, hb, .inr ⟨undelivered_of_nextDue?_none hr.wf hdue, hp⟩⟩
    | some due =>
      simp only [hdue, Checked.bind_eq_ok_iff] at h
      obtain ⟨⟨r₁, s₁⟩, hinvoke, h⟩ := h
      obtain ⟨requests, hrequests⟩ := hi hinvoke
      have htold := walkRound hr hb hdue hrequests
      have hafter := hw.call hr hb hp hdue hinvoke
      dsimp only at h
      split at h
      · rename_i hphase
        cases h
        exact ⟨htold.sound, htold.busy, .inl ⟨hphase, hafter⟩⟩
      rename_i hphase
      obtain ⟨hbefore, huntouched⟩ := hw.next htold.busy hphase hafter
      -- after a change of the registrations the walk starts over, else nothing is due before its
      -- cursor
      split at h
      · simp only [Checked.bind_eq_ok_iff] at h
        obtain ⟨⟨j, r₂, s₂⟩, hrest, h⟩ := h
        cases h
        rw [← Nat.add_assoc, Nat.add_right_comm]
        exact ih (r := (r₁.putBack due.id due.callback).untouched)
          ⟨htold.sound.wf, htold.sound.resting⟩ htold.busy huntouched (nothingDueUpTo_none _)
          (htold.fewer ha) hrest
      · rename_i htouched
        simp only [Checked.bind_eq_ok_iff] at h
        obtain ⟨⟨j, r₂, s₂⟩, hrest, h⟩ := h
        cases h
        rw [← Nat.add_assoc, Nat.add_right_comm]
        exact ih htold.sound htold.busy hbefore (htold.nothingDue (by simpa using htouched))
          (htold.fewer ha) hrest

/-- A walk violates a contract only where a callback does that it has to call. -/
theorem dispatch_stops {invoke : C → SocketEvents → Reactor C → σ → Checked (Reactor C × σ)}
    {Before After : Nat → Reactor C → σ → Prop} (hi : Obeys invoke)
    (hw : WalkInvariant invoke Before After) {k : Nat} {s : σ} {v : Violation} (hr : r.Sound none)
    (hb : r.Busy) (hp : Before k r s) (hc : NothingDueUpTo cursor r)
    (ha : r.undelivered.length ≤ active)
    (h : dispatch invoke active cursor r s = .error v) :
    ∃ k₁ due r₁ s₁, r₁.Sound none ∧ r₁.Busy ∧ Before k₁ r₁ s₁ ∧ r₁.nextDue? none = some due ∧
      invoke due.callback due.events (r₁.takeDue due.id) s₁ = .error v := by
  induction active generalizing cursor r s k with
  | zero => cases h
  | succ active ih =>
    unfold dispatch at h
    rw [nextDue?_of_nothingDueUpTo hc] at h
    cases hdue : r.nextDue? none with
    | none => simp only [hdue, reduceCtorEq] at h
    | some due =>
      simp only [hdue, Checked.bind_eq_error_iff] at h
      rcases h with hstop | ⟨⟨r₁, s₁⟩, hinvoke, h⟩
      · exact ⟨k, due, r, s, hr, hb, hp, hdue, hstop⟩
      obtain ⟨requests, hrequests⟩ := hi hinvoke
      have htold := walkRound hr hb hdue hrequests
      have hafter := hw.call hr hb hp hdue hinvoke
      dsimp only at h
      split at h
      · cases h
      rename_i hphase
      obtain ⟨hbefore, huntouched⟩ := hw.next htold.busy hphase hafter
      split at h
      · rcases Checked.bind_eq_error_iff.mp h with hrest | ⟨_, _, hdone⟩
        · exact ih (r := (r₁.putBack due.id due.callback).untouched)
            ⟨htold.sound.wf, htold.sound.resting⟩ htold.busy huntouched (nothingDueUpTo_none _)
            (htold.fewer ha) hrest
        · cases hdone
      · rename_i htouched
        rcases Checked.bind_eq_error_iff.mp h with hrest | ⟨_, _, hdone⟩
        · exact ih htold.sound htold.busy hbefore (htold.nothingDue (by simpa using htouched))
            (htold.fewer ha) hrest
        · cases hdone

/-- What is kept by each call of a callback, with what comes before and after it. -/
def KeptByCalls (invoke : C → SocketEvents → Reactor C → σ → Checked (Reactor C × σ))
    (P : Reactor C → σ → Prop) : Prop :=
  (∀ {r s}, P r s → P r.untouched s) ∧
    ∀ {due : Due C} {r s r' s'}, r.Sound none → r.Busy → P r s → r.nextDue? none = some due →
      invoke due.callback due.events (r.takeDue due.id) s = .ok (r', s') →
      P (r'.putBack due.id due.callback) s'

theorem KeptByCalls.walks {invoke : C → SocketEvents → Reactor C → σ → Checked (Reactor C × σ)}
    {P : Reactor C → σ → Prop} (hkeeps : KeptByCalls invoke P) :
    WalkInvariant invoke (fun _ => P) (fun _ => P) where
  call hr hb hp hdue hinvoke := hkeeps.2 hr hb hp hdue hinvoke
  next _ _ hp := ⟨hp, hkeeps.1 hp⟩

/-- Whatever each call of a callback keeps was kept by the walk. -/
theorem dispatch_keeps {invoke : C → SocketEvents → Reactor C → σ → Checked (Reactor C × σ)}
    {P : Reactor C → σ → Prop} (hi : Obeys invoke) (hkeeps : KeptByCalls invoke P) {n : Nat}
    {s s' : σ} (hr : r.Sound none) (hb : r.Busy) (hp : P r s) (hc : NothingDueUpTo cursor r)
    (ha : r.undelivered.length ≤ active)
    (h : dispatch invoke active cursor r s = .ok (n, r', s')) :
    r'.Sound none ∧ r'.Busy ∧ P r' s' ∧
      (r'.phase = .pendingDispose ∨ r'.undelivered = []) := by
  obtain ⟨hsound, hbusy, hend⟩ := dispatch_walks (k := 0) hi hkeeps.walks hr hb hp hc ha h
  rcases hend with ⟨hphase, hkept⟩ | ⟨hnone, hkept⟩
  · exact ⟨hsound, hbusy, hkept, .inl hphase⟩
  · exact ⟨hsound, hbusy, hkept, .inr hnone⟩

section Scripts

variable (act : C → SocketEvents → σ → List (Request C) × σ)

/-- Runs a callback that makes some requests, and keeps note of the call. -/
def scripted (callback : C) (events : SocketEvents) (r : Reactor C)
    (x : σ × List (C × SocketEvents)) : Checked (Reactor C × σ × List (C × SocketEvents)) := do
  let (requests, s) := act callback events x.1
  let r ← Request.performAll requests r
  return (r, s, x.2 ++ [(callback, events)])

/-- Goes once through some notices and calls each one whose registration was not removed, until the
reactor is discarded. Only the table of descriptors is looked at. Gives the notices that were
called. -/
def deliver : List (Notice C) → (gone : List Fd) → Table → σ →
    Checked (List (Notice C) × Table × σ)
  | [], _, t, s => .ok ([], t, s)
  | n :: rest, gone, t, s =>
    if t.discarded || n.fd ∈ gone then deliver rest gone t s
    else do
      let (requests, s) := act n.callback n.events s
      let t ← Request.enterAll requests t
      let (called, t, s) ← deliver rest (gone ++ requests.flatMap Request.removed) t s
      return (n :: called, t, s)

variable {act}

theorem scripted_obeys : Obeys (scripted act) := by
  intro callback events r x r' x' h
  obtain ⟨r₁, hperform, h⟩ := Checked.bind_eq_ok_iff.mp h
  cases h
  exact ⟨_, hperform⟩

theorem deliver_discarded {t : Table} (ht : t.discarded = true) (notices : List (Notice C))
    (gone : List Fd) (s : σ) : deliver act notices gone t s = .ok ([], t, s) := by
  induction notices with
  | nil => rfl
  | cons n rest ih =>
    unfold deliver
    rw [ht, Bool.true_or, if_pos rfl]
    exact ih

/-- A notice whose registration was removed may as well be left out. -/
theorem deliver_filter (notices : List (Notice C)) (out gone : List Fd) (t : Table) (s : σ) :
    deliver act (notices.filter (·.fd ∉ out)) gone t s =
      deliver act notices (out ++ gone) t s := by
  induction notices generalizing gone t s with
  | nil => rfl
  | cons n rest ih =>
    by_cases hn : n.fd ∈ out
    · rw [List.filter_cons_of_neg (by simpa using hn), ih]
      conv => rhs; unfold deliver
      rw [if_pos (by simp [hn])]
    · rw [List.filter_cons_of_pos (by simpa using hn)]
      unfold deliver
      simp only [ih, List.append_assoc, List.mem_append, hn, false_or]

theorem deliver_sublist {notices called : List (Notice C)} {gone : List Fd} {t t' : Table}
    {s s' : σ} (h : deliver act notices gone t s = .ok (called, t', s')) :
    called.Sublist notices := by
  induction notices generalizing called gone t s with
  | nil =>
    cases h
    exact List.Sublist.refl []
  | cons n rest ih =>
    unfold deliver at h
    split at h
    · exact (ih h).cons n
    · simp only [Checked.bind_eq_ok_iff] at h
      obtain ⟨t₁, _, ⟨called, t₂, s₂⟩, hrest, h⟩ := h
      cases h
      exact (ih hrest).cons_cons n

theorem table_putBack {id : Handle} (hr : r.registrations.WellFormed) (callback : C) :
    (r.putBack id callback).table = r.table := by
  unfold table putBack
  rw [isRegistered_update hr]
  rfl

theorem table_takeDue (hr : r.registrations.WellFormed) (id : Handle) :
    (r.takeDue id).table = r.table := by
  unfold table takeDue
  rw [isRegistered_update hr]
  rfl

theorem calls_cons {n : Notice C} {log : List (C × SocketEvents)}
    {walked : Checked (Nat × Reactor C × σ × List (C × SocketEvents))}
    {delivered : Checked (List (Notice C) × Table × σ)}
    (h : walked.map (fun x => (x.1, x.2.1.table, x.2.2)) = delivered.map fun x =>
      (x.1.length, x.2.1, x.2.2,
        log ++ [(n.callback, n.events)] ++ x.1.map fun n => (n.callback, n.events))) :
    (walked >>= fun x => pure (x.1 + 1, x.2.1, x.2.2)).map
        (fun x => (x.1, x.2.1.table, x.2.2)) =
      (delivered >>= fun x => pure (n :: x.1, x.2.1, x.2.2)).map fun x =>
        (x.1.length, x.2.1, x.2.2, log ++ x.1.map fun n => (n.callback, n.events)) := by
  cases walked with
  | error v =>
    cases delivered with
    | error u => simpa using h
    | ok d => simp at h
  | ok x =>
    cases delivered with
    | error u => simp at h
    | ok d =>
      simp only [Checked.map_ok, Except.ok.injEq, Prod.mk.injEq, Checked.ok_bind,
        Checked.pure_eq_ok, List.length_cons, List.map_cons] at h ⊢
      obtain ⟨hcount, htable, hstate⟩ := h
      refine ⟨by rw [hcount], htable, ?_⟩
      rw [hstate]
      simp

/-- A walk calls what is left of the notices, in their order, and ends with the same table. -/
theorem dispatch_delivers {s : σ} {log : List (C × SocketEvents)} (hr : r.Sound none)
    (hb : r.phase = .dispatching) (hc : NothingDueUpTo cursor r)
    (ha : r.undelivered.length ≤ active) : (dispatch (scripted act) active cursor r (s, log)).map
        (fun x => (x.1, x.2.1.table, x.2.2)) =
      (deliver act r.undelivered [] r.table s).map fun x =>
        (x.1.length, x.2.1, x.2.2, log ++ x.1.map fun n => (n.callback, n.events)) := by
  induction active generalizing cursor r s log with
  | zero =>
    have hnil : r.undelivered = [] := List.eq_nil_of_length_eq_zero (by omega)
    simp [hnil, dispatch, deliver]
  | succ active ih =>
    unfold dispatch
    rw [nextDue?_of_nothingDueUpTo hc]
    cases hdue : r.nextDue? none with
    | none => simp [undelivered_of_nextDue?_none hr.wf hdue, deliver]
    | some due =>
      obtain ⟨fd, hfirst⟩ := undelivered_takeDue hr hdue
      have htaken := sound_takeDue hr due.id
      have hbusy : (r.takeDue due.id).Busy := .inl hb
      have halive : r.table.discarded = false := by simp [table, isDisposed, hb]
      rcases hact : act due.callback due.events s with ⟨requests, s₁⟩
      have hperform := table_performAll htaken hbusy requests
      rw [table_takeDue hr.wf] at hperform
      rw [hfirst]
      unfold deliver scripted
      rw [if_neg (by simp [halive])]
      simp only [hact, ← hperform, List.nil_append]
      cases hrequests : Request.performAll requests (r.takeDue due.id) with
      | error v => simp
      | ok r₁ =>
        have htold := walkRound hr (.inl hb) hdue hrequests
        have htable : (r₁.putBack due.id due.callback).table = r₁.table :=
          table_putBack (performedAll htaken hbusy hrequests).1.wf due.callback
        simp only [Checked.ok_bind, Checked.map_ok, Checked.pure_eq_ok]
        -- a callback that discards the reactor is the last one that is called
        by_cases hphase : (r₁.putBack due.id due.callback).phase = .pendingDispose
        · have hdiscarded : r₁.table.discarded = true := by
            rw [← htable]
            simp [table, isDisposed, hphase]
          rw [if_pos hphase, deliver_discarded hdiscarded]
          simp [htable]
        · have hrunning : (r₁.putBack due.id due.callback).phase = .dispatching := by
            rcases htold.busy with hb | hb
            · exact hb
            · exact absurd hb hphase
          have hleft : deliver act _ [] r₁.table s₁ = deliver act _ _ r₁.table s₁ :=
            deliver_filter (r.takeDue due.id).undelivered (requests.flatMap Request.removed) []
              r₁.table s₁
          rw [← htold.left, List.append_nil, ← htable] at hleft
          rw [if_neg hphase, ← htable, ← hleft]
          split
          · exact calls_cons (ih (r := (r₁.putBack due.id due.callback).untouched)
              ⟨htold.sound.wf, htold.sound.resting⟩ hrunning (nothingDueUpTo_none _)
                (htold.fewer ha))
          · rename_i htouched
            exact calls_cons (ih htold.sound hrunning (htold.nothingDue (by simpa using htouched))
              (htold.fewer ha))

end Scripts

end DuplexRelay.Reactor
