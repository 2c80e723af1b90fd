import DuplexRelay.Proofs.Pipe.Deferral

/-! Closings of the way out that an atomic pipe puts off, over whole runs. Main result: over a
socket and over a memory pipe, a closing that is put off is executed once, behind the last byte
before it, and is reported in that call only. -/

namespace DuplexRelay.Atomic

variable {P W C : Type} [Pipe P W C]

theorem unclosed_kept (hP : Pipe.ClosesOnce P W C) :
    Pipe.Keeps fun (p : Atomic P) (_ : W) => p.queue ≠ none → (state p.inner).finSent = false where
  attach h hcall := by
    obtain ⟨⟨_, inner, _⟩, hattach, heq⟩ := Checked.bind_eq_ok_iff.mp hcall
    cases heq
    exact fun hq => (hP.attach hattach).trans (h hq)
  recv h hcall := by
    obtain ⟨⟨_, inner, _⟩, hrecv, heq⟩ := Checked.bind_eq_ok_iff.mp hcall
    cases heq
    exact fun hq => (hP.recv hrecv).trans (h hq)
  send h hcall := by
    cases sentWhole hcall with
    | waiting => exact h
    | refused _ _ hs | all _ _ hs | part _ _ hs => exact fun _ => (hP.send hs).2
  sendFin h hcall := by
    cases closedBehind hcall with
    | waiting => exact h
    | passed _ hq => exact fun hn => absurd hq hn
  react h hcall := by
    cases reacted hcall with
    | passed hr => exact fun hq => (hP.react hr).1.trans (h hq)
    | flushing hr _ hq hf =>
      cases hf with
      | closed hnone => exact fun hn => absurd hnone hn
      | skipped =>
        cases hq with
        | idle => exact fun hn => (hP.react hr).1.trans (h hn)
        | refused _ hs | part _ hs | all _ hs => exact fun _ => (hP.send hs).2
  reschedule h := h

section Runs

variable {p p' : Atomic P} {w w' : W} {es : List CallTrace} {turns : List (PipeTurn W C)}

theorem finDone_of_traceAll (hP : Pipe.ClosesOnce P W C) (hp : p.FinDone)
    (h : traceAll turns p w = .ok (es, p', w')) :
    (∀ e ∈ es, e.AfterClosing) ∧ (state p').finSent = true := by
  induction turns generalizing p w es with
  | nil =>
    cases h
    exact ⟨nofun, hp.shown⟩
  | cons turn rest ih =>
    obtain ⟨l, w₁, others, hcall, hrest, rfl⟩ := traceAll_cons h
    obtain ⟨hafter, hclosed⟩ := step_finDone hP hp.fresh (wayOutStep hP rfl hcall)
    obtain ⟨hothers, hshown⟩ := ih hclosed.pipe hrest
    exact ⟨List.forall_mem_cons.mpr ⟨hafter, hothers⟩, hshown⟩

theorem deferredFin_of_finQueued (hP : Pipe.ClosesOnce P W C) (hp : p.FinQueued)
    (h : traceAll turns p w = .ok (es, p', w')) : DeferredFin p.unsent es p' := by
  induction turns generalizing p w es with
  | nil =>
    cases h
    exact .waiting nofun hp rfl
  | cons turn rest ih =>
    obtain ⟨l, w₁, others, hcall, hrest, rfl⟩ := traceAll_cons h
    rcases step_finQueued hP hp.fresh (wayOutStep hP rfl hcall) with
      ⟨hopen, hqueued, howed⟩ | ⟨answer, report, hcloses, hdone⟩
    · cases ih hqueued.pipe hrest with
      | waiting hothers hlast hsum =>
        refine .waiting (List.forall_mem_cons.mpr ⟨hopen, hothers⟩) hlast ?_
        rw [List.flatMap_cons, List.append_assoc, hsum]
        exact howed
      | executed hsplit hearly hsum hrest hcloses hafter =>
        refine .executed (congrArg (_ :: ·) hsplit) (List.forall_mem_cons.mpr ⟨hopen, hearly⟩) ?_
          hrest hcloses hafter
        rw [List.flatMap_cons, List.append_assoc, hsum]
        exact howed
    · refine .executed (List.nil_append _).symm nofun rfl hp.queued hcloses fun hsent => ?_
      exact finDone_of_traceAll hP (hdone hsent).pipe hrest

/-- Until the way out is shown to be closed, that is not reported. -/
theorem unreported_of_traceAll (hP : Pipe.ClosesOnce P W C)
    (h : traceAll turns p w = .ok (es, p', w')) :
    ((state p).finSent = true → (state p').finSent = true) ∧
      ((state p').finSent = false → ∀ e ∈ es, e.Unreported) := by
  induction turns generalizing p w es with
  | nil =>
    cases h
    exact ⟨id, fun _ => nofun⟩
  | cons turn rest ih =>
    obtain ⟨l, w₁, others, hcall, hrest, rfl⟩ := traceAll_cons h
    obtain ⟨hlasts, hreported⟩ := step_shown hP (wayOutStep hP rfl hcall)
    rw [state_fresh] at hlasts
    obtain ⟨hkept, hothers⟩ := ih hrest
    rw [state_pipe] at hkept
    refine ⟨fun hf => hkept (hlasts hf), fun hopen => ?_⟩
    refine List.forall_mem_cons.mpr ⟨fun report hmem => ?_, hothers hopen⟩
    cases hfin : report.finSent with
    | false => rfl
    | true =>
      have hshown := hkept (hreported report hmem hfin)
      exact absurd (hopen.symm.trans hshown) Bool.false_ne_true

end Runs

/-- How an atomic pipe over this one closes the way out. A request that is put off finds bytes
queued and is executed behind them. One that is granted at once finds nothing queued and is not
reported. In no call is the way out closed ahead of what is queued. -/
structure ClosesInOrder (W C : Type) [Pipe P W C] (start : P) : Prop where
  deferred : ∀ {before after : List (PipeTurn W C)} {p q p' : Atomic P} {w₀ w v v' w' : W},
    Pipe.useAll before { inner := start } w₀ = .ok (p, w) →
    Pipe.sendFin p v = .ok (.ok .pending, q, v') →
    Pipe.useAll after q v' = .ok (p', w') →
    p.unsent ≠ [] ∧ (state q).finSent = false ∧ ∃ earlier later,
      traceAll before { inner := start } w₀ = .ok (earlier, p, w) ∧
      traceAll after q v' = .ok (later, p', w') ∧
      (∀ e ∈ earlier, e.Unreported) ∧ DeferredFin p.unsent later p'
  granted : ∀ {before after : List (PipeTurn W C)} {p q p' : Atomic P} {w₀ w v v' w' : W},
    Pipe.useAll before { inner := start } w₀ = .ok (p, w) →
    Pipe.sendFin p v = .ok (.ok .sent, q, v') →
    Pipe.useAll after q v' = .ok (p', w') →
    p.queue = none ∧ ∃ earlier later,
      traceAll before { inner := start } w₀ = .ok (earlier, p, w) ∧
      traceAll after q v' = .ok (later, p', w') ∧ ∀ e ∈ earlier ++ later, e.Unreported
  ordered : ∀ {p p' : Atomic P} {w w' : W} {use : PipeUse C} {e : CallTrace} {answer},
    trace p w use = .ok (e, p', w') → .closed answer ∈ e.below →
      ∃ calls, e.below = calls ++ [.closed answer] ∧ calls.flatMap PipeCall.written = p.unsent

theorem closesInOrder (hP : Pipe.ClosesOnce P W C) (start : P) : ClosesInOrder W C start where
  deferred := by
    intro before after p q p' w₀ w v v' w' hbefore hclose hafter
    obtain ⟨htidy, hopen⟩ := (queueConsistent_kept.and (unclosed_kept hP)).useAll_forall
      (I := fun p => p.QueueConsistent ∧ (p.queue ≠ none → (state p.inner).finSent = false))
      ⟨queueConsistent_fresh start, fun hq => absurd rfl hq⟩ hbefore
    obtain ⟨earlier, hearlier⟩ := exists_traceAll hbefore
    obtain ⟨later, hlater⟩ := exists_traceAll hafter
    cases closedBehind hclose with
    | passed _ _ hc => exact absurd (hP.sendFin hc).1 not_closedOrBroken_pending
    | waiting _ hq =>
      have hunsent := htidy.queueing hq
      have hunshown := hopen hq
      have hqueued : ({ p with finWanted := true } : Atomic P).FinQueued :=
        ⟨hunsent, rfl, (state_finSent _).trans hunshown⟩
      refine ⟨hunsent, hqueued.shown, earlier, later, hearlier, hlater, ?_, ?_⟩
      · exact (unreported_of_traceAll hP hearlier).2 ((state_finSent p).trans hunshown)
      · exact deferredFin_of_finQueued (p := { p with finWanted := true }) hP hqueued hlater
  granted := by
    intro before after p q p' w₀ w v v' w' hbefore hclose hafter
    obtain ⟨earlier, hearlier⟩ := exists_traceAll hbefore
    obtain ⟨later, hlater⟩ := exists_traceAll hafter
    cases closedBehind hclose with
    | @passed _ inner _ hf hq hc =>
      obtain ⟨_, hopen, hshows⟩ := hP.sendFin hc
      have hdone : ({ p with inner } : Atomic P).FinDone :=
        ⟨hq, hf, (state_finSent _).trans (hshows.mpr rfl)⟩
      have hbefore := (unreported_of_traceAll hP hearlier).2 ((state_finSent p).trans hopen)
      have hafter := (finDone_of_traceAll hP hdone hlater).1
      refine ⟨hq, earlier, later, hearlier, hlater, fun e he => ?_⟩
      rcases List.mem_append.mp he with hin | hin
      · exact hbefore e hin
      · exact (hafter e hin).unreported
  ordered := by
    intro p p' w w' use e answer h hclosed
    obtain ⟨l, hcall, rfl, -⟩ := trace_eq_ok h
    exact step_ordered rfl (wayOutStep hP rfl hcall) hclosed

/-- Over a socket and over a memory pipe, a closing that is put off is executed once, in the call
that sends the last byte before it, and is reported in that call and in no other. -/
theorem closing_follows_bytes {N M C : Type} [Sockets N] :
    (∀ start : Tcp, ClosesInOrder (Host N C) C start) ∧
    ∀ start : Memory, ClosesInOrder (Host M C) C start :=
  ⟨closesInOrder Tcp.closesOnce, closesInOrder Memory.closesOnce⟩

/-- Two of four bytes are taken at once, and the closing waits for the other two. -/
example :
    (Pipe.useAll ([.send [1, 2, 3, 4], .sendFin, .react { writable := true }].map fun use =>
        { meanwhile := id, use })
      ({ inner := { sendSteps := [.accept 2] } } : Atomic Memory)
      ({ net := (), reactor := {} } : Host Unit Unit)).toOption.map
        (fun (p, _) => (p.inner.sent, p.inner.finCalls, (state p).finSent)) =
      some ([1, 2, 3, 4], 1, true) := by
  decide +kernel

/-- Bytes are queued for a network that takes one at a time. -/
def narrowSending : List (PipeTurn (Host Narrow Side) Side) :=
  [.attach .left, .react { writable := true }, .send [7, 8, 9]].map fun use =>
    { meanwhile := id, use }

def narrowFlushing : List (PipeTurn (Host Narrow Side) Side) :=
  [.react { writable := true }, .react { writable := true }].map fun use => { meanwhile := id, use }

theorem narrowClosing_outcome :
    ∃ (p q p' : Atomic Tcp) (w v' w' : Host Narrow Side) (es : List CallTrace),
      Pipe.useAll narrowSending { inner := .connected 3 } { net := {}, reactor := {} } =
        .ok (p, w) ∧
      p.unsent = [8, 9] ∧ Pipe.sendFin p w = .ok (.ok .pending, q, v') ∧
      traceAll narrowFlushing q v' = .ok (es, p', w') ∧ (state p').finSent = true ∧
      ∀ e ∈ es, ∀ call ∈ e.above, call.fatal = false := by
  refine ⟨_, _, _, _, _, _, _, rfl, rfl, rfl, rfl, rfl, ?_⟩
  decide +kernel

theorem closing_follows_bytes_narrow :
    ∃ (q p' : Atomic Tcp) (v' w' : Host Narrow Side) (early later : List CallTrace)
      (last : CallTrace) (rest : Bytes) (report : PipeEvents),
      traceAll narrowFlushing q v' = .ok (early ++ last :: later, p', w') ∧
      (∀ e ∈ early, e.StillOpen) ∧ early.flatMap CallTrace.written ++ rest = [8, 9] ∧
      last.Closes rest (.ok .sent) report ∧ (∀ e ∈ later, e.AfterClosing) ∧
      (state p').finSent = true := by
  obtain ⟨p, q, p', w, v', w', es, hbefore, hunsent, hclose, htraces, hshown, hsound⟩ :=
    narrowClosing_outcome
  have hafter : Pipe.useAll narrowFlushing q v' = .ok (p', w') := by
    rw [useAll_eq_traceAll, htraces, Checked.map_ok]
  obtain ⟨_, _, earlier, es', _, hes, _, hcourse⟩ :=
    (closing_follows_bytes (N := Narrow) (M := Unit)).1 (.connected 3)
      |>.deferred hbefore hclose hafter
  cases htraces.symm.trans hes
  rw [hunsent] at hcourse
  cases hcourse with
  | waiting _ hqueued => exact absurd (hqueued.shown.symm.trans hshown) Bool.false_ne_true
  | @executed early later last rest answer report hsplit hopens howed _ hcloses hafter =>
    subst hsplit
    have hunbroken : report.broken = false :=
      hsound last (by simp) (.noticed report) (by simp [hcloses.above])
    have hsent : answer = .ok .sent := by
      rcases hcloses.settled with hsent | hfatal
      · exact hsent
      · cases answer with
        | ok => cases hfatal
        | error e =>
          have hbroken := hcloses.reports.failed e rfl hfatal
          exact absurd (hunbroken.symm.trans hbroken) Bool.false_ne_true
    subst hsent
    exact ⟨q, p', v', w', early, later, last, rest, report, hes, hopens, howed, hcloses,
      (hafter rfl).1, hshown⟩

end DuplexRelay.Atomic
