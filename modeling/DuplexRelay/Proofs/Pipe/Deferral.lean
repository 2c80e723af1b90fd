import DuplexRelay.Proofs.Pipe.CallTrace
import DuplexRelay.Proofs.Pipe.ClosesOnce

/-! Closings of the way out that an atomic pipe puts off, call by call. A request that finds a queue
is remembered until the call that empties the queue, and executed in that call, behind the last byte
of the queue. -/

namespace DuplexRelay

namespace CallTrace

def Unreported (e : CallTrace) : Prop :=
  ∀ report, .noticed report ∈ e.above → report.finSent = false

/-- The way out is not closed, and if the pipe below failed to take bytes, that is reported. -/
structure StillOpen (e : CallTrace) : Prop where
  unclosed : ∀ answer, .closed answer ∉ e.below
  unreported : e.Unreported
  failed : ∀ data err, .sent data (.error err) ∈ e.below → err.isFatal = true →
    ∃ report, .noticed report ∈ e.above ∧ report.broken = true

/-- Nothing happens to the way out, and nothing is reported of it. -/
structure AfterClosing (e : CallTrace) : Prop where
  unclosed : ∀ answer, .closed answer ∉ e.below
  unreported : e.Unreported
  unwritable : ∀ report, .noticed report ∈ e.above → report.writable = false

/-- How the report of a call goes by the answer to the closing in it. -/
structure ReportsClosing (answer : PipeResult FinStatus) (report : PipeEvents) : Prop where
  sent : report.finSent = true ↔ answer = .ok .sent
  full : report.writable = false
  failed : ∀ e, answer = .error e → e.isFatal = true → report.broken = true

/-- A call in which the last queued bytes are taken and the way out is closed behind them. -/
structure Closes (rest : Bytes) (answer : PipeResult FinStatus) (report : PipeEvents)
    (e : CallTrace) : Prop where
  above : e.above = [.noticed report]
  below : ∃ r n, e.below = [.noticed r, .sent rest (.ok n), .closed answer] ∧ rest.length ≤ n
  settled : ClosedOrBroken answer
  reports : ReportsClosing answer report

end CallTrace

namespace Atomic

section Standing

variable {P : Type} [HasPipeState P]

/-- Bytes are queued, and the way out is to be closed behind them. -/
structure FinQueued (p : Atomic P) : Prop where
  queued : p.unsent ≠ []
  wanted : p.finWanted = true
  shown : (state p).finSent = false

/-- The way out is closed. -/
structure FinDone (p : Atomic P) : Prop where
  empty : p.queue = none
  done : p.finWanted = false
  shown : (state p).finSent = true

/-- What offering the queue of a waiting pipe comes to. -/
inductive QueueOffer (r : PipeEvents) (owed : Bytes) (report : PipeEvents)
    (p : Atomic (Logged P)) : Prop
  | partly {answer : PipeResult Nat} (hcalls : p.inner.calls = [.noticed r, .sent owed answer])
      (hqueued : p.FinQueued) (howed : (takenOf owed answer).flatten ++ p.unsent = owed)
      (hfatal : ∀ e, answer = .error e → e.isFatal = true → report.broken = true)
  | whole {n : Nat} (hcalls : p.inner.calls = [.noticed r, .sent owed (.ok n)])
      (hn : owed.length ≤ n) (hq : p.queue = none) (hwanted : p.finWanted = true)

/-- What comes of a closing that waits behind bytes that are owed, by the calls after the
request. -/
inductive DeferredFin (owed : Bytes) (es : List CallTrace) (p : Atomic P) : Prop
  | waiting (hopens : ∀ e ∈ es, e.StillOpen) (hqueued : p.FinQueued)
      (howed : es.flatMap CallTrace.written ++ p.unsent = owed)
  | executed {early later : List CallTrace} {last : CallTrace} {rest : Bytes}
      {answer : PipeResult FinStatus} {report : PipeEvents} (hsplit : es = early ++ last :: later)
      (hopens : ∀ e ∈ early, e.StillOpen) (howed : early.flatMap CallTrace.written ++ rest = owed)
      (hrest : rest ≠ []) (hcloses : last.Closes rest answer report)
      (hafter : answer = .ok .sent → (∀ e ∈ later, e.AfterClosing) ∧ (state p).finSent = true)

theorem state_fresh (p : Atomic P) : state (p.rebase Logged.fresh) = state p :=
  state_rebase (fun _ => rfl) p

theorem state_pipe (p : Atomic (Logged P)) : state (p.rebase Logged.pipe) = state p :=
  state_rebase (fun _ => rfl) p

theorem FinQueued.fresh {p : Atomic P} (h : p.FinQueued) : (p.rebase Logged.fresh).FinQueued :=
  ⟨h.queued, h.wanted, (congrArg PipeState.finSent (state_fresh p)).trans h.shown⟩

theorem FinQueued.pipe {p : Atomic (Logged P)} (h : p.FinQueued) :
    (p.rebase Logged.pipe).FinQueued :=
  ⟨h.queued, h.wanted, (congrArg PipeState.finSent (state_pipe p)).trans h.shown⟩

theorem FinDone.fresh {p : Atomic P} (h : p.FinDone) : (p.rebase Logged.fresh).FinDone :=
  ⟨h.empty, h.done, (congrArg PipeState.finSent (state_fresh p)).trans h.shown⟩

theorem FinDone.pipe {p : Atomic (Logged P)} (h : p.FinDone) : (p.rebase Logged.pipe).FinDone :=
  ⟨h.empty, h.done, (congrArg PipeState.finSent (state_pipe p)).trans h.shown⟩

section Accounts

variable {p : Atomic (Logged P)} {l : Logged (Atomic (Logged P))}

/-- A call that the pipe below answers alone, and that has nothing to do with the way out. -/
structure WayOutUntouched (p : Atomic (Logged P)) (l : Logged (Atomic (Logged P))) : Prop where
  kept : ∃ inner, l.pipe = { p with inner } ∧ (state inner).finSent = (state p.inner).finSent
  unsent : ∀ data answer, .sent data answer ∉ l.pipe.inner.calls
  unclosed : ∀ answer, .closed answer ∉ l.pipe.inner.calls
  unreported : ∀ report, .noticed report ∈ l.calls →
    report.finSent = false ∧ ((state p.inner).finSent = true → report.writable = false)

theorem WayOutUntouched.stillOpen (h : WayOutUntouched p l) : (traceOf l).StillOpen where
  unclosed := h.unclosed
  unreported report hmem := (h.unreported report hmem).1
  failed data _ hmem := absurd hmem (h.unsent data _)

theorem WayOutUntouched.afterClosing (h : WayOutUntouched p l)
    (hshown : (state p.inner).finSent = true) : (traceOf l).AfterClosing where
  unclosed := h.unclosed
  unreported report hmem := (h.unreported report hmem).1
  unwritable report hmem := (h.unreported report hmem).2 hshown

theorem WayOutUntouched.written (h : WayOutUntouched p l) : (traceOf l).written = [] := by
  refine List.flatMap_eq_nil_iff.mpr fun call hmem => ?_
  cases call with
  | sent data answer => exact absurd hmem (h.unsent data answer)
  | attached | received | closed | noticed => rfl

theorem WayOutUntouched.shown (h : WayOutUntouched p l) :
    (state l.pipe).finSent = (state p).finSent := by
  obtain ⟨inner, hpipe, hfin⟩ := h.kept
  rw [hpipe, state_finSent, state_finSent, hfin]

end Accounts

end Standing

variable {P W C : Type} [Pipe P W C]

section Steps

variable {p : Atomic (Logged P)} {l : Logged (Atomic (Logged P))} {w w' : W} {use : PipeUse C}

theorem reportsClosing_closingReport {events : PipeEvents} (h : events.finSent = false)
    (answer : PipeResult FinStatus) :
    CallTrace.ReportsClosing answer (closingReport events answer) := by
  have hunsent {α : Prop} (hf : events.finSent = true) : α :=
    absurd (h.symm.trans hf) Bool.false_ne_true
  rcases answer with e | (_ | _)
  · refine ⟨⟨hunsent, fun he => by cases he⟩, rfl, fun e' he hfatal => ?_⟩
    cases he
    simp [closingReport, hfatal]
  · exact ⟨⟨fun _ => rfl, fun _ => rfl⟩, rfl, fun e' he => by cases he⟩
  · exact ⟨⟨hunsent, fun he => by cases he⟩, rfl, fun e' he => by cases he⟩

/-- What a call of an atomic pipe can have to do with the way out. -/
inductive WayOutStep (p : Atomic (Logged P)) (w : W) : Logged (Atomic (Logged P)) → W → Prop
  | aside {l : Logged (Atomic (Logged P))} {w' : W} (h : WayOutUntouched p l) : WayOutStep p w l w'
  | sent {data : Bytes} {answer : PipeResult Nat} {q : Atomic (Logged P)} {w' : W}
      (h : SentWhole data p w answer q w') : WayOutStep p w ⟨q, [.sent data answer]⟩ w'
  | closed {answer : PipeResult FinStatus} {q : Atomic (Logged P)} {w' : W}
      (h : ClosedBehind p w answer q w') : WayOutStep p w ⟨q, [.closed answer]⟩ w'
  | flushing {r report₁ report : PipeEvents} {inner : Logged P} {p₁ q : Atomic (Logged P)}
      {w₁ w₂ w' : W} (hbelow : inner.calls = [.noticed r])
      (hopen : (state p.inner).finSent = false) (hinner : (state inner).finSent = false)
      (hr : r.finSent = false) (hq : QueueFlushed r { p with inner } w₁ report₁ p₁ w₂)
      (hf : FinFlushed report₁ p₁ w₂ report q w') : WayOutStep p w ⟨q, [.noticed report]⟩ w'

theorem wayOutStep (hP : Pipe.ClosesOnce P W C) (hfresh : p.inner.calls = [])
    (h : Logged.FirstCall p w use l w') : WayOutStep p w l w' := by
  have hL := hP.logged
  cases h with
  | attached h =>
    obtain ⟨⟨result, inner, _⟩, hattach, heq⟩ := Checked.bind_eq_ok_iff.mp h
    cases heq
    have hcalls := Logged.calls_attach hattach
    rw [hfresh, List.nil_append] at hcalls
    exact .aside ⟨⟨inner, rfl, hL.attach hattach⟩, by simp [hcalls], by simp [hcalls], by simp⟩
  | received h =>
    obtain ⟨⟨result, inner, _⟩, hrecv, heq⟩ := Checked.bind_eq_ok_iff.mp h
    cases heq
    have hcalls := Logged.calls_recv hrecv
    rw [hfresh, List.nil_append] at hcalls
    exact .aside ⟨⟨inner, rfl, hL.recv hrecv⟩, by simp [hcalls], by simp [hcalls], by simp⟩
  | sent h => exact .sent (sentWhole h)
  | closed h => exact .closed (closedBehind h)
  | rescheduled =>
    refine .aside ⟨⟨p.inner, rfl, rfl⟩, ?_, ?_, ?_⟩ <;> simp [Logged.fresh, hfresh]
  | noticed h =>
    cases reacted h with
    | passed hr =>
      have hcalls := Logged.calls_react hr
      rw [hfresh, List.nil_append] at hcalls
      obtain ⟨hfin, hreport, hfull⟩ := hL.react hr
      refine .aside ⟨⟨_, rfl, hfin⟩, by simp [hcalls], by simp [hcalls], fun report hmem => ?_⟩
      obtain rfl : report = _ := by simpa using hmem
      exact ⟨hreport, hfull⟩
    | flushing hr hw hq hf =>
      have hcalls := Logged.calls_react hr
      rw [hfresh, List.nil_append] at hcalls
      obtain ⟨hfin, hreport, hfull⟩ := hL.react hr
      have hopen : (state p.inner).finSent = false := by
        rw [← Bool.not_eq_true]
        exact fun hsent => absurd ((hfull hsent).symm.trans hw) Bool.false_ne_true
      exact .flushing hcalls hopen (hfin.trans hopen) hreport hq hf

theorem unsent_of_queue {queue : ByteBuffer} (h : p.queue = some queue) :
    p.unsent = queue.live := by
  simp [unsent, h]

theorem FinQueued.queue_ne_none (h : p.FinQueued) : p.queue ≠ none := by
  intro hnone
  exact h.queued (by simp [unsent, hnone])

theorem queueOffer_of_finQueued (hL : Pipe.ClosesOnce (Logged P) W C) {r report : PipeEvents}
    {p' : Atomic (Logged P)} (hp : p.FinQueued) (hcalls : p.inner.calls = [.noticed r])
    (h : QueueFlushed r p w report p' w') :
    report.finSent = r.finSent ∧ QueueOffer r p.unsent report p' := by
  cases h with
  | idle hq => exact absurd hq hp.queue_ne_none
  | @refused queue e inner _ hq hs =>
    have hsent := Logged.calls_send hs
    rw [hcalls, ← unsent_of_queue hq] at hsent
    have hkept : ({ p with inner, queue := some queue } : Atomic (Logged P)).unsent = p.unsent :=
      (unsent_of_queue hq).symm
    refine ⟨rfl, .partly hsent ⟨?_, hp.wanted, (state_finSent _).trans (hL.send hs).2⟩ hkept ?_⟩
    · rw [hkept]
      exact hp.queued
    · intro e' he hfatal
      cases he
      simp [hfatal]
  | @part queue rest n inner _ hq hs hn hrest =>
    have hsent := Logged.calls_send hs
    rw [hcalls, ← unsent_of_queue hq] at hsent
    obtain ⟨after, hafter, hlive⟩ := ByteBuffer.consume_eq_ok (Nat.le_of_lt hn)
    rw [hrest] at hafter
    cases hafter
    have hleft : ({ p with inner, queue := some rest } : Atomic (Logged P)).unsent =
        p.unsent.drop n := by
      rw [unsent_of_queue hq]
      exact hlive
    refine ⟨rfl, .partly hsent ⟨?_, hp.wanted, (state_finSent _).trans (hL.send hs).2⟩ ?_ nofun⟩
    · rw [hleft, unsent_of_queue hq, ne_eq, List.drop_eq_nil_iff]
      exact Nat.not_le.mpr hn
    · rw [hleft]
      simp [takenOf]
  | @all queue n inner _ hq hs hn =>
    have hsent := Logged.calls_send hs
    rw [hcalls, ← unsent_of_queue hq] at hsent
    exact ⟨rfl, .whole hsent (unsent_of_queue hq ▸ hn) rfl hp.wanted⟩

/-- The way out stays as it is while the pipe waits, or else the call empties the queue and closes
the way out. -/
theorem step_finQueued (hP : Pipe.ClosesOnce P W C) (hp : p.FinQueued)
    (h : WayOutStep p w l w') :
    ((traceOf l).StillOpen ∧ l.pipe.FinQueued ∧ (traceOf l).written ++ l.pipe.unsent = p.unsent) ∨
      ∃ answer report, (traceOf l).Closes p.unsent answer report ∧
        (answer = .ok .sent → l.pipe.FinDone) := by
  have hL := hP.logged
  cases h with
  | aside ha =>
    have hshown := ha.shown.trans hp.shown
    obtain ⟨inner, hpipe, _⟩ := ha.kept
    rw [hpipe] at hshown
    rw [ha.written, hpipe]
    exact .inl ⟨ha.stillOpen, ⟨hp.queued, hp.wanted, hshown⟩, rfl⟩
  | sent h =>
    cases h with
    | waiting hf | refused hf | all hf | part hf =>
      exact absurd (hf.symm.trans hp.wanted) Bool.false_ne_true
  | closed h =>
    cases h with
    | waiting hf | passed hf => exact absurd (hf.symm.trans hp.wanted) Bool.false_ne_true
  | @flushing _ _ _ inner _ _ _ _ _ hbelow _ hinner hr hq hf =>
    have hstill : ({ p with inner } : Atomic (Logged P)).FinQueued :=
      ⟨hp.queued, hp.wanted, (state_finSent _).trans hinner⟩
    -- the way out below is closed only behind the last byte of the queue
    obtain ⟨hsame, hoffer⟩ := queueOffer_of_finQueued hL hstill hbelow hq
    rw [hr] at hsame
    cases hoffer with
    | partly hbelow₁ hqueued₁ howed hfatal =>
      cases hf with
      | closed hnone => exact absurd hnone hqueued₁.queue_ne_none
      | skipped =>
        refine .inl ⟨⟨?_, ?_, ?_⟩, hqueued₁, ?_⟩
        · simp [traceOf, hbelow₁]
        · simp [traceOf, CallTrace.Unreported, hsame]
        · simp only [traceOf, hbelow₁, List.mem_cons, List.not_mem_nil, or_false, reduceCtorEq,
            false_or, PipeCall.sent.injEq]
          rintro data e ⟨rfl, he⟩ hbad
          exact ⟨_, rfl, hfatal e he.symm hbad⟩
        · refine Eq.trans ?_ howed
          simp [traceOf, hbelow₁, CallTrace.written, PipeCall.written]
    | whole hbelow₁ hn hempty hwanted =>
      cases hf with
      | skipped hidle => exact absurd ((hidle hempty).symm.trans hwanted) Bool.false_ne_true
      | @closed answer inner₂ _ _ _ hc =>
        have hclosed := Logged.calls_sendFin hc
        rw [hbelow₁] at hclosed
        obtain ⟨hsettled, _, hshows⟩ := hL.sendFin hc
        refine .inr ⟨answer, _, ⟨rfl, ⟨_, _, hclosed, hn⟩, hsettled,
          reportsClosing_closingReport hsame answer⟩, fun hdone => ?_⟩
        exact ⟨hempty, rfl, (state_finSent _).trans (hshows.mpr hdone)⟩

theorem step_finDone (hP : Pipe.ClosesOnce P W C) (hp : p.FinDone)
    (h : WayOutStep p w l w') : (traceOf l).AfterClosing ∧ l.pipe.FinDone := by
  have hshown : (state p.inner).finSent = true := (state_finSent p).symm.trans hp.shown
  cases h with
  | aside ha =>
    have hlast := ha.shown.trans hp.shown
    obtain ⟨inner, hpipe, _⟩ := ha.kept
    rw [hpipe] at hlast ⊢
    exact ⟨ha.afterClosing hshown, hp.empty, hp.done, hlast⟩
  | sent h =>
    cases h with
    | waiting _ hq => exact absurd hp.empty hq
    | refused _ _ hs | all _ _ hs | part _ _ hs =>
      exact absurd ((hP.logged.send hs).1.symm.trans hshown) Bool.false_ne_true
  | closed h =>
    cases h with
    | waiting _ hq => exact absurd hp.empty hq
    | passed _ _ hc =>
      exact absurd ((hP.logged.sendFin hc).2.1.symm.trans hshown) Bool.false_ne_true
  | flushing _ hopen => exact absurd (hopen.symm.trans hshown) Bool.false_ne_true

theorem finSent_queueFlushed {r report : PipeEvents} {p' : Atomic (Logged P)}
    (h : QueueFlushed r p w report p' w') : report.finSent = r.finSent := by
  cases h <;> rfl

/-- That the way out is closed is shown for good, and where it is reported it is shown. -/
theorem step_shown (hP : Pipe.ClosesOnce P W C) (h : WayOutStep p w l w') :
    ((state p).finSent = true → (state l.pipe).finSent = true) ∧
      ∀ report, .noticed report ∈ l.calls → report.finSent = true →
        (state l.pipe).finSent = true := by
  have hL := hP.logged
  cases h with
  | aside ha =>
    refine ⟨ha.shown.trans, fun report hmem hfin => ?_⟩
    exact absurd ((ha.unreported report hmem).1.symm.trans hfin) Bool.false_ne_true
  | sent h =>
    refine ⟨fun hf => ?_, by simp⟩
    rw [state_finSent] at hf
    cases h with
    | waiting => exact (state_finSent _).trans hf
    | refused _ _ hs | all _ _ hs | part _ _ hs =>
      exact absurd ((hL.send hs).1.symm.trans hf) Bool.false_ne_true
  | closed h =>
    refine ⟨fun hf => ?_, by simp⟩
    rw [state_finSent] at hf
    cases h with
    | waiting => exact (state_finSent _).trans hf
    | passed _ _ hc => exact absurd ((hL.sendFin hc).2.1.symm.trans hf) Bool.false_ne_true
  | flushing _ hopen _ hr hq hf =>
    rw [state_finSent, state_finSent]
    refine ⟨fun hsent => absurd (hopen.symm.trans hsent) Bool.false_ne_true, ?_⟩
    have hsame := (finSent_queueFlushed hq).trans hr
    intro report hmem hfin
    obtain rfl : report = _ := by simpa using hmem
    cases hf with
    | skipped => exact absurd (hsame.symm.trans hfin) Bool.false_ne_true
    | closed _ _ hc =>
      have hdone := (reportsClosing_closingReport hsame _).sent.mp hfin
      exact (hL.sendFin hc).2.2.mpr hdone

/-- The way out below is closed last in a call, once all that was queued is taken. -/
theorem step_ordered {answer : PipeResult FinStatus} (hfresh : p.inner.calls = [])
    (h : WayOutStep p w l w') (hclosed : .closed answer ∈ l.pipe.inner.calls) :
    ∃ calls, l.pipe.inner.calls = calls ++ [.closed answer] ∧
      calls.flatMap PipeCall.written = p.unsent := by
  cases h with
  | aside ha => exact absurd hclosed (ha.unclosed answer)
  | sent h =>
    cases h with
    | waiting => simp [hfresh] at hclosed
    | refused _ _ hs | all _ _ hs | part _ _ hs =>
      simp [Logged.calls_send hs, hfresh] at hclosed
  | closed h =>
    cases h with
    | waiting => simp [hfresh] at hclosed
    | passed _ hq hc =>
      have hcalls := Logged.calls_sendFin hc
      simp only [hcalls, hfresh, List.nil_append, List.mem_singleton] at hclosed ⊢
      exact ⟨[], by simp [hclosed], by simp [unsent, hq]⟩
  | @flushing r report₁ _ inner p₁ _ _ _ _ hbelow _ _ _ hq hf =>
    -- if the queue is gone now, then all of it was taken
    have hflushed : p₁.queue = none → p₁.inner.calls.flatMap PipeCall.written = p.unsent := by
      intro hnone
      cases hq with
      | idle =>
        change p.queue = none at hnone
        simp [hbelow, PipeCall.written, unsent, hnone]
      | refused | part => cases hnone
      | @all queue n _ _ hq hs hn =>
        have hwhole : queue.live.take n = queue.live := List.take_of_length_le hn
        simp [Logged.calls_send hs, hbelow, PipeCall.written, takenOf, hwhole,
          unsent_of_queue (p := p) hq]
    have hunclosed : ∀ answer, .closed answer ∉ p₁.inner.calls := by
      intro answer
      cases hq with
      | idle => simp [hbelow]
      | refused _ hs | part _ hs | all _ hs => simp [Logged.calls_send hs, hbelow]
    cases hf with
    | skipped => exact absurd hclosed (hunclosed answer)
    | closed hnone _ hc =>
      have hcalls := Logged.calls_sendFin hc
      simp only [hcalls, List.mem_append, List.mem_singleton] at hclosed
      obtain rfl := PipeCall.closed.inj (hclosed.resolve_left (hunclosed answer))
      exact ⟨_, hcalls, hflushed hnone⟩

end Steps

end Atomic

end DuplexRelay
