import DuplexRelay.Proofs.Pipe.Broken

/-! What a pipe reports of a change of its transport is true of the state after it, and nothing is
left out that its owner waits for. The layers take from the report of the layer below what did not
come true, so report and state have to be followed side by side. -/

namespace DuplexRelay

namespace PipeState

/-- An operation on the way out leaves the way in alone, unless it breaks the pipe. It does that
only if it is `fatal`. -/
structure OutgoingStep (s s' : PipeState) (fatal : Prop) : Prop where
  ready : s'.ready = s.ready
  finSent : s.finSent = true → s'.finSent = true
  broken : s'.broken = true ↔ s.broken = true ∨ fatal
  readable : s'.broken = false → s'.isReadable = s.isReadable

@[simp] theorem isReadable_normalized (s : PipeState) :
    s.normalized.isReadable = s.isReadable := by
  simp [normalized, isReadable]

theorem isReadable_of_broken {s : PipeState} (h : s.broken = true) : s.isReadable = false := by
  simp [isReadable, h]

theorem unbroken_of_isReadable {s : PipeState} (h : s.isReadable = true) : s.broken = false := by
  simp only [isReadable, Bool.and_eq_true, Bool.not_eq_true'] at h
  exact h.2

end PipeState

namespace PipeEvents

variable {report events : PipeEvents} {s s₁ s' : PipeState} {fatal : Prop}

/-- But for the way out, what was reported is true of the state after the call, and what the call
changed was reported. Where brokenness is reported, nothing is said of the directions. -/
structure TrueExceptWayOut (report : PipeEvents) (s s' : PipeState) : Prop where
  broken : report.broken = true → s'.broken = true
  readable : report.broken = false → report.readable = true → s'.isReadable = true
  ready : report.ready = true → s'.ready = true
  finSent : report.finSent = true → s'.finSent = true
  breaks : s'.broken = true → s.broken = true ∨ report.broken = true
  yields : s'.isReadable = true → s.isReadable = true ∨ report.readable = true

/-- What was reported is true, and nothing was left out. -/
structure TrueOf (report : PipeEvents) (s s' : PipeState) : Prop extends
    TrueExceptWayOut report s s' where
  writable : report.broken = false → report.writable = true → s'.isWritable = true
  opens : s'.isWritable = true → s.isWritable = true ∨ report.writable = true

theorem trueOf_none (s : PipeState) : none.TrueOf s s :=
  ⟨⟨nofun, nofun, nofun, nofun, .inl, .inl⟩, nofun, .inl⟩

theorem trueOf_justBroken (hb : s'.broken = true) : justBroken.TrueOf s s' := by
  refine ⟨⟨fun _ => hb, nofun, nofun, nofun, fun _ => .inr rfl, fun hr => ?_⟩, nofun, fun hw => ?_⟩
  · rw [PipeState.isReadable_of_broken hb] at hr
    cases hr
  · rw [PipeState.isWritable_of_broken hb] at hw
    cases hw

theorem trueOf_none_of_broken (hb : s.broken = true) (hb' : s'.broken = true) :
    none.TrueOf s s' := by
  refine ⟨⟨nofun, nofun, nofun, nofun, fun _ => .inl hb, fun hr => ?_⟩, nofun, fun hw => ?_⟩
  · rw [PipeState.isReadable_of_broken hb'] at hr
    cases hr
  · rw [PipeState.isWritable_of_broken hb'] at hw
    cases hw

theorem TrueExceptWayOut.passed (h : events.TrueExceptWayOut s s₁) (hp : s₁.OutgoingStep s' fatal)
    (hb : report.broken = true ↔ events.broken = true ∨ fatal)
    (hread : report.readable = events.readable) (hready : report.ready = events.ready)
    (hfin : report.finSent = true → events.finSent = true ∨ s'.finSent = true) :
    report.TrueExceptWayOut s s' := by
  refine ⟨?_, ?_, ?_, ?_, ?_, ?_⟩
  · intro hbroken
    apply hp.broken.mpr
    rcases hb.mp hbroken with hbefore | hfatal
    · exact .inl (h.broken hbefore)
    · exact .inr hfatal
  · intro hsound hr
    have hbefore : events.broken = false := by
      cases hev : events.broken with
      | false => rfl
      | true => exact absurd (hsound.symm.trans (hb.mpr (.inl hev))) Bool.false_ne_true
    have hreadable := h.readable hbefore (hread.symm.trans hr)
    have hunbroken : s'.broken = false := by
      cases hs : s'.broken with
      | false => rfl
      | true =>
        rcases hp.broken.mp hs with hold | hfatal
        · have hnot := PipeState.unbroken_of_isReadable hreadable
          exact absurd (hnot.symm.trans hold) Bool.false_ne_true
        · exact absurd (hsound.symm.trans (hb.mpr (.inr hfatal))) Bool.false_ne_true
    rw [hp.readable hunbroken]
    exact hreadable
  · rw [hready, hp.ready]
    exact h.ready
  · intro hf
    rcases hfin hf with hbefore | hafter
    · exact hp.finSent (h.finSent hbefore)
    · exact hafter
  · intro hbroken
    rcases hp.broken.mp hbroken with hold | hfatal
    · exact (h.breaks hold).imp_right fun hbefore => hb.mpr (.inl hbefore)
    · exact .inr (hb.mpr (.inr hfatal))
  · intro hr
    rw [hread]
    apply h.yields
    rw [← hp.readable (PipeState.unbroken_of_isReadable hr)]
    exact hr

end PipeEvents

/-- Sends and requests to close the way out leave the way in alone. After such a request the pipe
takes nothing more. -/
structure Pipe.Outgoing (P W : Type) {C : Type} [Pipe P W C] : Prop where
  sent : ∀ {data : Bytes} {p p' : P} {w w' : W} {result},
    Pipe.send data p w = .ok (result, p', w') → (state p).OutgoingStep (state p') result.Fatal
  closed : ∀ {p p' : P} {w w' : W} {result}, Pipe.sendFin p w = .ok (result, p', w') →
    (state p).OutgoingStep (state p') result.Fatal ∧ (state p').isWritable = false ∧
      (result = .ok .sent → (state p').finSent = true)

def Pipe.Truthful (P W : Type) {C : Type} [Pipe P W C] : Prop :=
  ∀ {events : SocketEvents} {p p' : P} {w w' : W} {report},
    Pipe.react events p w = .ok (report, p', w') → report.TrueOf (state p) (state p')

namespace Tcp

variable {N C : Type} {p p' : Tcp} {w w' : Host N C} {bits : PipeState} {fatal : Prop}

theorem isReadable_state (p : Tcp) : (state p).isReadable = p.bits.isReadable :=
  PipeState.isReadable_normalized p.bits

theorem Settled.passed (h : Settled bits p w p' w') (hready : bits.ready = p.bits.ready)
    (hfin : p.bits.finSent = true → bits.finSent = true) (hb : bits.broken = p.bits.broken)
    (hr : bits.readable = p.bits.readable) (hfatal : ¬fatal) :
    (state p).OutgoingStep (state p') fatal := by
  rw [h.pipe]
  refine ⟨hready, hfin, ?_, fun _ => ?_⟩
  · change bits.broken = true ↔ p.bits.broken = true ∨ fatal
    rw [hb, or_iff_left hfatal]
  · rw [isReadable_state, isReadable_state, PipeState.isReadable, PipeState.isReadable, hb, hr]

theorem Settled.outgoingStep_breakDown (h : Settled p.bits.breakDown p w p' w') (hfatal : fatal) :
    (state p).OutgoingStep (state p') fatal := by
  rw [h.pipe]
  exact ⟨rfl, id, ⟨fun _ => .inr hfatal, fun _ => rfl⟩, nofun⟩

theorem outgoingStep_of_broken (hb : p.bits.broken = true) :
    (state p).OutgoingStep (state p) fatal :=
  ⟨rfl, id, ⟨.inl, fun _ => hb⟩, fun _ => rfl⟩

variable [Sockets N]

theorem outgoing : Pipe.Outgoing Tcp (Host N C) where
  sent h := by
    cases transmitted h with
    | broken _ hb => exact outgoingStep_of_broken hb
    | taken _ _ _ hs => exact hs.passed rfl id rfl rfl (PipeResult.not_fatal_ok _)
    | refused _ _ _ _ hs => exact hs.passed rfl id rfl rfl PipeResult.not_fatal_wouldBlock
    | failed _ _ _ _ hs => exact hs.outgoingStep_breakDown ⟨_, rfl, rfl⟩
  closed h := by
    refine ⟨?_, latching.closed h |>.full trivial, ?_⟩
    · cases shutDown_outcome h with
      | broken _ hb => exact outgoingStep_of_broken hb
      | done _ _ _ hs => exact hs.passed rfl (fun _ => rfl) rfl rfl (PipeResult.not_fatal_ok _)
      | failed _ _ _ hs => exact hs.outgoingStep_breakDown ⟨_, rfl, rfl⟩
    · intro hsent
      exact (shutDown_bits h).2.1 ⟨_, hsent⟩

theorem truthful : Pipe.Truthful Tcp (Host N C) := by
  intro events p p' w w' report h
  cases noticed h with
  | broken | waiting => exact PipeEvents.trueOf_none _
  | failed _ _ hs =>
    rw [hs.pipe]
    exact PipeEvents.trueOf_justBroken rfl
  | noted hb _ hs =>
    rw [hs.pipe]
    have hunbroken : (state { p with
        bits := noted events p.bits
        interest := wanted (noted events p.bits) } : PipeState).broken = false := hb
    refine ⟨⟨nofun, fun _ => ?_, fun _ => rfl, nofun, fun hbroken => ?_, ?_⟩, fun _ => ?_, ?_⟩
    · rw [isReadable_state]
      simp +contextual [noted, notedReport, PipeState.isReadable, hb]
    · exact absurd (hunbroken.symm.trans hbroken) Bool.false_ne_true
    · rw [isReadable_state, isReadable_state]
      simp [noted, notedReport, PipeState.isReadable, hb]
    · rw [isWritable_state]
      simp +contextual [noted, notedReport, PipeState.isWritable, hb]
    · rw [isWritable_state, isWritable_state]
      simp [noted, notedReport, PipeState.isWritable, hb]

end Tcp

namespace Atomic

section States

variable {P : Type} [HasPipeState P] {p p' : Atomic P} {report : PipeEvents}

/-- The queue is of no account but for the way out. -/
theorem trueExceptWayOut_iff : report.TrueExceptWayOut (state p) (state p') ↔
    report.TrueExceptWayOut (state p.inner) (state p'.inner) := by
  constructor
  · rintro ⟨hb, hr, hready, hs, hbreaks, hyields⟩
    rw [state_broken] at hb
    rw [state_isReadable] at hr
    rw [state_ready] at hready
    rw [state_finSent] at hs
    rw [state_broken, state_broken] at hbreaks
    rw [state_isReadable, state_isReadable] at hyields
    exact ⟨hb, hr, hready, hs, hbreaks, hyields⟩
  · rintro ⟨hb, hr, hready, hs, hbreaks, hyields⟩
    rw [← state_broken] at hb
    rw [← state_isReadable] at hr
    rw [← state_ready] at hready
    rw [← state_finSent] at hs
    rw [← state_broken, ← state_broken] at hbreaks
    rw [← state_isReadable, ← state_isReadable] at hyields
    exact ⟨hb, hr, hready, hs, hbreaks, hyields⟩

/-- What is reported of the way out is how it is. -/
structure ReportsWayOut (report : PipeEvents) (p : Atomic P) : Prop where
  writable : report.broken = false → report.writable = true → (state p).isWritable = true
  opens : (state p).isWritable = true → report.writable = true

theorem reportsWayOut_of_full (hreport : report.writable = false)
    (h : (state p).isWritable = false) : ReportsWayOut report p := by
  constructor
  · intro _ hw
    exact absurd (hreport.symm.trans hw) Bool.false_ne_true
  · intro hw
    exact absurd (h.symm.trans hw) Bool.false_ne_true

end States

variable {P W C : Type} [Pipe P W C] {p p' : Atomic P} {w w' : W} {s : PipeState}
  {events report : PipeEvents} (h : Pipe.Outgoing P W)
include h

theorem trueExceptWayOut_queueFlushed (hq : QueueFlushed events p w report p' w')
    (ht : events.TrueExceptWayOut s (state p.inner)) :
    report.TrueExceptWayOut s (state p'.inner) := by
  cases hq with
  | idle => exact ht
  | @refused queue e inner _ _ hs =>
    refine ht.passed (h.sent hs) ?_ rfl rfl .inl
    rw [Bool.or_eq_true]
    refine or_congr_right ⟨fun he => ⟨e, rfl, he⟩, ?_⟩
    rintro ⟨_, ⟨⟩, he⟩
    exact he
  | part _ hs | all _ hs =>
    refine ht.passed (h.sent hs) ?_ rfl rfl .inl
    rw [or_iff_left (PipeResult.not_fatal_ok _)]

omit h in
theorem reportsWayOut_queueFlushed (hq : QueueFlushed events p w report p' w')
    (hevents : events.writable = true)
    (hw : events.broken = false → (state p.inner).isWritable = true) : ReportsWayOut report p' := by
  cases hq with
  | idle hq =>
    refine ⟨fun hb _ => ?_, fun _ => hevents⟩
    rw [state_isWritable hq]
    exact hw hb
  | refused | part => exact reportsWayOut_of_full rfl (state_isWritable_of_queue nofun)
  | @all queue n inner =>
    have hempty : ({ p with inner, queue := none } : Atomic P).queue = none := rfl
    constructor
    · intro _ hreport
      rw [state_isWritable hempty]
      exact (Bool.and_eq_true_iff.mp hreport).2
    · intro hopen
      rw [state_isWritable hempty] at hopen
      exact Bool.and_eq_true_iff.mpr ⟨hevents, hopen⟩

theorem trueExceptWayOut_finFlushed (hf : FinFlushed events p w report p' w')
    (ht : events.TrueExceptWayOut s (state p.inner)) :
    report.TrueExceptWayOut s (state p'.inner) := by
  cases hf with
  | skipped => exact ht
  | @closed result inner _ _ _ hc =>
    obtain ⟨hpassed, _, hsent⟩ := h.closed hc
    match result with
    | .ok .sent =>
      refine ht.passed hpassed ?_ rfl rfl fun _ => .inr (hsent rfl)
      exact (or_iff_left (PipeResult.not_fatal_ok _)).symm
    | .ok .pending =>
      refine ht.passed hpassed ?_ rfl rfl .inl
      exact (or_iff_left (PipeResult.not_fatal_ok _)).symm
    | .error e =>
      refine ht.passed hpassed ?_ rfl rfl .inl
      change (events.broken || e.isFatal) = true ↔ _
      rw [Bool.or_eq_true]
      refine or_congr_right ⟨fun he => ⟨e, rfl, he⟩, ?_⟩
      rintro ⟨_, ⟨⟩, he⟩
      exact he

theorem reportsWayOut_finFlushed (hf : FinFlushed events p w report p' w')
    (hg : ReportsWayOut events p) : ReportsWayOut report p' := by
  cases hf with
  | skipped => exact hg
  | @closed result inner _ hq _ hc =>
    apply reportsWayOut_of_full
    · rcases result with e | (_ | _) <;> rfl
    · rw [state_isWritable (p := { p with inner, finWanted := false }) hq]
      exact (h.closed hc).2.1

/-- The report of the pipe below is followed through the flush of the queue and the closing behind
it. -/
theorem truthful (ht : Pipe.Truthful P W) : Pipe.Truthful (Atomic P) W := by
  intro events p p' w w' report hreact
  cases reacted hreact with
  | @passed _ inner _ hr hidle =>
    have hbelow := ht hr
    refine ⟨trueExceptWayOut_iff.mpr hbelow.toTrueExceptWayOut, ?_, ?_⟩
    · intro hb hw
      rw [state_isWritable (p := { p with inner }) (hidle hw).1]
      exact hbelow.writable hb hw
    · intro hopen
      have hq : ({ p with inner } : Atomic P).queue = none := queue_of_isWritable hopen
      rw [state_isWritable (p := { p with inner }) hq] at hopen
      rw [state_isWritable (p := p) hq]
      exact hbelow.opens hopen
  | flushing hr hw hq hf =>
    have hbelow := ht hr
    have hflushed := trueExceptWayOut_queueFlushed h hq hbelow.toTrueExceptWayOut
    have hgauged := reportsWayOut_queueFlushed hq hw fun hb => hbelow.writable hb hw
    have hclosed := reportsWayOut_finFlushed h hf hgauged
    refine ⟨trueExceptWayOut_iff.mpr (trueExceptWayOut_finFlushed h hf hflushed), hclosed.writable,
      ?_⟩
    exact fun hopen => .inr (hclosed.opens hopen)

end Atomic

namespace Datagram

variable {P W C : Type} [Pipe P W C]

theorem View.isReadable_eq {P : Type} [HasPipeState P] {v : View P} (hv : v.broken = false) :
    v.shown.isReadable =
      ((state v.inner).isReadable || complete v.assembled && !(state v.inner).broken) := by
  unfold View.shown
  rw [PipeState.isReadable_normalized]
  simp only [PipeState.isReadable, hv, Bool.or_false, Bool.and_or_distrib_right]

theorem View.isWritable_of_intact {P : Type} [HasPipeState P] {v : View P}
    (hv : v.broken = false) : v.shown.isWritable = (state v.inner).isWritable := by
  rw [isWritable_eq, hv]
  exact Bool.and_true _

/-- As long as the framing is intact, what is reported below is true of the datagram pipe. A
datagram that is held makes it readable before and after. -/
theorem View.trueOf {P : Type} [HasPipeState P] {v v' : View P} {report : PipeEvents}
    (h : report.TrueOf (state v.inner) (state v'.inner)) (hv : v.broken = false)
    (hv' : v'.broken = false) (hheld : v'.assembled = v.assembled)
    (hlast : (state v.inner).broken = true → (state v'.inner).broken = true) :
    report.TrueOf v.shown v'.shown := by
  refine ⟨⟨?_, ?_, h.ready, h.finSent, ?_, ?_⟩, ?_, ?_⟩
  · intro hb
    rw [broken_shown, h.broken hb, Bool.true_or]
  · intro hb hr
    rw [isReadable_eq hv', h.readable hb hr, Bool.true_or]
  · rw [broken_shown, broken_shown, hv, hv', Bool.or_false, Bool.or_false]
    exact h.breaks
  · rw [isReadable_eq hv, isReadable_eq hv', hheld]
    intro hr
    rcases Bool.or_eq_true_iff.mp hr with hinner | hcomplete
    · rcases h.yields hinner with hold | hreport
      · left
        rw [hold, Bool.true_or]
      · exact .inr hreport
    · left
      obtain ⟨hcomplete, hsound⟩ := Bool.and_eq_true_iff.mp hcomplete
      have hbefore : (state v.inner).broken = false := by
        cases hb : (state v.inner).broken with
        | false => rfl
        | true => simp [hlast hb] at hsound
      simp [hcomplete, hbefore]
  · rw [isWritable_of_intact hv']
    exact h.writable
  · rw [isWritable_of_intact hv, isWritable_of_intact hv']
    exact h.opens

theorem truthful (hl : Pipe.Latching (Atomic P) W) (ht : Pipe.Truthful (Atomic P) W) :
    Pipe.Truthful (Datagram P) W := by
  intro events p p' w w' report hreact
  obtain ⟨⟨below, inner, _⟩, hr, heq⟩ := Checked.bind_eq_ok_iff.mp hreact
  cases heq
  by_cases hown : p.broken = true
  · rw [if_pos hown]
    exact PipeEvents.trueOf_none_of_broken (broken_state hown) (broken_state hown)
  · rw [if_neg hown, state_eq, state_eq]
    have hintact : p.broken = false := (Bool.not_eq_true _).mp hown
    exact View.trueOf (ht hr) hintact hintact rfl (hl.reacted hr).broken

end Datagram

open Pipe (useAll)

/-- A pipe tells the truth of what a change of its transport did, and does tell of every change that
comes while its registration is known. -/
structure Pipe.ReportsState {P : Type} (N C : Type) [Sockets N] [Pipe P (Host N C) C]
    (base : P → Tcp) (p : P) : Prop where
  tells : LawfulSockets N → ∀ (events : SocketEvents) (w : Host N C),
    (base p).Listed w.reactor → ∃ x, Pipe.react events p w = .ok x
  truth : ∀ {events : SocketEvents} {p' : P} {w w' : Host N C} {report},
    Pipe.react events p w = .ok (report, p', w') → report.TrueOf (state p) (state p')

/-- However a pipe over a socket is used since it was new, and whatever the readiness that it is
told of next, what it reports is true of its state right after that. -/
theorem reports_agree_with_state {N C : Type} [Sockets N] {fd : Fd} {start : Tcp}
    {turns : List (PipeTurn (Host N C) C)} {w w' : Host N C}
    (hstart : start = .connecting fd ∨ start = .connected fd) :
    (∀ p : Tcp, useAll turns start w = .ok (p, w') → Pipe.ReportsState N C id p) ∧
    (∀ p : Atomic Tcp, useAll turns { inner := start } w = .ok (p, w') →
      Pipe.ReportsState N C (fun p => p.inner) p) ∧
    ∀ (maxSize : Nat) (new p : Datagram Tcp), Datagram.wrap start maxSize = .ok new →
      useAll turns new w = .ok (p, w') → Pipe.ReportsState N C (fun p => p.inner.inner) p := by
  have hopen : ¬start.Shut := Tcp.not_shut_of_new hstart
  have hnew : Atomic.Shaped (fun _ => True) Tcp.Shut { inner := start } :=
    ⟨trivial, fun _ => hopen⟩
  have hdisciplined := Atomic.disciplined (Tcp.disciplined (N := N) (C := C))
  have htruthful : Pipe.Truthful (Atomic Tcp) (Host N C) :=
    Atomic.truthful Tcp.outgoing Tcp.truthful
  refine ⟨?_, ?_, ?_⟩
  · intro p _
    exact ⟨fun _ events v hlisted => Tcp.react_eq_ok hlisted events, Tcp.truthful⟩
  · intro p hrun
    have hshape := hdisciplined.shape_kept.useAll_forall hnew hrun
    refine ⟨fun _ events v hlisted => ?_, htruthful⟩
    exact (Atomic.answers (Tcp.answers fun _ => True)).react events hshape hlisted
  · intro maxSize new p hwrap hrun
    obtain ⟨_, rfl⟩ := Datagram.eq_of_wrap hwrap
    have hshape := (Datagram.disciplined hdisciplined).shape_kept.useAll_forall hnew hrun
    refine ⟨fun _ events v hlisted => ?_,
      Datagram.truthful (Atomic.latching Tcp.latching) htruthful⟩
    have hanswers := Datagram.answers
      (Atomic.answers (Tcp.answers (N := N) (C := C) fun _ => True))
    exact hanswers.react events hshape hlisted

/-- A network where nothing comes in, and whose sockets take one byte at a time. -/
structure Narrow where

instance : Sockets Narrow where
  read _ _ net := (.error (.number OsError.eagain), net)
  send _ data net := (.ok (min 1 data.length), net)
  shutdown _ net := (.ok (), net)
  takeError _ net := (none, net)
  close _ net := net
  queued _ _ := 0

instance : LawfulSockets Narrow where
  read_le := nofun
  send_le h := by
    cases h
    exact Nat.min_le_right _ _

/-- A connection is made, and its way out is to be closed while a byte is queued. -/
def narrowTurns : List (PipeTurn (Host Narrow Side) Side) :=
  [.attach .left, .react { writable := true }, .send [1, 2], .sendFin].map fun use =>
    { meanwhile := id, use }

theorem narrowTurns_outcome :
    (useAll narrowTurns ({ inner := .connecting 3 } : Atomic Tcp)
      { net := {}, reactor := {} }).toOption.map (fun x =>
        (x.1.finWanted, x.1.inner.fd, (x.2.reactor.registration? 3).isSome,
          (Pipe.react { readable := true, writable := true } x.1 x.2).toOption.map fun y => y.1)) =
      some (true, 3, true, some { readable := true, finSent := true }) := by
  decide +kernel

theorem reports_agree_closing_late :
    ∃ (p p' : Atomic Tcp) (w w' : Host Narrow Side),
      useAll narrowTurns { inner := .connecting 3 } { net := {}, reactor := {} } = .ok (p, w) ∧
      p.finWanted = true ∧
      Pipe.react { readable := true, writable := true } p w =
        .ok ({ readable := true, finSent := true }, p', w') ∧
      (state p').finSent = true ∧ (state p').isReadable = true ∧
      ((state p).isWritable = false → (state p').isWritable = false) := by
  obtain ⟨⟨p, w⟩, hrun, houtcome⟩ := Checked.toOption_map_eq_some_iff.mp narrowTurns_outcome
  simp only [Prod.mk.injEq] at houtcome
  obtain ⟨hwanted, hfd, hreg, hreport⟩ := houtcome
  have hstart : Tcp.connecting 3 = .connecting 3 ∨ Tcp.connecting 3 = .connected 3 := .inl rfl
  have hcandid := (reports_agree_with_state hstart).2.1 p hrun
  have hlisted : p.inner.Listed w.reactor := by
    intro _
    right
    rw [hfd]
    exact Option.isSome_iff_ne_none.mp hreg
  obtain ⟨⟨report, p', w'⟩, hreact⟩ :=
    hcandid.tells inferInstance { readable := true, writable := true } w hlisted
  simp only [hreact, Except.toOption, Option.map_some, Option.some.injEq] at hreport
  subst hreport
  have htruth := hcandid.truth hreact
  refine ⟨p, p', w, w', hrun, hwanted, hreact, htruth.finSent rfl, htruth.readable rfl rfl, ?_⟩
  intro hfull
  cases hw : (state p').isWritable with
  | false => rfl
  | true =>
    rcases htruth.opens hw with hold | hreported
    · exact absurd (hfull.symm.trans hold) Bool.false_ne_true
    · cases hreported

end DuplexRelay
