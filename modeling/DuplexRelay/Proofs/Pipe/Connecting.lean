import DuplexRelay.Proofs.Pipe.StateBits

/-! How a connection that is being made turns out. The pipe over it waits for the first writability
or error of its socket, whatever else is reported before. What these events and the error that is
pending at the socket then say is final. -/

namespace DuplexRelay

/-- Calls that leave it open how the connection turns out. -/
def PipeUse.Awaits {C : Type} : PipeUse C → Prop
  | .attach _ | .reschedule => True
  | .react events => events.writable = false ∧ events.error = false
  | .recv _ | .send _ | .sendFin => False

namespace Tcp

variable {N C : Type} {p p' : Tcp} {w w' : Host N C} {events : SocketEvents} {fd : Fd}

theorem settled_eq_ok {α : Type} (h : p.Listed w.reactor) (a : α) (bits : PipeState) (net : N) :
    ∃ q u, settle a bits p { w with net } = .ok (a, q, u) ∧ q.fd = p.fd ∧ q.bits = bits ∧
      u.net = net := by
  obtain ⟨⟨a', q, u⟩, hx⟩ := settle_eq_ok h a bits net
  obtain ⟨rfl, hs⟩ := settled hx
  refine ⟨q, u, hx, ?_, ?_, hs.net⟩
  · rw [hs.pipe]
  · rw [hs.pipe]

variable [Sockets N]

/-- The error that is pending at the socket of a pipe. -/
def pendingError (p : Tcp) (net : N) : Option OsError := (Sockets.takeError p.fd net).1

/-- What is left of the network when that error was taken. -/
def withoutError (p : Tcp) (net : N) : N := (Sockets.takeError p.fd net).2

theorem react_awaiting (hb : p.bits = {}) (hw : events.writable = false)
    (he : events.error = false) : Pipe.react events p w = .ok (.none, p, w) := by
  change notice events p w = _
  simp [notice, hb, hw, he]

theorem react_failing (hb : p.bits = {}) (hl : p.Listed w.reactor)
    (he : events.error = true ∨ events.writable = true ∧ p.pendingError w.net ≠ none) :
    ∃ q u, Pipe.react events p w = .ok (.justBroken, q, u) ∧ q.bits = { broken := true } ∧
      u.net = p.withoutError w.net := by
  have htelling : (events.writable || events.error) = true := by
    rcases he with he | he
    · simp [he]
    · simp [he.1]
  have hcause : (events.error || (p.pendingError w.net).isSome) = true := by
    rcases he with he | he
    · simp [he]
    · simp [Option.isSome_iff_ne_none.mpr he.2]
  obtain ⟨q, u, hs, _, hbits, hnet⟩ :=
    settled_eq_ok hl PipeEvents.justBroken p.bits.breakDown (p.withoutError w.net)
  refine ⟨q, u, ?_, by rw [hbits, hb]; rfl, hnet⟩
  change notice events p w = _
  unfold notice
  rw [hb] at hs ⊢
  change (if !(events.writable || events.error) then _ else
    if events.error || (p.pendingError w.net).isSome then
      settle PipeEvents.justBroken _ p { w with net := p.withoutError w.net } else _) = _
  rw [htelling, hcause]
  exact hs

theorem react_connecting (hb : p.bits = {}) (hl : p.Listed w.reactor)
    (hw : events.writable = true) (he : events.error = false) (hn : p.pendingError w.net = none) :
    ∃ q u, Pipe.react events p w =
        .ok ({ ready := true, readable := events.readable, writable := true }, q, u) ∧
      q.bits = { ready := true, readable := events.readable, writable := true } ∧
      u.net = p.withoutError w.net := by
  have hready : Listed { p with bits := { ready := true } } w.reactor := hl
  obtain ⟨q, u, hs, _, hbits, hnet⟩ :=
    settled_eq_ok hready
      ({ ready := true, readable := events.readable, writable := true } : PipeEvents)
      { ready := true, readable := events.readable, writable := true } (p.withoutError w.net)
  refine ⟨q, u, ?_, hbits, hnet⟩
  change notice events p w = _
  unfold notice
  rw [hb]
  change (if !(events.writable || events.error) then _ else
    if events.error || (p.pendingError w.net).isSome then _ else
      noteReadiness events _ _ { w with net := p.withoutError w.net }) = _
  rw [hw, he, hn]
  unfold noteReadiness
  simpa [hw] using hs

theorem react_broken (hb : p.bits.broken = true) :
    Pipe.react events p w = .ok (.none, p, w) := by
  change notice events p w = _
  unfold notice
  rw [if_pos hb]
  rfl

/-- A connection that was made is lost by an event only if there was an error at the socket. -/
theorem react_ready {report : PipeEvents} (hr : p.bits.ready = true) (hb : p.bits.broken = false)
    (h : Pipe.react events p w = .ok (report, p', w')) :
    report.ready = false ∧
      (p'.bits.broken = true ↔ events.error = true ∧ p.pendingError w.net ≠ none) ∧
      (p'.bits.broken = true → report = .justBroken) := by
  have hnoted {net : N} (h : noteReadiness events .none p { w with net } = .ok (report, p', w')) :
      report.ready = false ∧ p'.bits.broken = false := by
    obtain ⟨rfl, hs⟩ := settled h
    rw [hs.pipe]
    exact ⟨rfl, hb⟩
  replace h : notice events p w = .ok (report, p', w') := h
  unfold notice at h
  simp only [hb, hr, Bool.not_true, Bool.false_eq_true, if_false] at h
  by_cases he : events.error = true
  · rw [if_pos he] at h
    change (if (p.pendingError w.net).isSome then _ else _) = _ at h
    cases hn : p.pendingError w.net with
    | none =>
      rw [hn, if_neg (by simp)] at h
      obtain ⟨hreport, hsound⟩ := hnoted h
      simp [hreport, hsound]
    | some e =>
      rw [hn, if_pos (by simp)] at h
      obtain ⟨rfl, hs⟩ := settled h
      rw [hs.pipe]
      simp [PipeState.breakDown, PipeEvents.justBroken, he]
  · rw [if_neg he] at h
    obtain ⟨hreport, hsound⟩ := hnoted h
    simp [hreport, hsound, he]

/-- As long as only such calls are made the pipe is as it was made. -/
theorem awaiting {waiting : List (PipeTurn (Host N C) C)} (hw : ∀ turn ∈ waiting, turn.use.Awaits)
    (hfd : p.fd = fd) (hb : p.bits = {}) (hrun : Pipe.useAll waiting p w = .ok (p', w')) :
    p'.fd = fd ∧ p'.bits = {} := by
  induction waiting generalizing p w with
  | nil =>
    cases hrun
    exact ⟨hfd, hb⟩
  | cons turn rest ih =>
    obtain ⟨⟨q, v⟩, hcall, hrest⟩ := Checked.bind_eq_ok_iff.mp hrun
    obtain ⟨hfirst, hothers⟩ := List.forall_mem_cons.mp hw
    have hkept : q.fd = fd ∧ q.bits = {} := by
      cases huse : turn.use with
      | attach callback =>
        rw [huse] at hcall
        obtain ⟨⟨result, q', v'⟩, hattach, heq⟩ := Checked.map_eq_ok_iff.mp hcall
        cases heq
        cases enrolled hattach with
        | refused | done => exact ⟨hfd, hb⟩
      | react events =>
        rw [huse] at hcall hfirst
        have hsame := react_awaiting (w := turn.meanwhile w) hb hfirst.1 hfirst.2
        change (Pipe.react events p (turn.meanwhile w)).map Prod.snd = _ at hcall
        rw [hsame] at hcall
        cases hcall
        exact ⟨hfd, hb⟩
      | reschedule =>
        rw [huse] at hcall
        cases hcall
        exact ⟨hfd, hb⟩
      | recv room | send data | sendFin =>
        rw [huse] at hfirst
        exact hfirst.elim
    exact ih hothers hkept.1 hkept.2 hrest

/-- Nothing revives a pipe whose connection was not made. -/
theorem failed_kept : Pipe.Keeps fun (p : Tcp) (_ : Host N C) => p.bits = { broken := true } where
  attach h hcall := by
    cases enrolled hcall with
    | refused | done => exact h
  recv h hcall := by
    cases received hcall with
    | broken | nothing => exact h
    | ended hb | data hb | refused hb | failed hb => simp [h] at hb
  send h hcall := by
    cases transmitted hcall with
    | broken => exact h
    | taken _ hb | refused _ hb | failed _ hb => simp [h] at hb
  sendFin h hcall := by
    cases shutDown_outcome hcall with
    | broken => exact h
    | done _ hb | failed _ hb => simp [h] at hb
  react {events p _ w _ _} h hcall := by
    have hbroken : p.bits.broken = true := by rw [h]
    rw [react_broken hbroken] at hcall
    cases hcall
    exact h
  reschedule h := h

/-- The connection was not made and never will be, whatever is done with the pipe, and nothing more
is reported of it. -/
structure NotMade (N C : Type) [Sockets N] (p : Tcp) : Prop where
  shown : state p = { broken := true }
  final : ∀ {turns : List (PipeTurn (Host N C) C)} {q : Tcp} {w w' : Host N C},
    Pipe.useAll turns p w = .ok (q, w') → state q = { broken := true } ∧
      ∀ (events : SocketEvents) (v : Host N C), Pipe.react events q v = .ok (.none, q, v)

/-- The connection is made, which is reported no second time whatever is done with the pipe. An
event breaks it exactly if it tells of an error that there is. -/
structure Made (N C : Type) [Sockets N] (p : Tcp) : Prop where
  shown : (state p).ready = true
  final : ∀ {turns : List (PipeTurn (Host N C) C)} {q : Tcp} {w w' : Host N C},
    Pipe.useAll turns p w = .ok (q, w') → (state q).ready = true ∧
      ∀ {events : SocketEvents} {report : PipeEvents} {q' : Tcp} {v v' : Host N C},
        Pipe.react events q v = .ok (report, q', v') → report.ready = false ∧
          ((state q).broken = false → ((state q').broken = true ↔
            events.error = true ∧ q.pendingError v.net ≠ none))

theorem notMade (hb : p.bits = { broken := true }) : NotMade N C p := by
  have hshown {q : Tcp} (hq : q.bits = { broken := true }) : state q = { broken := true } := by
    change q.bits.normalized = _
    rw [hq]
    rfl
  refine ⟨hshown hb, ?_⟩
  intro turns q w w' hrun
  have hq := failed_kept.useAll_forall hb hrun
  refine ⟨hshown hq, fun events v => ?_⟩
  apply react_broken
  rw [hq]

theorem made (hr : p.bits.ready = true) : Made N C p := by
  refine ⟨hr, ?_⟩
  intro turns q w w' hrun
  have hq : q.bits.ready = true :=
    ((lasts_kept (state p)).useAll_forall (.refl _) hrun).ready hr
  refine ⟨hq, ?_⟩
  intro events report q' v v' hreact
  cases hb : q.bits.broken with
  | true =>
    rw [react_broken hb] at hreact
    cases hreact
    exact ⟨rfl, fun hsound => absurd (hb.symm.trans hsound) (by simp)⟩
  | false =>
    obtain ⟨hreport, hbroken, _⟩ := react_ready hq hb hreact
    exact ⟨hreport, fun _ => hbroken⟩

/-- Events other than writability and errors mean nothing to a pipe whose connection is being made.
The first of those two tells how the connection turned out, once and for all: it is not made if
there is an error, be it told by the event or pending at the socket. -/
theorem outcome_told_once {waiting : List (PipeTurn (Host N C) C)}
    (hw : ∀ turn ∈ waiting, turn.use.Awaits)
    (hrun : Pipe.useAll waiting (connecting fd) w = .ok (p, w')) :
    p.fd = fd ∧ state p = {} ∧
    (∀ (events : SocketEvents) (v : Host N C), events.writable = false → events.error = false →
      Pipe.react events p v = .ok (.none, p, v)) ∧
    ∀ (events : SocketEvents) (v : Host N C), events.writable = true ∨ events.error = true →
      p.Listed v.reactor → ∃ (q : Tcp) (u : Host N C), u.net = p.withoutError v.net ∧
        if events.error = true ∨ p.pendingError v.net ≠ none then
          Pipe.react events p v = .ok (.justBroken, q, u) ∧ NotMade N C q
        else
          Pipe.react events p v =
            .ok ({ ready := true, readable := events.readable, writable := true }, q, u) ∧
          state q = { ready := true, readable := events.readable, writable := true } ∧
          Made N C q := by
  obtain ⟨hfd, hb⟩ := awaiting hw (rfl : (connecting fd).fd = fd) rfl hrun
  refine ⟨hfd, ?_, ?_, ?_⟩
  · change p.bits.normalized = _
    rw [hb]
    rfl
  · intro events v hwritable herror
    exact react_awaiting hb hwritable herror
  intro events v htelling hl
  split
  · rename_i herror
    have hcause : events.error = true ∨ events.writable = true ∧ p.pendingError v.net ≠ none := by
      rcases htelling with hwritable | he
      · exact herror.imp id fun hpending => ⟨hwritable, hpending⟩
      · exact .inl he
    obtain ⟨q, u, hreact, hbits, hnet⟩ := react_failing hb hl hcause
    exact ⟨q, u, hnet, hreact, notMade hbits⟩
  · rename_i hsound
    obtain ⟨he, hn⟩ := not_or.mp hsound
    have hn : p.pendingError v.net = none := by simpa using hn
    obtain ⟨q, u, hreact, hbits, hnet⟩ :=
      react_connecting hb hl (htelling.resolve_right he) (by simpa using he) hn
    refine ⟨q, u, hnet, hreact, ?_, made (by rw [hbits])⟩
    change q.bits.normalized = _
    rw [hbits]
    simp [PipeState.normalized, PipeState.isReadable, PipeState.isWritable]

/-- The pipe is attached, and its socket becomes readable before the connection is made. -/
def staleReadiness : List (PipeTurn (Host SocketPairs Side) Side) :=
  [{ meanwhile := id, use := .attach .left },
    { meanwhile := farSide (·.farWrite [1, 7]), use := .react { readable := true } },
    { meanwhile := id, use := .reschedule }]

theorem staleReadiness_outcome :
    (Pipe.useAll staleReadiness (connecting 3) Bridge.pairedHost).toOption.map
      (fun x => ((x.2.reactor.registration? 3).isSome, x.1.pendingError x.2.net,
        x.1.pendingError (farSide (·.farReset) x.2).net)) =
      some (true, none, some (.number OsError.econnreset)) := by
  decide +kernel

theorem outcome_told_once_stale :
    ∃ (p : Tcp) (w : Host SocketPairs Side),
      Pipe.useAll staleReadiness (connecting 3) Bridge.pairedHost = .ok (p, w) ∧ state p = {} ∧
      (∃ q u, Pipe.react { readable := true, writable := true } p w =
          .ok ({ ready := true, readable := true, writable := true }, q, u) ∧
        Made SocketPairs Side q) ∧
      ∃ q u, Pipe.react { readable := true, writable := true } p (farSide (·.farReset) w) =
          .ok (.justBroken, q, u) ∧ NotMade SocketPairs Side q := by
  obtain ⟨⟨p, w⟩, hrun, houtcome⟩ := Checked.toOption_map_eq_some_iff.mp staleReadiness_outcome
  obtain ⟨hlisted, hpending⟩ := Prod.mk.inj houtcome
  obtain ⟨hnone, hreset⟩ := Prod.mk.inj hpending
  have hawaits : ∀ turn ∈ staleReadiness, turn.use.Awaits := by
    simp [staleReadiness, PipeUse.Awaits]
  obtain ⟨hfd, hnew, _, hdecided⟩ := outcome_told_once hawaits hrun
  have hknown : p.Listed w.reactor := fun _ =>
    .inr (by rw [hfd]; exact Option.isSome_iff_ne_none.mp hlisted)
  refine ⟨p, w, hrun, hnew, ?_, ?_⟩
  · obtain ⟨q, u, _, hmade⟩ :=
      hdecided { readable := true, writable := true } w (.inl rfl) hknown
    rw [if_neg (by simpa using hnone)] at hmade
    exact ⟨q, u, hmade.1, hmade.2.2⟩
  · obtain ⟨q, u, _, hfailed⟩ :=
      hdecided { readable := true, writable := true } (farSide (·.farReset) w) (.inl rfl) hknown
    have herror : p.pendingError (farSide (·.farReset) w).net ≠ none := by
      rw [hreset]
      simp
    rw [if_pos (.inr herror)] at hfailed
    exact ⟨q, u, hfailed⟩

end Tcp

end DuplexRelay
