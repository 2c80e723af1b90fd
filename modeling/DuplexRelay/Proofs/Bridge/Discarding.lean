import DuplexRelay.Proofs.Bridge.SharedCalls

/-! A bridge may be discarded where its end is told. Its registrations go in the middle of a pass,
that of the callback that is running among them, and the pass goes on for all others. -/

namespace DuplexRelay.Bridge

variable {N O D : Type} {act : Others N O D} {fds : Side → Fd} {size : Nat}
  {notices : List (Reactor.Notice (Side ⊕ D))} {past p : PassLog D} {i : Option Handle}
  {running : Option (Side ⊕ D)} {r r' : Reactor (Side ⊕ D)} {x x' : SharedWorld N O D}
  {b : Bridge (Logged Relay.Link)} {poll : List Fd → Except OsError (Fd → SocketEvents)}

variable [Sockets N] [LawfulSockets N]

theorem keeps_passSoFar (hothers : SparesBridge fds act) (size : Nat) (start : Bool)
    (past : PassLog D) (notices : List (Reactor.Notice (Side ⊕ D))) :
    Reactor.KeptByCalls (invokeLogged act) (PassSoFar fds size start past notices) := by
  constructor
  · rintro r x ⟨p, houtcomes, hlive, hduring⟩
    exact ⟨p, houtcomes, hlive, hduring.untouched⟩
  · rintro due r x r' x' _ _ ⟨p, houtcomes, hlive, hduring⟩ hdue hinvoke
    obtain ⟨q, houtcome, hlive', hduring'⟩ := hduring.served hothers hlive hdue hinvoke
    exact ⟨p ++ q, .snoc houtcomes houtcome, hlive', hduring'⟩

theorem passed (hothers : SparesBridge fds act) (hr : r.Resting)
    (h : RegisteredIfPresent fds size none r x) (hlive : x.Live) {result : Except Failure Nat}
    (hpass : r.monitor poll (invokeLogged act) x = .ok (result, r', x')) :
    ∃ p, PassOutcome fds size poll r x p r' x' := by
  have hresting := Reactor.resting_monitor obeys_invokeLogged hr hpass
  -- where no callback was called, there was nothing to tell
  have hnothing {r' : Reactor (Side ⊕ D)} (hresting : r'.Resting)
      (hregistered : RegisteredIfPresent fds size none r' x)
      (hnone : ∀ ready, r.phase = .idle → r.asks poll = .ok ready → r.notices ready = []) :
      ∃ p, PassOutcome fds size poll r x p r' x := by
    refine ⟨[], hresting, (List.append_nil _).symm, .nil _, hlive, hregistered, .nil, ?_⟩
    intro ready hidle hasks
    rw [hnone ready hidle hasks]
    exact ⟨nofun, nofun⟩
  cases Reactor.monitored hpass with
  | refused hdisposed =>
    refine hnothing hr h fun ready hidle => ?_
    rw [hdisposed] at hidle
    cases hidle
  | failed _ hasks =>
    refine hnothing hr h fun ready _ hready => ?_
    cases hasks.symm.trans hready
  | @quiet ready _ hasks hquiet =>
    refine hnothing hr h fun ready' _ hready => ?_
    cases hasks.symm.trans hready
    exact Reactor.notices_of_quiet hquiet
  | @idle ready hidle hasks hcount =>
    refine hnothing hresting (h.snapshot hr hidle ready) fun ready' _ hready => ?_
    cases hasks.symm.trans hready
    rw [Reactor.outstanding_eq (Reactor.sound_snapshot hr.sound ready),
      Reactor.undelivered_snapshot hr.sound.wf] at hcount
    exact List.eq_nil_of_length_eq_zero hcount
  | @passed ready n r₁ _ hidle hasks hd =>
    have hcount := Reactor.outstanding_eq (Reactor.sound_snapshot hr.sound ready)
    have hbegun : PassSoFar fds size x.bridge.isSome x.log (r.notices ready)
        (r.snapshot ready).begun x := ⟨[], .nil _, hlive, h.begun hr hidle ready⟩
    obtain ⟨hsound, hbusy, ⟨p, houtcomes, hlive', hduring⟩, hdone⟩ :=
      Reactor.dispatch_keeps obeys_invokeLogged
        (keeps_passSoFar hothers size _ x.log (r.notices ready))
        (Reactor.sound_begun hr.sound) (.inl rfl) hbegun (Reactor.nothingDueUpTo_none _)
        (Nat.le_of_eq hcount.symm) hd
    refine ⟨p, hresting, hduring.log, houtcomes, hlive', hduring.registered.endPass hsound hbusy,
      hduring.account.once, ?_⟩
    intro ready' _ hready
    cases hasks.symm.trans hready
    exact ⟨hduring.account.due, fun n hn hother => hduring.account.served hdone hn hother⟩

theorem pass_error (hothers : SparesBridge fds act) (hr : r.Resting)
    (h : RegisteredIfPresent fds size none r x)
    (hlive : x.Live) {v : Violation} (hstop : r.monitor poll (invokeLogged act) x = .error v) :
    Exempt N Datagram.Holdable size v ∨ OthersViolate act v := by
  have hkeeps : Reactor.KeptByCalls (invokeLogged act) fun r₁ x₁ =>
      ∃ notices, PassSoFar fds size x.bridge.isSome x.log notices r₁ x₁ := by
    constructor
    · rintro r₁ x₁ ⟨notices, hsofar⟩
      exact ⟨notices, (keeps_passSoFar hothers size _ x.log notices).1 hsofar⟩
    · rintro due r₁ x₁ r₂ x₂ hsound hbusy ⟨notices, hsofar⟩ hdue hinvoke
      exact ⟨notices,
        (keeps_passSoFar hothers size _ x.log notices).2 hsound hbusy hsofar hdue hinvoke⟩
  obtain ⟨due, r₁, x₁, _, _, ⟨_, p, _, _, hduring⟩, hdue, hinvoke⟩ :=
    Reactor.monitor_error obeys_invokeLogged hkeeps hr
      (fun hidle ready => ⟨_, [], .nil _, hlive, h.begun hr hidle ready⟩) hstop
  exact hduring.invokeLogged_error hdue hinvoke

/-- The reactors that come about around a bridge over new connections, whatever others ask of them,
and whatever is ready. The bridge is registered at some time, and a log is opened for it. -/
inductive SharedReached (act : Others N O D) (fds : Side → Fd) (config : BridgeConfig) :
    Reactor (Side ⊕ D) → SharedWorld N O D → Prop
  | start (net : N) (others : O) : SharedReached act fds config {} { net, others }
  | elsewhere {r : Reactor (Side ⊕ D)} {x : SharedWorld N O D} (net : N) (others : O)
      (h : SharedReached act fds config r x) : SharedReached act fds config r { x with net, others }
  | asked {r r' : Reactor (Side ⊕ D)} {x : SharedWorld N O D} {q : Request D}
      (h : SharedReached act fds config r x) (hq : x.bridge.isSome = true → ∀ s, q.Spares (fds s))
      (hperform : (q.map .inr).perform r = .ok r') :
      SharedReached act fds config r' (x.record [.asked q])
  | joined {r : Reactor (Side ⊕ D)} {x : SharedWorld N O D} {left right : Relay.Link}
      {b b' : Bridge (Logged Relay.Link)} {host : Host N (Side ⊕ D)}
      (h : SharedReached act fds config r x) (hnone : x.bridge = none) (hl : IsNew left)
      (hr : IsNew right) (hfds : ∀ s, (b.side s).pipe.pipe.base.fd = fds s)
      (hb : between (Logged.fresh left) (.fresh right) config = .ok (.ok b))
      (hattach : b.attach Sum.inl ({ net := x.net, reactor := r } : Host N (Side ⊕ D)) =
        .ok (.ok (), b', host)) :
      SharedReached act fds config host.reactor
        { x with net := host.net, bridge := some b', log := [] }
  | passed {r r' : Reactor (Side ⊕ D)} {x x' : SharedWorld N O D}
      {poll : List Fd → Except OsError (Fd → SocketEvents)} {result : Except Failure Nat}
      (h : SharedReached act fds config r x)
      (hpass : r.monitor poll (invokeLogged act) x = .ok (result, r', x')) :
      SharedReached act fds config r' x'

theorem BetweenPasses.joined {config : BridgeConfig} {left right : Relay.Link}
    {b' : Bridge (Logged Relay.Link)} {host : Host N (Side ⊕ D)}
    (h : BetweenPasses fds config.bufferSize r x) (hl : IsNew left) (hr : IsNew right)
    (hfds : ∀ s, (b.side s).pipe.pipe.base.fd = fds s)
    (hb : between (Logged.fresh left) (.fresh right) config = .ok (.ok b))
    (hattach : b.attach Sum.inl ({ net := x.net, reactor := r } : Host N (Side ⊕ D)) =
      .ok (.ok (), b', host)) :
    BetweenPasses fds config.bufferSize host.reactor
      { x with net := host.net, bridge := some b', log := [] } := by
  have huntouched : ∀ s, (b.side s).Untouched (Stack.linkOutlook.erased Logged.pipe)
      (fun fd => ∃ s, fd = fds s) config.bufferSize := by
    intro s
    exact { untouched_of_between hl hr hb s with own := ⟨s, hfds s⟩ }
  have hattached := attached hattach
  obtain ⟨hproper, hfit⟩ := proper_attached links_dependable huntouched h.resting.sound.wf hattached
  obtain ⟨hdead, hfinal⟩ := unended_of_attached hattached
  have hpermitted : r.Permitted (mayRegister fds true) none := by
    refine h.registered.permitted.mono fun callback fd hmay => ?_
    cases callback with
    | inl s => exact ⟨rfl, hmay.2⟩
    | inr d => trivial
  rw [between_eq_ok hb] at hdead hfinal
  generalize hresult : (Except.ok () : Except Failure Unit) = result at hattached
  cases hattached with
  | refused => cases hresult
  | done _ hleft hright =>
    subst hresult
    obtain ⟨_, _, hleft⟩ := links_dependable.attached (huntouched .left).regular hleft
    obtain ⟨_, _, hright⟩ := links_dependable.attached (huntouched .right).regular hright
    obtain ⟨hasLeft, hresting₁, hpermitted₁⟩ :=
      permitted_attached h.resting hpermitted (hfds .left) hleft
    obtain ⟨hasRight, hresting, hpermitted⟩ :=
      permitted_attached hresting₁ hpermitted₁ (hfds .right) hright
    refine ⟨hresting, ⟨hpermitted, fun b₁ hb₁ => ?_⟩, fun b₁ hb₁ => ?_, fun _ => nofun⟩
    · cases hb₁
      refine ⟨hproper, fun _ => hfit, fun s => ?_, fun s => ?_⟩
      · cases s with
        | left => exact hasLeft.1
        | right => exact hasRight.1
      · cases s with
        | left => exact hasLeft.2
        | right => exact hasRight.2
    · cases hb₁
      exact ⟨hdead, hfinal⟩

theorem SharedReached.betweenPasses {config : BridgeConfig} (hothers : SparesBridge fds act)
    (h : SharedReached act fds config r x) : BetweenPasses fds config.bufferSize r x := by
  induction h with
  | start =>
    refine ⟨⟨Reactor.sound_new, .inl rfl⟩, ⟨Reactor.permitted_of_entries rfl, ?_⟩, ?_, ?_⟩
    · exact fun b hb => (by cases hb)
    · exact fun b hb => (by cases hb)
    · exact fun hpresent => (by cases hpresent)
  | elsewhere _ _ _ ih =>
    exact ⟨ih.resting, ih.registered.of_bridge rfl, ih.live, ih.ongoing⟩
  | asked _ hq hperform ih => exact ih.asked hq hperform
  | joined _ _ hl hr hfds hb hattach ih => exact ih.joined hl hr hfds hb hattach
  | passed _ hpass ih =>
    obtain ⟨p, hp⟩ := Bridge.passed hothers ih.resting ih.registered ih.live hpass
    exact ih.passed hp

/-- When a bridge comes to its end in a pass, it can be discarded there and then. Its end is told
once, and when the callback returns that ended it, neither of its descriptors is registered. No
callback of the bridge is called after that, whatever it was to be told, and no call of a pipe is
made. All the other callbacks that were to be told something in that pass are told it, each of them
once, unless others remove their registrations or discard the reactor. Nothing stops a pass but what
may stop an activity of a bridge, and requests of others that are against a contract. -/
theorem discarding_is_safe {config : BridgeConfig} (hothers : SparesBridge fds act)
    (h : SharedReached act fds config r x) (hpresent : x.bridge.isSome = true) :
    (∀ v, r.monitor poll (invokeLogged act) x = .error v →
      (v = .backlogExceeded ∧ ¬Sockets.AsAnnounced N ∨
        v = .capacityExceeded ∧ ¬Datagram.Holdable config.bufferSize) ∨ OthersViolate act v) ∧
    ∀ result r' x', r.monitor poll (invokeLogged act) x = .ok (result, r', x') →
      ∃ p, x'.log = x.log ++ p ∧ (p.calls.Pairwise fun m n => m.fd ≠ n.fd) ∧
        (∀ ready, r.phase = .idle → r.asks poll = .ok ready →
          (∀ n ∈ p.calls, n ∈ r.notices ready) ∧
            ∀ n ∈ r.notices ready, (∀ s, n.fd ≠ fds s) → ToldOnceOrRemoved p n) ∧
        (∀ d ∈ x.log, ¬d.EndsBridge) ∧
        ((∃ b, x'.bridge = some b ∧ b.dead = false ∧ ∀ d ∈ p, ¬d.EndsBridge) ∨
          x'.bridge = none ∧ EndedOnce fds p ∧
            ∀ fd reg s, r'.registration? fd = some reg → reg.callback ≠ some (.inl s)) := by
  have hsettled := h.betweenPasses hothers
  refine ⟨fun v hstop => ?_, fun result r' x' hpass => ?_⟩
  · exact pass_error hothers hsettled.resting hsettled.registered hsettled.live hstop
  · obtain ⟨p, hp⟩ := Bridge.passed hothers hsettled.resting hsettled.registered hsettled.live hpass
    refine ⟨p, hp.log, hp.once, hp.told, hsettled.ongoing hpresent, ?_⟩
    cases hb : x'.bridge with
    | some b =>
      refine .inl ⟨b, rfl, (hp.live b hb).1, hp.outcomes.not_endsBridge ?_⟩
      rw [hb, Option.isSome_some]
    | none =>
      have hgone : x'.bridge.isSome = false := by rw [hb, Option.isSome_none]
      refine .inr ⟨rfl, hp.outcomes.endedOnce hpresent hgone, fun fd reg s hreg hcallback => ?_⟩
      have hmay := hp.registered.permitted.registration? hp.resting.sound.wf hreg hcallback
      rw [hgone] at hmay
      exact Bool.false_ne_true hmay.1

/-- Somebody who does nothing. -/
def onlooker (_ : Notification Unit) (_ : Reactor (Side ⊕ Unit))
    (x : SharedWorld SocketPairs Unit Unit) :
    List (Request Unit) × SocketPairs × Unit :=
  ([], x.net, ())

theorem sparesBridge_onlooker (fds : Side → Fd) : SparesBridge fds onlooker :=
  fun _ _ _ _ _ hq => absurd hq List.not_mem_nil

def pairedFds : Side → Fd
  | .left => 3
  | .right => 4

def hopefulBridge : Bridge (Logged Relay.Link) where
  left := { pipe := .fresh (.bare (.connecting 3)), recvSize := 8192 }
  right := { pipe := .fresh (.bare (.connected 4)), recvSize := 8192 }
  budget := 65536

/-- A pass over that bridge and one more socket. The left connection is reset, and something arrives
on both other ones. -/
def resetPass : Checked ((Reactor (Side ⊕ Unit) × SharedWorld SocketPairs Unit Unit) ×
    Reactor (Side ⊕ Unit) × SharedWorld SocketPairs Unit Unit) := do
  let net := pairedHost.net.connect 5
  let r ← (Request.map .inr (.add 5 { readable := true } ())).perform {}
  let (_, b, host) ← hopefulBridge.attach Sum.inl
    ({ net, reactor := r } : Host SocketPairs (Side ⊕ Unit))
  let net := ((host.net.update 3 (·.farReset)).update 4 (·.farWrite [1])).update 5 (·.farWrite [2])
  let x : SharedWorld SocketPairs Unit Unit := { net, bridge := some b, others := () }
  let (_, r', x') ← host.reactor.monitor (Polls.poll · net) (invokeLogged onlooker) x
  return ((host.reactor, x), r', x')

/-- Which descriptors are ready, which of their callbacks are called, which descriptors stay
registered, and whether the bridge is still there. -/
theorem resetPass_figures :
    (resetPass.toOption.map fun x => (x.1.1.phase,
      (x.1.1.asks (Polls.poll · x.1.2.net)).toOption.map fun ready =>
        (x.1.1.notices ready).map (·.fd), x.2.2.log.calls.map (·.fd),
        [3, 4, 5].filter x.2.1.isRegistered, x.2.2.bridge.isSome)) =
      some (.idle, some [3, 4, 5], [3, 5], [5], false) := by
  decide +kernel

theorem sharedReached_resetPass {r r' : Reactor (Side ⊕ Unit)}
    {x x' : SharedWorld SocketPairs Unit Unit}
    (h : resetPass = .ok ((r, x), r', x')) :
    SharedReached onlooker pairedFds {} r x ∧ x.bridge.isSome = true ∧ x.log = [] ∧
      ∃ result, r.monitor (Polls.poll · x.net) (invokeLogged onlooker) x =
        .ok (result, r', x') := by
  simp only [resetPass, Checked.bind_eq_ok_iff] at h
  obtain ⟨r₀, hadd, ⟨result, b, host⟩, hattach, ⟨outcome, r₁, x₁⟩, hpass, heq⟩ := h
  cases heq
  have hnew : between (Logged.fresh (.bare (.connecting 3))) (.fresh (.bare (.connected 4))) {} =
      .ok (.ok hopefulBridge) := rfl
  have hdone : result = .ok () := by
    cases hadd
    cases hattach
    rfl
  subst hdone
  refine ⟨?_, rfl, rfl, outcome, hpass⟩
  have hfds : ∀ s, (hopefulBridge.side s).pipe.pipe.base.fd = pairedFds s := by
    intro s
    cases s <;> rfl
  have hasked : SharedReached onlooker pairedFds {} r₀ _ :=
    .asked (q := .add 5 { readable := true } ()) (.start (pairedHost.net.connect 5) ())
      (fun _ _ => trivial) hadd
  exact .elsewhere _ () (.joined hasked rfl ⟨3, false, 0, .inl rfl⟩ ⟨4, false, 0, .inr rfl⟩
    hfds hnew hattach)

/-- All three descriptors are ready. The reset ends the bridge, the right side of it is not told
anything any more, and the third descriptor is told of its bytes. -/
theorem discarding_is_safe_reset :
    ∃ (r r' : Reactor (Side ⊕ Unit)) (x x' : SharedWorld SocketPairs Unit Unit)
      (ready : Fd → SocketEvents) (p : PassLog Unit),
      SparesBridge pairedFds onlooker ∧ SharedReached onlooker pairedFds {} r x ∧
        x.bridge.isSome = true ∧
        resetPass = .ok ((r, x), r', x') ∧ r.asks (Polls.poll · x.net) = .ok ready ∧
        (r.notices ready).map (·.fd) = [3, 4, 5] ∧ x'.log = x.log ++ p ∧
        p.calls.map (·.fd) = [3, 5] ∧ (∀ n ∈ r.notices ready, n.fd = 5 → ToldOnceOrRemoved p n) ∧
        EndedOnce pairedFds p := by
  have hfigures := resetPass_figures
  cases hrun : resetPass with
  | error v => simp [hrun, Except.toOption] at hfigures
  | ok y =>
    obtain ⟨⟨r, x⟩, r', x'⟩ := y
    obtain ⟨hreached, hpresent, hempty, result, hpass⟩ := sharedReached_resetPass hrun
    simp only [hrun, Except.toOption, Option.map_some, Option.some.injEq, Prod.mk.injEq] at hfigures
    obtain ⟨hidle, hready, hcalls, _, hgone⟩ := hfigures
    cases hasks : r.asks (Polls.poll · x.net) with
    | error e => simp [hasks] at hready
    | ok ready =>
      simp only [hasks, Option.map_some, Option.some.injEq] at hready
      obtain ⟨p, hlog, _, htold, _, hend⟩ :=
        (discarding_is_safe (sparesBridge_onlooker pairedFds) hreached hpresent).2 result r' x'
          hpass
      rcases hend with ⟨b, hb, _⟩ | ⟨_, hended, _⟩
      · rw [hb, Option.isSome_some] at hgone
        cases hgone
      rw [hlog, hempty, List.nil_append] at hcalls
      refine ⟨r, r', x, x', ready, p, sparesBridge_onlooker pairedFds, hreached, hpresent, rfl,
        hasks, hready, hlog, hcalls, fun n hn hfd => ?_, hended⟩
      refine (htold ready hidle hasks).2 n hn fun s => ?_
      rw [hfd]
      cases s <;> decide

end DuplexRelay.Bridge
