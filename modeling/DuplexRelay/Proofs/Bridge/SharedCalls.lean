import DuplexRelay.Proofs.Bridge.Contract
import DuplexRelay.Proofs.Bridge.Lifecycle
import DuplexRelay.Proofs.Bridge.SharedPass

/-! A bridge that shares its reactor and may be discarded where its end is told. Every call of a
pass either concerns others, or is lived through by the bridge, or is the one in which it ends, and
what these calls come to one after another is what the whole pass comes to. -/

namespace DuplexRelay.Bridge

variable {N O D : Type} {act : Others N O D} {fds : Side → Fd} {size : Nat}
  {notices : List (Reactor.Notice (Side ⊕ D))} {past p : PassLog D} {i : Option Handle}
  {running : Option (Side ⊕ D)} {r r' : Reactor (Side ⊕ D)} {x x' : SharedWorld N O D}
  {b : Bridge (Logged Relay.Link)} {poll : List Fd → Except OsError (Fd → SocketEvents)}

/-- What a call comes to, by whether the bridge is there before it and after it. -/
inductive CallOutcome (fds : Side → Fd) : Bool → Bool → PassLog D → Prop
  | ofOthers {present : Bool} {p : PassLog D} (hp : ∀ d ∈ p, d.OfOthers) :
      CallOutcome fds present present p
  | lived {p : PassLog D} (hp : ∀ d ∈ p, ¬d.EndsBridge) : CallOutcome fds true true p
  | ended (s : Side) (events : SocketEvents) (left right : List PipeCall) (graceful : Bool)
      (qs : List (Request D)) {r : Reactor (Side ⊕ D)} (hr : ∀ t, r.isRegistered (fds t) = false) :
      CallOutcome fds true false ([.called (fds s) events (.inl s), .acted left right,
        .shutdown graceful] ++ qs.map .asked ++ [.released, .returned r])

/-- What several calls come to. -/
inductive CallOutcomes (fds : Side → Fd) : Bool → Bool → PassLog D → Prop
  | nil (present : Bool) : CallOutcomes fds present present []
  | snoc {present between after : Bool} {p q : PassLog D} (h : CallOutcomes fds present between p)
      (hq : CallOutcome fds between after q) : CallOutcomes fds present after (p ++ q)

/-- The bridge came to its end in the callback of one of its sides. There its end was told, and when
the callback returned, neither of its descriptors was registered. The end was not told before, and
nothing that came later had to do with the bridge. -/
def EndedOnce (fds : Side → Fd) (p : PassLog D) : Prop :=
  ∃ (before after : PassLog D) (s : Side) (events : SocketEvents) (left right : List PipeCall)
    (graceful : Bool) (qs : List (Request D)) (r : Reactor (Side ⊕ D)),
    p = before ++ ([.called (fds s) events (.inl s), .acted left right, .shutdown graceful] ++
      qs.map .asked ++ [.released, .returned r]) ++ after ∧
    (∀ d ∈ before, ¬d.EndsBridge) ∧ (∀ t, r.isRegistered (fds t) = false) ∧ ∀ d ∈ after, d.OfOthers

namespace CallOutcomes

theorem started {start after : Bool} (h : CallOutcomes fds start after p) (hafter : after = true) :
    start = true := by
  induction h with
  | nil => exact hafter
  | snoc _ hq ih =>
    subst hafter
    cases hq with
    | ofOthers | lived => exact ih rfl

theorem not_endsBridge {start after : Bool} (h : CallOutcomes fds start after p)
    (hafter : after = true) : ∀ d ∈ p, ¬d.EndsBridge := by
  induction h with
  | nil => exact fun d hd => absurd hd List.not_mem_nil
  | snoc _ hq ih =>
    subst hafter
    intro d hd
    rcases List.mem_append.mp hd with hd | hd
    · cases hq with
      | ofOthers | lived => exact ih rfl d hd
    · cases hq with
      | ofOthers hq => exact (hq d hd).not_endsBridge
      | lived hq => exact hq d hd

theorem endedOnce {start after : Bool} (h : CallOutcomes fds start after p) (hstart : start = true)
    (hafter : after = false) : EndedOnce fds p := by
  induction h with
  | nil =>
    rw [hstart] at hafter
    cases hafter
  | snoc hold hq ih =>
    subst hstart hafter
    cases hq with
    | ofOthers hq =>
      obtain ⟨before, after, s, events, left, right, graceful, qs, r, rfl, hbefore, hr, hafter⟩ :=
        ih rfl
      refine ⟨before, _, s, events, left, right, graceful, qs, r, List.append_assoc _ _ _, hbefore,
        hr, fun d hd => ?_⟩
      rcases List.mem_append.mp hd with hd | hd
      · exact hafter d hd
      · exact hq d hd
    | ended _ _ _ _ _ _ hr =>
      -- this is the call that ended it, and there was no other one before
      exact ⟨_, [], _, _, _, _, _, _, _, (List.append_nil _).symm, hold.not_endsBridge rfl, hr,
        fun d hd => absurd hd List.not_mem_nil⟩

end CallOutcomes

theorem asked_notifyOthers {note : Notification D} (h : notifyOthers act note r x = .ok (r', x')) :
    r.Asked (fun _ => True) r' := by
  obtain ⟨_, _, hperform, _⟩ := notifiedOthers h
  exact ⟨_, fun _ _ => trivial, hperform⟩

def SharedWorld.Live (x : SharedWorld N O D) : Prop :=
  ∀ b, x.bridge = some b → b.dead = false ∧ b.finalStats = none

/-- What is so between passes. -/
structure BetweenPasses (fds : Side → Fd) (size : Nat) (r : Reactor (Side ⊕ D))
    (x : SharedWorld N O D) : Prop where
  resting : r.Resting
  registered : RegisteredIfPresent fds size none r x
  live : x.Live
  ongoing : x.bridge.isSome = true → ∀ d ∈ x.log, ¬d.EndsBridge

theorem BetweenPasses.asked (h : BetweenPasses fds size r x) {q : Request D}
    (hq : x.bridge.isSome = true → ∀ s, q.Spares (fds s))
    (hperform : (q.map .inr).perform r = .ok r') :
    BetweenPasses fds size r' (x.record [.asked q]) := by
  have hall : Request.performAll ([q].map (Request.map .inr)) r = .ok r' :=
    Checked.bind_eq_ok_iff.mpr ⟨r', hperform, rfl⟩
  have hspares : x.bridge.isSome = true → ∀ q' ∈ [q], ∀ s, q'.Spares (fds s) := by
    intro hpresent q' hq'
    rw [List.mem_singleton.mp hq']
    exact hq hpresent
  have hregistered := h.registered.asked h.resting.sound.wf hspares hall
  refine ⟨Reactor.resting_performed h.resting (Reactor.performed hperform),
    hregistered.of_bridge rfl, h.live, fun hpresent d hd => ?_⟩
  rcases List.mem_append.mp hd with hd | hd
  · exact h.ongoing hpresent d hd
  · rw [List.mem_singleton.mp hd]
    exact id

/-- What a pass came to until now. -/
def PassSoFar (fds : Side → Fd) (size : Nat) (start : Bool) (past : PassLog D)
    (notices : List (Reactor.Notice (Side ⊕ D))) (r : Reactor (Side ⊕ D)) (x : SharedWorld N O D) :
    Prop :=
  ∃ p, CallOutcomes fds start x.bridge.isSome p ∧ x.Live ∧
    DuringPass fds size notices past none none p r x

/-- What a pass over a resting reactor came to. -/
structure PassOutcome (fds : Side → Fd) (size : Nat)
    (poll : List Fd → Except OsError (Fd → SocketEvents)) (r : Reactor (Side ⊕ D))
    (x : SharedWorld N O D) (p : PassLog D) (r' : Reactor (Side ⊕ D)) (x' : SharedWorld N O D) :
    Prop where
  resting : r'.Resting
  log : x'.log = x.log ++ p
  outcomes : CallOutcomes fds x.bridge.isSome x'.bridge.isSome p
  live : x'.Live
  registered : RegisteredIfPresent fds size none r' x'
  once : p.calls.Pairwise fun m n => m.fd ≠ n.fd
  told : ∀ ready, r.phase = .idle → r.asks poll = .ok ready →
    (∀ n ∈ p.calls, n ∈ r.notices ready) ∧
      ∀ n ∈ r.notices ready, (∀ s, n.fd ≠ fds s) → ToldOnceOrRemoved p n

theorem BetweenPasses.passed (h : BetweenPasses fds size r x) {p : PassLog D}
    (hp : PassOutcome fds size poll r x p r' x') : BetweenPasses fds size r' x' := by
  refine ⟨hp.resting, hp.registered, hp.live, fun hpresent d hd => ?_⟩
  rw [hp.log] at hd
  rcases List.mem_append.mp hd with hd | hd
  · exact h.ongoing (hp.outcomes.started hpresent) d hd
  · exact hp.outcomes.not_endsBridge hpresent d hd

/-- A request of others in a pass is against a contract. -/
def OthersViolate (act : Others N O D) (v : Violation) : Prop :=
  ∃ (note : Notification D) (r : Reactor (Side ⊕ D)) (x : SharedWorld N O D) (i : Option Handle),
    r.Sound i ∧ r.Busy ∧
      Request.performAll ((act note r x).1.map (Request.map .inr)) r = .error v

theorem DuringPass.notifyOthers_error (h : DuringPass fds size notices past i running p r x)
    {note : Notification D} {v : Violation} (hstop : notifyOthers act note r x = .error v) :
    OthersViolate act v := by
  rcases Checked.bind_eq_error_iff.mp hstop with hperform | ⟨_, _, hdone⟩
  · exact ⟨note, r, x, i, h.sound, h.busy, hperform⟩
  · cases hdone

variable [Sockets N]

theorem obeys_invokeLogged : Reactor.Obeys (invokeLogged act) := by
  intro callback events r x r' x' h
  obtain ⟨⟨_, x₁⟩, hdone, heq⟩ := Checked.bind_eq_ok_iff.mp h
  cases heq
  suffices hasked : r.Asked (fun _ => True) r' by
    obtain ⟨requests, _, hperform⟩ := hasked
    exact ⟨requests, hperform⟩
  cases callback with
  | inr d => exact asked_notifyOthers hdone
  | inl s =>
    unfold runCallback callBridge at hdone
    dsimp only at hdone
    split at hdone
    · cases hdone
      exact .refl _ _
    · obtain ⟨⟨ending, b', host⟩, hact, hdone⟩ := Checked.bind_eq_ok_iff.mp hdone
      have hacted : r.Asked (fun _ => True) host.reactor :=
        (onlyAdjustsOne_of_onActivity hact).mono fun _ _ => trivial
      cases ending with
      | none =>
        cases hdone
        exact hacted
      | some graceful =>
        obtain ⟨⟨r₂, x₂⟩, htold, heq⟩ := Checked.bind_eq_ok_iff.mp hdone
        cases heq
        have hreleased := asked_release b' { net := x₂.net, reactor := r₂ }
        exact hacted.trans ((asked_notifyOthers htold).trans hreleased)

theorem DuringPass.ended (h : DuringPass fds size notices past i running p r x)
    (hothers : SparesBridge fds act) (hb : x.bridge = some b) {graceful : Bool}
    (hend : endBridge act graceful b r x = .ok (r', x')) :
    x'.bridge = none ∧ (∀ s, r'.isRegistered (fds s) = false) ∧ ∃ qs : List (Request D),
      DuringPass fds size notices past i running
        (p ++ (.shutdown graceful :: qs.map .asked ++ [.released])) r' x' := by
  obtain ⟨⟨r₁, x₁⟩, htold, heq⟩ := Checked.bind_eq_ok_iff.mp hend
  cases heq
  have hshutdown := h.entered (q := [.shutdown graceful]) rfl rfl
  obtain ⟨hnotified, hbridge⟩ := hshutdown.notifiedOthers hothers htold
  obtain ⟨hreleased, hgone⟩ := hnotified.released (hbridge.trans hb) rfl
  refine ⟨rfl, hgone, (act (.over graceful) r (x.record [.shutdown graceful])).1, ?_⟩
  rw [List.append_assoc, List.append_assoc] at hreleased
  exact hreleased

theorem DuringPass.served [LawfulSockets N] (h : DuringPass fds size notices past none none p r x)
    (hothers : SparesBridge fds act) (hlive : x.Live) {due : Reactor.Due (Side ⊕ D)}
    (hdue : r.nextDue? none = some due)
    (hinvoke : invokeLogged act due.callback due.events (r.takeDue due.id) x = .ok (r', x')) :
    ∃ q, CallOutcome fds x.bridge.isSome x'.bridge.isSome q ∧ x'.Live ∧
      DuringPass fds size notices past none none (p ++ q) (r'.putBack due.id due.callback) x' := by
  obtain ⟨fd, hrunning, hmay, hcalled⟩ := h.called hdue
  unfold invokeLogged at hinvoke
  rw [hrunning] at hinvoke
  obtain ⟨⟨_, x₁⟩, hdone, heq⟩ := Checked.bind_eq_ok_iff.mp hinvoke
  cases heq
  -- what is left of the call is the same in all cases: it returns, and the callback is put back
  have hreturned {q : PassLog D} (h₁ : DuringPass fds size notices past (some due.id)
      (some due.callback) (p ++ q) r' x₁) :
      DuringPass fds size notices past none none (p ++ (q ++ [.returned r']))
        (r'.putBack due.id due.callback) (x₁.record [.returned r']) := by
    rw [← List.append_assoc]
    exact (h₁.entered (q := [.returned r']) rfl rfl).putBack
  change runCallback act due.callback due.events (r.takeDue due.id)
    (x.record [.called fd due.events due.callback]) = .ok (r', x₁) at hdone
  change ∃ q, CallOutcome fds x.bridge.isSome x₁.bridge.isSome q ∧
    (∀ b, x₁.bridge = some b → b.dead = false ∧ b.finalStats = none) ∧ _
  generalize hcallback : due.callback = callback at hdone hmay hcalled hreturned ⊢
  cases callback with
  | inr d =>
    obtain ⟨hnotified, hbridge⟩ := hcalled.notifiedOthers hothers hdone
    rw [List.append_assoc] at hnotified
    rw [hbridge]
    refine ⟨_, .ofOthers fun e he => ?_, hlive, hreturned hnotified⟩
    simp only [List.mem_append, List.mem_map, List.mem_singleton] at he
    rcases he with (rfl | ⟨q, _, rfl⟩) | rfl <;> trivial
  | inl s =>
    obtain ⟨hpresent, rfl⟩ := hmay
    obtain ⟨b, hb⟩ := Option.isSome_iff_exists.mp hpresent
    unfold runCallback callBridge SharedWorld.record at hdone
    dsimp only at hdone
    rw [hb] at hdone
    obtain ⟨⟨ending, b', host⟩, hact, hdone⟩ := Checked.bind_eq_ok_iff.mp hdone
    have hacted := hcalled.acted hb (newCalls b b' .left) (newCalls b b' .right) hact
    rw [List.append_assoc] at hacted
    rw [hpresent]
    cases ending with
    | none =>
      cases hdone
      refine ⟨_, .lived fun e he => ?_, fun b₁ hb₁ => ?_, hreturned hacted⟩
      · simp only [List.mem_append, List.mem_singleton] at he
        rcases he with (rfl | rfl) | rfl <;> exact id
      · cases hb₁
        -- an activity that does not tell of an end leaves the bridge alive
        rcases episode_cases (hlive b hb).1 (hlive b hb).2 hact with ⟨hgoes, hfinal⟩ | hends
        · exact ⟨hgoes.survived, hfinal⟩
        · rcases hends.reported with ⟨_, hnone⟩ | ⟨_, _, hnone⟩ <;> cases hnone
    | some graceful =>
      obtain ⟨hnone, hgone, qs, hended⟩ := hacted.ended hothers rfl hdone
      rw [List.append_assoc] at hended
      rw [hnone, Option.isSome_none]
      refine ⟨_, ?_, fun b₁ hb₁ => (by cases hb₁), hreturned hended⟩
      have houtcome := CallOutcome.ended s due.events (newCalls b b' .left) (newCalls b b' .right)
        graceful qs hgone
      simpa only [List.append_assoc, List.cons_append, List.nil_append] using houtcome

/-- A call is stopped by nothing but what an activity of the bridge may be stopped by, and requests
of others. -/
theorem DuringPass.invokeLogged_error [LawfulSockets N]
    (h : DuringPass fds size notices past none none p r x)
    {due : Reactor.Due (Side ⊕ D)} (hdue : r.nextDue? none = some due) {v : Violation}
    (hstop : invokeLogged act due.callback due.events (r.takeDue due.id) x = .error v) :
    Exempt N Datagram.Holdable size v ∨ OthersViolate act v := by
  obtain ⟨fd, hrunning, _, hcalled⟩ := h.called hdue
  unfold invokeLogged at hstop
  rw [hrunning] at hstop
  rcases Checked.bind_eq_error_iff.mp hstop with hanswer | ⟨_, _, hdone⟩
  · change runCallback act due.callback due.events (r.takeDue due.id)
      (x.record [.called fd due.events due.callback]) = .error v at hanswer
    generalize due.callback = callback at hcalled hanswer
    cases callback with
    | inr d => exact .inr (hcalled.notifyOthers_error hanswer)
    | inl s =>
      unfold runCallback callBridge at hanswer
      dsimp only at hanswer
      split at hanswer
      · cases hanswer
      rename_i b hb
      rcases Checked.bind_eq_error_iff.mp hanswer with hact | ⟨⟨ending, b', host⟩, hact, hlater⟩
      · have hregisteredFor := hcalled.registered.registeredFor b hb
        exact .inl (onActivity_error links_dependable hregisteredFor.proper hregisteredFor.fit hact)
      · cases ending with
        | none => cases hlater
        | some graceful =>
          have hacted := hcalled.acted hb (newCalls b b' .left) (newCalls b b' .right) hact
          have hshutdown := hacted.entered (q := [.shutdown graceful]) rfl rfl
          rcases Checked.bind_eq_error_iff.mp hlater with htold | ⟨_, _, hdone⟩
          · exact .inr (hshutdown.notifyOthers_error htold)
          · cases hdone
  · cases hdone

theorem permitted_attached {s : Side} {o : Outlook (Logged Relay.Link)} {l l' : Logged Relay.Link}
    {w w' : Host N (Side ⊕ D)} (hw : w.reactor.Resting)
    (hpermitted : w.reactor.Permitted (mayRegister fds true) none) (hfd : (o.base l).fd = fds s)
    (ha : Pipe.attach (.inl s) (o.base l) w = .ok (.ok (), o.base l', w')) :
    ((o.base l').fd = fds s ∧ (o.base l').attached = true) ∧
      w'.reactor.Resting ∧ w'.reactor.Permitted (mayRegister fds true) none := by
  have henrolled := Tcp.enrolled ha
  generalize o.base l' = tcp at henrolled
  generalize hresult : (Except.ok () : Except Failure Unit) = result at henrolled
  cases henrolled with
  | refused => cases hresult
  | @done r hnew hadd =>
    have hperform : (Request.add (o.base l).fd (Tcp.wanted (o.base l).bits) (.inl s)).perform
        w.reactor = .ok r := Checked.map_eq_ok_iff.mpr ⟨_, hadd, rfl⟩
    have hperformed := Reactor.performed hperform
    refine ⟨⟨hfd, rfl⟩, Reactor.resting_performed hw hperformed, ?_⟩
    refine Reactor.permitted_performed hw.sound.wf ?_ hpermitted hperformed
    intro fd interest callback heq
    cases heq
    exact ⟨rfl, hfd⟩

end DuplexRelay.Bridge
