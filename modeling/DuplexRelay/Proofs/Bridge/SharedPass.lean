import DuplexRelay.Proofs.Bridge.SharedReactor

/-! A bridge and the reactor that it is registered with, while a pass is under way: what others ask
for leaves it where it is, and when it is given up nothing of it is left. -/

namespace DuplexRelay

open Relay (Link)

section Release

variable {N C : Type} [Sockets N]

theorem Stacked.release_eq (layers : List Layer) (p : Stacked Tcp layers) (w : Host N C) :
    (Stacked.pipe layers).release p w = (Stacked.base layers p).shut w := by
  induction layers with
  | nil => rfl
  | cons layer rest ih =>
    cases layer with
    | atomic => exact ih _
    | datagram => exact ih _

namespace Bridge

theorem release_eq (b : Bridge (Logged Link)) (w : Host N C) :
    b.release w = (b.side .right).pipe.pipe.base.shut ((b.side .left).pipe.pipe.base.shut w) := by
  change (Stacked.pipe _).release _ ((Stacked.pipe _).release _ w) = _
  rw [Stacked.release_eq, Stacked.release_eq]
  rfl

theorem asked_shut (p : Tcp) (w : Host N C) :
    w.reactor.Asked (fun _ => True) (p.shut w).reactor := by
  unfold Tcp.shut
  dsimp only
  split
  · exact .single (q := .del p.fd) trivial rfl
  · exact .refl _ _

theorem asked_release (b : Bridge (Logged Link)) (w : Host N C) :
    w.reactor.Asked (fun _ => True) (b.release w).reactor := by
  rw [release_eq]
  exact (asked_shut _ w).trans (asked_shut _ _)

end Bridge

end Release

namespace Bridge

variable {N C : Type} {fds : Side → Fd} {size : Nat} {b b' : Bridge (Logged Link)}
  {r r' : Reactor C}

/-- A bridge that is registered for two descriptors, in order, and fit to go on as long as it
lives. -/
structure RegisteredFor (fds : Side → Fd) (size : Nat) (b : Bridge (Logged Link)) (r : Reactor C) :
    Prop where
  proper : b.Proper size
  fit : b.dead = false →
    b.Fit (Stack.linkOutlook.erased Logged.pipe) (fun fd => ∃ s, fd = fds s) r
  fd : ∀ s, (b.side s).pipe.pipe.base.fd = fds s
  attached : ∀ s, (b.side s).pipe.pipe.base.attached = true

theorem RegisteredFor.knowing (h : RegisteredFor fds size b r)
    (hr : ∀ s, r.Knows (fds s) → r'.Knows (fds s)) :
    RegisteredFor fds size b r' := by
  refine ⟨h.proper, fun hd s => ?_, h.fd, h.attached⟩
  refine { h.fit hd s with listed := fun hattached => ?_ }
  have hknown := (h.fit hd s).listed hattached
  change r.Knows (b.side s).pipe.pipe.base.fd at hknown
  change r'.Knows (b.side s).pipe.pipe.base.fd
  rw [h.fd] at hknown ⊢
  exact hr s hknown

theorem RegisteredFor.released [Sockets N] (h : RegisteredFor fds size b r) (net : N) :
    (b.release ({ net, reactor := r } : Host N C)).reactor =
      (r.del (fds .left)).del (fds .right) := by
  rw [release_eq]
  unfold Tcp.shut
  dsimp only
  rw [if_pos (h.attached .left), if_pos (h.attached .right), h.fd, h.fd]

section Activities

variable [Sockets N] {s : Side} {events : SocketEvents} {ending : Option Bool} {w w' : Host N C}

theorem onlyAdjustsOne_of_onActivity (hact : b.onActivity s events w = .ok (ending, b', w')) :
    w.reactor.Asked Request.OnlyAdjustsOne w'.reactor := by
  have hbelow : Pipe.Below (W := Host N C) (fun l : Logged Link => l.pipe.base) Tcp.Advanced :=
    Logged.erases.below Tcp.links_advanced
  have hrelation : WorldRelation (Logged Link) fun w w' : Host N C =>
      w.reactor.Asked Request.OnlyAdjustsOne w'.reactor := by
    have hall : ∀ {p p' : Tcp} {w w' : Host N C}, Tcp.Advanced p w p' w' →
        w.reactor.Asked Request.OnlyAdjustsOne w'.reactor :=
      fun h => h.asked.mono fun _ hq => ⟨_, hq⟩
    exact ⟨fun w => .refl _ _, fun h h' => h.trans h',
      ⟨fun hr => hall (hbelow.recv hr), fun hs => hall (hbelow.send hs),
        fun hc => hall (hbelow.sendFin hc), fun hr => hall (hbelow.react hr),
        fun p w => hall (hbelow.reschedule p w)⟩⟩
  exact hrelation.acted (Bridge.acted hact)

variable [LawfulSockets N]

theorem links_dependable : Pipe.Dependable (N := N) (C := C)
    (Stack.linkOutlook.erased (Logged.pipe : Logged Link → Link)) Datagram.Holdable :=
  Stack.link_dependable.erased Logged.erases

theorem RegisteredFor.acted (h : RegisteredFor fds size b w.reactor)
    (hact : b.onActivity s events w = .ok (ending, b', w')) :
    RegisteredFor fds size b' w'.reactor := by
  obtain ⟨hproper, hfit⟩ := proper_acted links_dependable h.proper h.fit (Bridge.acted hact)
  have hpipes : PipeRelation (Host N C) fun p p' : Logged Link =>
      p'.pipe.base.fd = p.pipe.base.fd ∧ p'.pipe.base.attached = p.pipe.base.attached := by
    have hbelow := (links_dependable (N := N) (C := C)).below
    refine ⟨fun p => ⟨rfl, rfl⟩, fun h h' => ⟨h'.1.trans h.1, h'.2.trans h.2⟩, ?_⟩
    exact ⟨fun hr => ⟨(hbelow.recv hr).fd, (hbelow.recv hr).attached⟩,
      fun hs => ⟨(hbelow.send hs).fd, (hbelow.send hs).attached⟩,
      fun hc => ⟨(hbelow.sendFin hc).fd, (hbelow.sendFin hc).attached⟩,
      fun hr => ⟨(hbelow.react hr).fd, (hbelow.react hr).attached⟩,
      fun p w => ⟨rfl, rfl⟩⟩
  refine ⟨hproper, hfit, fun d => ?_, fun d => ?_⟩
  · exact (hpipes.acted hact d).1.trans (h.fd d)
  · exact (hpipes.acted hact d).2.trans (h.attached d)

end Activities

section Passes

variable {N O D : Type} {act : Others N O D} {fds : Side → Fd} {size : Nat}
  {notices : List (Reactor.Notice (Side ⊕ D))} {past p : PassLog D} {i : Option Handle}
  {running : Option (Side ⊕ D)} {r r' : Reactor (Side ⊕ D)} {x x' : SharedWorld N O D}
  {b b' : Bridge (Logged Link)}

/-- Where callbacks may be registered. Those of the bridge are registered for its descriptors, as
long as it is there. -/
def mayRegister (fds : Side → Fd) (present : Bool) : Side ⊕ D → Fd → Prop
  | .inl s, fd => present = true ∧ fd = fds s
  | .inr _, _ => True

/-- The bridge is registered if it is there, and nothing of it is left if it is not. -/
structure RegisteredIfPresent (fds : Side → Fd) (size : Nat) (running : Option (Side ⊕ D))
    (r : Reactor (Side ⊕ D)) (x : SharedWorld N O D) : Prop where
  permitted : r.Permitted (mayRegister fds x.bridge.isSome) running
  registeredFor : ∀ b, x.bridge = some b → RegisteredFor fds size b r

/-- Others leave the registrations of the bridge alone as long as it is there. -/
def SparesBridge (fds : Side → Fd) (act : Others N O D) : Prop :=
  ∀ note r x, x.bridge.isSome = true → ∀ q ∈ (act note r x).1, ∀ s, q.Spares (fds s)

/-- A pass is under way, and this is what happened in it. -/
structure DuringPass (fds : Side → Fd) (size : Nat) (notices : List (Reactor.Notice (Side ⊕ D)))
    (past : PassLog D) (i : Option Handle) (running : Option (Side ⊕ D)) (p : PassLog D)
    (r : Reactor (Side ⊕ D)) (x : SharedWorld N O D) : Prop where
  sound : r.Sound i
  busy : r.Busy
  log : x.log = past ++ p
  account : NoticeAccount fds notices p r
  registered : RegisteredIfPresent fds size running r x

theorem notifiedOthers {note : Notification D} (h : notifyOthers act note r x = .ok (r', x')) :
    ∃ net others, Request.performAll ((act note r x).1.map (Request.map .inr)) r = .ok r' ∧
      x' = { x with net, others, log := x.log ++ (act note r x).1.map .asked } := by
  obtain ⟨r₁, hperform, heq⟩ := Checked.bind_eq_ok_iff.mp h
  cases heq
  exact ⟨_, _, hperform, rfl⟩

theorem RegisteredIfPresent.of_bridge (h : RegisteredIfPresent fds size running r x)
    (hx : x'.bridge = x.bridge) : RegisteredIfPresent fds size running r x' := by
  constructor
  · rw [hx]
    exact h.permitted
  · rw [hx]
    exact h.registeredFor

theorem RegisteredIfPresent.stillKnows {running' : Option (Side ⊕ D)}
    (h : RegisteredIfPresent fds size running r x)
    (hr : r.StillKnows r') (hpermitted : r'.Permitted (mayRegister fds x.bridge.isSome) running') :
    RegisteredIfPresent fds size running' r' x :=
  ⟨hpermitted, fun b hb => (h.registeredFor b hb).knowing fun s => hr (fds s)⟩

theorem RegisteredIfPresent.asked (h : RegisteredIfPresent fds size running r x)
    (hr : r.registrations.WellFormed)
    {qs : List (Request D)} (hqs : x.bridge.isSome = true → ∀ q ∈ qs, ∀ s, q.Spares (fds s))
    (hperform : Request.performAll (qs.map (Request.map .inr)) r = .ok r') :
    RegisteredIfPresent fds size running r' x := by
  have hasked : r.Asked (· ∈ qs.map (Request.map .inr)) r' := ⟨_, fun _ => id, hperform⟩
  refine ⟨hasked.permitted hr ?_ h.permitted,
    fun b hb => (h.registeredFor b hb).knowing fun s hknown => ?_⟩
  · intro fd interest callback hmem
    obtain ⟨q, _, heq⟩ := List.mem_map.mp hmem
    cases q with
    | add =>
      cases heq
      trivial
    | modify | del | reschedule | discard => cases heq
  · refine hknown.asked hr (fun q hq => ?_) hasked
    obtain ⟨q₀, hq₀, rfl⟩ := List.mem_map.mp hq
    exact Request.spares_map (hqs (by rw [hb]; rfl) q₀ hq₀ s)

theorem RegisteredIfPresent.snapshot (h : RegisteredIfPresent fds size none r x) (hr : r.Resting)
    (hidle : r.phase = .idle) (ready : Fd → SocketEvents) :
    RegisteredIfPresent fds size none (r.snapshot ready) x := by
  refine h.stillKnows (fun fd hs => ?_) (Reactor.permitted_begun ready h.permitted)
  have hknown := Reactor.stillKnows_begun hr.sound.wf hidle ready fd hs
  exact hknown.imp (fun hphase => absurd hphase (by simp [Reactor.begun])) id

theorem RegisteredIfPresent.begun (h : RegisteredIfPresent fds size none r x) (hr : r.Resting)
    (hidle : r.phase = .idle) (ready : Fd → SocketEvents) :
    DuringPass fds size (r.notices ready) x.log none none [] (r.snapshot ready).begun x := by
  have hwf := hr.sound.wf
  refine ⟨Reactor.sound_begun hr.sound, .inl rfl, (List.append_nil _).symm, ?_, ?_⟩
  · refine ⟨Reactor.notices_ascend hwf ready, ?_, nofun, .nil, nofun⟩
    have hleft : (r.snapshot ready).begun.undelivered = r.notices ready :=
      Reactor.undelivered_snapshot hwf ready
    rw [hleft]
    simp [PassLog.spent]
  · exact h.stillKnows (Reactor.stillKnows_begun hwf hidle ready)
      (Reactor.permitted_begun ready h.permitted)

theorem RegisteredIfPresent.endPass (h : RegisteredIfPresent fds size none r x) (hr : r.Sound none)
    (hb : r.Busy) : RegisteredIfPresent fds size none r.endPass x :=
  h.stillKnows (Reactor.stillKnows_endPass hb) (Reactor.permitted_endPass hr.wf h.permitted)

namespace DuringPass

theorem log_append (h : DuringPass fds size notices past i running p r x) (q : PassLog D) :
    x.log ++ q = past ++ (p ++ q) := by
  rw [h.log, List.append_assoc]

theorem notifiedOthers (h : DuringPass fds size notices past i running p r x)
    (hothers : SparesBridge fds act) {note : Notification D}
    (hnotify : notifyOthers act note r x = .ok (r', x')) :
    DuringPass fds size notices past i running (p ++ (act note r x).1.map .asked) r' x' ∧
      x'.bridge = x.bridge := by
  obtain ⟨net, others, hperform, rfl⟩ := Bridge.notifiedOthers hnotify
  obtain ⟨hsound, hbusy, _⟩ := Reactor.performedAll h.sound h.busy hperform
  have hregistered := h.registered.asked h.sound.wf (hothers note r x) hperform
  exact ⟨⟨hsound, hbusy, h.log_append _, h.account.asked h.sound h.busy hperform,
    hregistered.of_bridge rfl⟩, rfl⟩

theorem entered (h : DuringPass fds size notices past i running p r x) {q : PassLog D}
    (hcalls : q.calls = []) (hspent : q.spent fds = []) :
    DuringPass fds size notices past i running (p ++ q) r (x.record q) where
  sound := h.sound
  busy := h.busy
  log := h.log_append q
  account := h.account.aside hcalls hspent
  registered := h.registered.of_bridge rfl

theorem putBack {id : Handle} {callback : Side ⊕ D}
    (h : DuringPass fds size notices past (some id) (some callback) p r x) :
    DuringPass fds size notices past none none p (r.putBack id callback) x where
  sound := Reactor.sound_putBack h.sound callback
  busy := h.busy
  log := h.log
  account := h.account.putBack h.sound callback
  registered :=
    h.registered.stillKnows (Reactor.stillKnows_update _ _ r)
      (Reactor.permitted_putBack h.registered.permitted)

theorem untouched (h : DuringPass fds size notices past i running p r x) :
    DuringPass fds size notices past i running p r.untouched x := by
  obtain ⟨hsound, hbusy, hlog, haccount, hregistered⟩ := h
  refine ⟨⟨hsound.wf, hsound.resting⟩, hbusy, hlog, ?_,
    hregistered.stillKnows ?_ hregistered.permitted⟩
  · exact ⟨haccount.ascend, haccount.left, haccount.due, haccount.once, haccount.stopped⟩
  · exact fun fd hknown => hknown

theorem called (h : DuringPass fds size notices past none none p r x)
    {due : Reactor.Due (Side ⊕ D)} (hdue : r.nextDue? none = some due) :
    ∃ fd, (r.takeDue due.id).running? = some fd ∧ mayRegister fds x.bridge.isSome due.callback fd ∧
      DuringPass fds size notices past (some due.id) (some due.callback)
        (p ++ [.called fd due.events due.callback]) (r.takeDue due.id)
        (x.record [.called fd due.events due.callback]) := by
  obtain ⟨fd, hrunning, hfirst⟩ := Reactor.running?_takeDue h.sound hdue
  refine ⟨fd, hrunning, ?_, Reactor.sound_takeDue h.sound due.id, h.busy, h.log_append _,
    h.account.called hfirst, ?_⟩
  · refine h.registered.permitted.undelivered (n := ⟨fd, due.events, due.callback⟩) ?_
    rw [hfirst]
    exact List.mem_cons_self
  · have hpermitted := Reactor.permitted_takeDue h.sound hdue h.registered.permitted
    exact (h.registered.stillKnows (Reactor.stillKnows_update _ _ r) hpermitted).of_bridge rfl

variable [Sockets N]

theorem acted [LawfulSockets N] (h : DuringPass fds size notices past i running p r x)
    (hb : x.bridge = some b) {s : Side} {events : SocketEvents} {ending : Option Bool}
    {w' : Host N (Side ⊕ D)} (left right : List PipeCall)
    (hact : b.onActivity s events { net := x.net, reactor := r } = .ok (ending, b', w')) :
    DuringPass fds size notices past i running (p ++ [.acted left right]) w'.reactor
      { x with net := w'.net, bridge := some b', log := x.log ++ [.acted left right] } := by
  have hasked := onlyAdjustsOne_of_onActivity hact
  have hregisteredFor := (h.registered.registeredFor b hb).acted hact
  refine ⟨?_, ?_, h.log_append _, ?_, ?_, ?_⟩
  · exact hasked.keeps h.sound fun _ hr hperformed => Reactor.sound_performed hr hperformed
  · exact hasked.keeps h.busy fun _ hr hperformed => Reactor.busy_performed hr hperformed
  · exact (h.account.adjusted h.sound h.busy hasked).aside rfl rfl
  · have hpermitted := h.registered.permitted
    rw [hb] at hpermitted
    refine hasked.permitted h.sound.wf ?_ hpermitted
    rintro fd interest callback ⟨d, hd⟩
    exact absurd hd id
  · intro b₁ hb₁
    cases hb₁
    exact hregisteredFor

theorem released (h : DuringPass fds size notices past i running p r x) (hb : x.bridge = some b)
    {w' : Host N (Side ⊕ D)}
    (hw : b.release ({ net := x.net, reactor := r } : Host N (Side ⊕ D)) = w') :
    DuringPass fds size notices past i running (p ++ [.released]) w'.reactor
        { x with net := w'.net, bridge := none, log := x.log ++ [.released] } ∧
      ∀ s, w'.reactor.isRegistered (fds s) = false := by
  have hreactor : w'.reactor = (r.del (fds .left)).del (fds .right) := by
    rw [← hw]
    exact (h.registered.registeredFor b hb).released x.net
  have hleft : Request.performAll [.del (fds .left)] r = .ok (r.del (fds .left)) := rfl
  have hboth : Request.performAll [.del (fds .left), .del (fds .right)] r = .ok w'.reactor := by
    rw [hreactor]
    rfl
  obtain ⟨hsound₁, hbusy₁, _⟩ := Reactor.performedAll h.sound h.busy hleft
  obtain ⟨hsound, hbusy, hundelivered⟩ := Reactor.performedAll h.sound h.busy hboth
  have hasked : r.Asked (· ∈ [.del (fds .left), .del (fds .right)]) w'.reactor :=
    ⟨_, fun _ => id, hboth⟩
  have hlog := h.log_append [.released]
  refine ⟨⟨hsound, hbusy, hlog, h.account.more rfl hundelivered fun hp => ?_, ?_, ?_⟩, fun s => ?_⟩
  · rcases hasked.phase_or with hsame | hdiscard
    · exact .inl (hsame.symm.trans hp)
    · simp at hdiscard
  · rw [hreactor]
    have hfirst := Reactor.permitted_del h.sound.wf (fds .left) h.registered.permitted
    have hsecond := Reactor.permitted_del hsound₁.wf (fds .right) hfirst
    refine hsecond.mono fun callback fd ⟨⟨hmay, hneLeft⟩, hneRight⟩ => ?_
    cases callback with
    | inr d => trivial
    | inl s =>
      obtain ⟨_, rfl⟩ := hmay
      cases s with
      | left => exact absurd rfl hneLeft
      | right => exact absurd rfl hneRight
  · intro b₁ hb₁
    cases hb₁
  · rw [hreactor, Reactor.isRegistered_del hsound₁ hbusy₁]
    cases s with
    | left =>
      rw [Reactor.isRegistered_del h.sound h.busy]
      simp
    | right => simp

end DuringPass

end Passes

end Bridge

end DuplexRelay
