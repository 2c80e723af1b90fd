import DuplexRelay.Proofs.Bridge.Joining
import DuplexRelay.Proofs.Bridge.Relations

/-! A bridge that shares a reactor with others, whose callbacks do what they like as long as they
leave its registrations alone. What holds between two passes is that each side waits for whatever it
does not know and that a direction in which something can be relayed at once is told again. Requests
of others, a poll and a registration that is put back keep this. -/

namespace DuplexRelay

namespace Bridge

open Relay (Link)

def IsNew (p : Link) : Prop :=
  ∃ (fd : Fd) (framed : Bool) (maxSize : Nat),
    Relay.link (.connecting fd) framed maxSize = .ok p ∨
      Relay.link (.connected fd) framed maxSize = .ok p

theorem idle_of_isNew {p : Link} (h : IsNew p) : Stack.outlook.Idle p := by
  obtain ⟨fd, framed, maxSize, h | h⟩ := h
  · exact Relay.idle_link (Tcp.idle_connecting fd) h
  · exact Relay.idle_link (Tcp.idle_connected fd) h

/-- A bridge, once there is one, with the sockets and all that others know. -/
structure Scene (N O : Type) where
  net : N
  bridge : Option (Bridge Link) := none
  others : O

/-- The request leaves the registrations of the bridge alone. -/
def SparesRegistrations {N O C : Type} (sc : Scene N O) (q : Request C) : Prop :=
  ∀ b, sc.bridge = some b → ∀ s : Side, q.Spares (b.side s).pipe.base.fd

section Scenes

variable {N O D : Type} [Sockets N]

/-- What others do: they make requests to the reactor, change whatever is not the bridge's, and may
set up the bridge. -/
inductive OthersStep : Reactor (Side ⊕ D) → Scene N O → Reactor (Side ⊕ D) → Scene N O → Prop
  | refl (r : Reactor (Side ⊕ D)) (sc : Scene N O) : OthersStep r sc r sc
  | asked {r r₁ r' : Reactor (Side ⊕ D)} {sc sc' : Scene N O} {q : Request (Side ⊕ D)}
      (hq : SparesRegistrations sc q) (h : q.perform r = .ok r₁) (rest : OthersStep r₁ sc r' sc') :
      OthersStep r sc r' sc'
  | elsewhere {r r' : Reactor (Side ⊕ D)} {sc sc' : Scene N O} (net : N) (others : O)
      (rest : OthersStep r { sc with net, others } r' sc') : OthersStep r sc r' sc'
  | joined {r r' : Reactor (Side ⊕ D)} {sc sc' : Scene N O} {left right : Link}
      {config : BridgeConfig} {b b' : Bridge Link} {host : Host N (Side ⊕ D)}
      (hnone : sc.bridge = none) (hl : IsNew left) (hr : IsNew right)
      (hb : between left right config = .ok (.ok b))
      (ha : b.attach Sum.inl { net := sc.net, reactor := r } = .ok (.ok (), b', host))
      (rest : OthersStep host.reactor { sc with net := host.net, bridge := some b' } r' sc') :
      OthersStep r sc r' sc'

def invoke (foreign : D → SocketEvents → Reactor (Side ⊕ D) → Scene N O →
      Checked (Reactor (Side ⊕ D) × Scene N O)) :
    Side ⊕ D → SocketEvents → Reactor (Side ⊕ D) → Scene N O →
      Checked (Reactor (Side ⊕ D) × Scene N O)
  | .inl s, events, r, sc =>
    match sc.bridge with
    | none => .ok (r, sc)
    | some b => do
      let (_, b, host) ← b.onActivity s events ({ net := sc.net, reactor := r } : Host N _)
      return (host.reactor, { sc with net := host.net, bridge := some b })
  | .inr d, events, r, sc => foreign d events r sc

def OthersOnly (foreign : D → SocketEvents → Reactor (Side ⊕ D) → Scene N O →
    Checked (Reactor (Side ⊕ D) × Scene N O)) : Prop :=
  ∀ {d events r sc r' sc'}, foreign d events r sc = .ok (r', sc') → OthersStep r sc r' sc'

/-- The states between passes that come about in the presence of some other callbacks. -/
inductive ReachedWith (foreign : D → SocketEvents → Reactor (Side ⊕ D) → Scene N O →
    Checked (Reactor (Side ⊕ D) × Scene N O)) : Reactor (Side ⊕ D) → Scene N O → Prop
  | start {sc : Scene N O} (hnone : sc.bridge = none) : ReachedWith foreign {} sc
  | around {r r' : Reactor (Side ⊕ D)} {sc sc' : Scene N O} (h : ReachedWith foreign r sc)
      (ha : OthersStep r sc r' sc') : ReachedWith foreign r' sc'
  | passed {r r' : Reactor (Side ⊕ D)} {sc sc' : Scene N O} {result : Except Failure Nat}
      (poll : List Fd → Except OsError (Fd → SocketEvents)) (h : ReachedWith foreign r sc)
      (hm : r.monitor poll (invoke foreign) sc = .ok (result, r', sc')) : ReachedWith foreign r' sc'

/-- What keeps one direction of a bridge going. -/
structure Armed {C : Type} (b : Bridge Link) (r : Reactor C) (src : Side) : Prop where
  /-- what can be relayed at once is told again in any case -/
  forced : (state (b.side src).pipe).isReadable = true →
    (state (b.side src.peer).pipe).isWritable = true →
      ∃ reg, r.registration? (b.side src).pipe.base.fd = some reg ∧ reg.forced.readable = true
  /-- nothing can be received because the stream ended, or readability is waited for, or else the
  connection, which becomes writable once it is made -/
  incoming : (state (b.side src).pipe).isReadable = false →
    (state (b.side src).pipe).finRcvd = true ∨ ∃ interest,
      r.interest? (b.side src).pipe.base.fd = some interest ∧
        (interest.readable = true ∨
          (state (b.side src).pipe).ready = false ∧ interest.writable = true)
  /-- nothing is taken because the way out was closed, or writability is waited for -/
  outgoing : (state (b.side src.peer).pipe).isWritable = false →
    (state (b.side src.peer).pipe).finSent = true ∨ ∃ interest,
      r.interest? (b.side src.peer).pipe.base.fd = some interest ∧ interest.writable = true
  /-- what the bridge or a layer of the pipe holds back waits for writability -/
  held : (b.side src.peer).pending ≠ none ∨ Stack.outlook.holding (b.side src.peer).pipe →
    ∃ interest, r.interest? (b.side src.peer).pipe.base.fd = some interest ∧
      interest.writable = true

/-- Each registration of a bridge calls the bridge for its side. -/
def RegisteredToSides (b : Bridge Link) (r : Reactor (Side ⊕ D)) : Prop :=
  ∀ s, ∃ reg, r.registration? (b.fdOf Stack.outlook s) = some reg ∧
    reg.callback = some (.inl s)

/-- A live bridge waits for nothing in vain, and its registrations call it. Between passes they have
nothing left to be told. -/
def SceneUnstalled (r : Reactor (Side ⊕ D)) (sc : Scene N O) : Prop :=
  ∀ b, sc.bridge = some b → b.dead = false → r.phase ≠ .disposed →
    Unstalled Stack.outlook b r ∧ RegisteredToSides b r ∧
      (r.phase = .idle → ∀ s reg, r.registration? (b.fdOf Stack.outlook s) = some reg →
        reg.pending = .none)

omit [Sockets N] in
theorem fdOf_eq (b : Bridge Link) (s : Side) :
    b.fdOf Stack.outlook s = (b.side s).pipe.base.fd :=
  congrArg Tcp.fd (Stack.outlook_base _)

/-- Changes of the reactor after which the registrations of a bridge wait for the same, and are told
of readability if they were to be. -/
theorem Unstalled.carried {C : Type} {b : Bridge Link} {r r' : Reactor C}
    (h : Unstalled Stack.outlook b r) (hwf : r'.registrations.WellFormed)
    (hp : r'.phase ≠ .disposed)
    (hc : ∀ s reg, r.registration? (b.fdOf Stack.outlook s) = some reg →
      ∃ reg', r'.registration? (b.fdOf Stack.outlook s) = some reg' ∧
        reg'.interest = reg.interest ∧
        (reg.forced.readable = true ∨ reg.pending.readable = true →
          reg'.forced.readable = true ∨ reg'.pending.readable = true)) :
    Unstalled Stack.outlook b r' := by
  refine ⟨⟨hwf, hp, h.atWork.apart, h.atWork.regular, ?_, h.atWork.unclosed⟩, h.full, ?_⟩
  · intro s
    have hold := h.atWork.waiting s
    refine ⟨hold.attached, hold.interest, ?_⟩
    obtain ⟨reg, hreg, hinterest⟩ := Option.map_eq_some_iff.mp hold.registered
    obtain ⟨reg', hreg', hsame, _⟩ := hc s reg hreg
    exact Option.map_eq_some_iff.mpr ⟨reg', hreg', hsame.trans hinterest⟩
  · intro src hh
    obtain ⟨reg, hreg, htell⟩ := h.willBeTold src hh
    obtain ⟨reg', hreg', _, hstill⟩ := hc src reg hreg
    exact ⟨reg', hreg', hstill htell⟩

omit [Sockets N] in
theorem sceneUnstalled_asked {r r' : Reactor (Side ⊕ D)} {sc : Scene N O} {q : Request (Side ⊕ D)}
    (hwf : r.registrations.WellFormed) (h : SceneUnstalled r sc) (hq : SparesRegistrations sc q)
    (hperform : q.perform r = .ok r') : SceneUnstalled r' sc := by
  intro b hb hd hp
  have hperformed := Reactor.performed hperform
  have hold : r.phase ≠ .disposed := fun hdisposed =>
    hp (Reactor.disposed_performed hdisposed hperformed)
  obtain ⟨hw, howned, hidle⟩ := h b hb hd hold
  have hu : ∀ s, r.Undisturbed (b.fdOf Stack.outlook s) r' := by
    intro s
    have hspares : q.Spares (b.fdOf Stack.outlook s) := by
      rw [fdOf_eq]
      exact hq b hb s
    rcases Reactor.undisturbed_performed hwf hspares hperformed with hdisposed | hu
    · exact absurd hdisposed hp
    · exact hu
  refine ⟨hw.carried (Reactor.wellFormed_performed hwf hperformed) hp ?_, ?_, ?_⟩
  · intro s reg hreg
    obtain ⟨reg', hreg', hkept, hinterest⟩ := hu s reg hreg
    refine ⟨reg', hreg', hinterest, ?_⟩
    rw [hkept.pending]
    exact Or.imp_left hkept.forced
  · intro s
    obtain ⟨reg, hreg, hcallback⟩ := howned s
    obtain ⟨reg', hreg', hkept, _⟩ := hu s reg hreg
    exact ⟨reg', hreg', hkept.callback.trans hcallback⟩
  · intro hphase s reg' hreg'
    obtain ⟨reg, hreg, _⟩ := howned s
    obtain ⟨reg₁, hreg₁, hkept, _⟩ := hu s reg hreg
    rw [hreg'] at hreg₁
    cases hreg₁
    have hrested : r.phase = .idle := by
      rcases Reactor.phase_performed hperformed with hsame | ⟨rfl, _⟩
      · exact hsame.symm.trans hphase
      · cases hperformed with
        | disposed => cases hphase
        | deferred => cases hphase
    exact hkept.pending.trans (hidle hrested s reg hreg)

theorem sceneUnstalled_othersStep {r r' : Reactor (Side ⊕ D)} {sc sc' : Scene N O}
    (ha : OthersStep r sc r' sc') (hwf : r.registrations.WellFormed) (h : SceneUnstalled r sc) :
    SceneUnstalled r' sc' := by
  induction ha with
  | refl => exact h
  | asked hq hperform _ ih =>
    exact ih (Reactor.wellFormed_performed hwf (Reactor.performed hperform))
      (sceneUnstalled_asked hwf h hq hperform)
  | elsewhere net others _ ih => exact ih hwf h
  | joined hnone hl hr hb hattach _ ih =>
    have hunused := Relay.unused_between (idle_of_isNew hl) (idle_of_isNew hr) hb
    obtain ⟨hw, hd, howned⟩ := unstalled_attached Stack.outlook_lawful hunused hwf
      (attached hattach)
    refine ih hw.atWork.wf ?_
    intro b heq _ _
    cases heq
    refine ⟨hw, ?_, ?_⟩
    · intro s
      obtain ⟨reg, hreg, hcallback, _⟩ := howned s
      exact ⟨reg, hreg, hcallback⟩
    · intro _ s reg hreg
      obtain ⟨reg', hreg', _, hpending⟩ := howned s
      rw [hreg] at hreg'
      cases hreg'
      exact hpending

omit [Sockets N] in
theorem sceneUnstalled_same {r r' : Reactor (Side ⊕ D)} {sc : Scene N O}
    (hsame : r'.registrations = r.registrations) (hp : r.phase ≠ .disposed)
    (hidle : r'.phase = .idle → r.phase = .idle ∨ r.undelivered = []) (h : SceneUnstalled r sc) :
    SceneUnstalled r' sc := by
  have hreg : ∀ fd, r'.registration? fd = r.registration? fd := by
    intro fd
    unfold Reactor.registration?
    rw [hsame]
  intro b hb hd hp'
  obtain ⟨hw, howned, htold⟩ := h b hb hd hp
  refine ⟨hw.carried ?_ hp' ?_, ?_, ?_⟩
  · rw [hsame]
    exact hw.atWork.wf
  · intro s reg hr
    exact ⟨reg, (hreg _).trans hr, rfl, id⟩
  · intro s
    obtain ⟨reg, hr, hcallback⟩ := howned s
    exact ⟨reg, (hreg _).trans hr, hcallback⟩
  · intro hphase s reg hr
    rw [hreg] at hr
    rcases hidle hphase with hrested | hnone
    · exact htold hrested s reg hr
    · obtain ⟨reg', hr', hcallback⟩ := howned s
      rw [hr] at hr'
      cases hr'
      exact Reactor.pending_of_delivered hw.atWork.wf hnone hr (by simp [hcallback])

omit [Sockets N] in
theorem sceneUnstalled_snapshot {r : Reactor (Side ⊕ D)} {sc : Scene N O}
    (ready : Fd → SocketEvents) (hp : r.phase = .idle) (h : SceneUnstalled r sc) :
    SceneUnstalled (r.snapshot ready).begun sc := by
  intro b hb hd _
  obtain ⟨hw, howned, htold⟩ := h b hb hd (by simp [hp])
  have hreg : ∀ {fd reg}, r.registration? fd = some reg →
      (r.snapshot ready).begun.registration? fd = some { reg with
        pending := Reactor.observed reg.interest (ready fd) ∪ reg.forced, forced := .none } :=
    fun hr => Reactor.registration?_snapshot hw.atWork.wf ready hr
  refine ⟨hw.carried ?_ ?_ ?_, ?_, ?_⟩
  · exact Reactor.wellFormed_snapshot hw.atWork.wf ready
  · simp [Reactor.begun]
  · intro s reg hr
    refine ⟨_, hreg hr, rfl, ?_⟩
    rw [htold hp s reg hr]
    rintro (hforced | hpending)
    · refine .inr ?_
      change ((Reactor.observed reg.interest (ready _)).readable || reg.forced.readable) = true
      rw [hforced, Bool.or_true]
    · cases hpending
  · intro s
    obtain ⟨reg, hr, hcallback⟩ := howned s
    exact ⟨_, hreg hr, hcallback⟩
  · intro hphase
    cases hphase

/-- Each registration of a bridge calls the bridge for its side, or does so again once the callback
that is running is put back. -/
def RegisteredOrRunning (running : Side ⊕ D) (b : Bridge Link) (r : Reactor (Side ⊕ D)) : Prop :=
  ∀ s, ∃ reg, r.registration? (b.fdOf Stack.outlook s) = some reg ∧
    reg.callback.or (some running) = some (.inl s)

theorem RegisteredToSides.registeredOrRunning {b : Bridge Link} {r : Reactor (Side ⊕ D)}
    (h : RegisteredToSides b r) (running : Side ⊕ D) : RegisteredOrRunning running b r := by
  intro s
  obtain ⟨reg, hreg, hcallback⟩ := h s
  exact ⟨reg, hreg, by rw [hcallback, Option.some_or]⟩

theorem sceneUnstalled_putBack {r : Reactor (Side ⊕ D)} {b : Bridge Link} {id : Handle}
    {running : Side ⊕ D} (hr : r.Sound (some id)) (hw : Unstalled Stack.outlook b r)
    (hlent : RegisteredOrRunning running b r) :
    Unstalled Stack.outlook b (r.putBack id running) ∧
    RegisteredToSides b (r.putBack id running) := by
  refine ⟨hw.carried (Reactor.sound_putBack hr running).wf hw.atWork.undisposed ?_, ?_⟩
  · intro s reg hreg
    rcases Reactor.registration?_putBack hr running hreg with hback | ⟨hback, _⟩
    · exact ⟨_, hback, rfl, fun htell => htell⟩
    · exact ⟨_, hback, rfl, fun htell => htell⟩
  · intro s
    obtain ⟨reg, hreg, hcallback⟩ := hlent s
    rcases Reactor.registration?_putBack hr running hreg with hback | ⟨hback, hsome⟩
    · exact ⟨_, hback, hcallback⟩
    · refine ⟨_, hback, ?_⟩
      obtain ⟨callback, hc⟩ := Option.ne_none_iff_exists'.mp hsome
      rw [hc, Option.some_or] at hcallback
      exact hc.trans hcallback

theorem worldRelation_asked {C : Type} : WorldRelation Link fun w w' : Host N C =>
    w.reactor.Asked (fun _ => True) w'.reactor where
  refl w := .refl _ _
  trans h h' := h.trans h'
  below := by
    have h := Tcp.links_advanced (N := N) (C := C)
    have hall : ∀ {p p' : Tcp} {w w' : Host N C}, Tcp.Advanced p w p' w' →
        w.reactor.Asked (fun _ => True) w'.reactor :=
      fun h => h.asked.mono fun _ _ => trivial
    exact ⟨fun hr => hall (h.recv hr), fun hs => hall (h.send hs), fun hc => hall (h.sendFin hc),
      fun hr => hall (h.react hr), fun p w => hall (h.reschedule p w)⟩

theorem asked_othersStep {r r' : Reactor (Side ⊕ D)} {sc sc' : Scene N O}
    (ha : OthersStep r sc r' sc') : r.Asked (fun _ => True) r' := by
  induction ha with
  | refl => exact .refl _ _
  | asked _ hperform _ ih => exact (Reactor.Asked.single trivial hperform).trans ih
  | elsewhere _ _ _ ih => exact ih
  | joined hnone hl hr hb hattach _ ih =>
    refine Reactor.Asked.trans ?_ ih
    cases attached hattach with
    | done _ hleft hright =>
      exact (asked_attach Stack.outlook_lawful hleft).trans
        (asked_attach Stack.outlook_lawful hright)

end Scenes

end Bridge

end DuplexRelay
