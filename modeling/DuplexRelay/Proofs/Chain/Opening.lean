import DuplexRelay.Proofs.Chain.RelayState
import DuplexRelay.Proofs.Relay.Settings

/-! A new relay is in order, if its settings are valid. -/

namespace DuplexRelay

/-- A framed connection has room for a whole datagram, and what comes in on the other one fits into
one. -/
theorem RelayConfig.sizes_fit {c : RelayConfig} (hm : c.mode ≠ .plain)
    (h : c.validate = .ok ()) : c.maxDatagramSize ≤ Varint.maxValue ∧
      c.maxDatagramSize ≤ c.framedAndUnframed.1 ∧ c.framedAndUnframed.2 ≤ c.maxDatagramSize :=
  (usable_of_validate h).2.2 hm

namespace Channel

/-- Nothing went through the connection yet. -/
structure New (c : Channel) : Prop where
  held : c.held = []
  rest : c.rest = []
  intact : c.violated = false
  unended : c.base.bits.finRcvd = false
  unclosed : ¬c.Closing

theorem New.records {c : Channel} (h : c.New) : RecordsAgree (.fresh c) {} := by
  have hsent : c.base.bits.finSent = false := by
    cases hs : c.base.bits.finSent with
    | false => rfl
    | true => exact absurd (.inl hs) h.unclosed
  refine ⟨h.held, fun _ => h.rest.symm, ?_, nofun, nofun, ⟨?_, hsent⟩, fun _ => h.held⟩
  · exact fun hv => absurd (h.intact.symm.trans hv) Bool.false_ne_true
  · exact fun hr => absurd (h.unended.symm.trans hr) Bool.false_ne_true

theorem exists_of_link {tcp : Tcp} {wrapped : Bool} {maxSize : Nat} {p : Relay.Link}
    (h : Relay.link tcp wrapped maxSize = .ok p) (hr : tcp.bits.finRcvd = false)
    (hs : tcp.bits.finSent = false) : ∃ c : Channel, c.link = p ∧ c.base = tcp ∧
      c.kind = (if wrapped then some maxSize else none) ∧ c.New := by
  unfold Relay.link at h
  cases wrapped with
  | false =>
    cases h
    refine ⟨plain tcp, rfl, rfl, rfl, rfl, rfl, rfl, hr, ?_⟩
    rintro (hc | hc)
    · exact absurd (hs.symm.trans hc) Bool.false_ne_true
    · cases hc
  | true =>
    simp only [Stack.datagram, Datagram.wrap, if_true] at h
    split at h
    · cases h
      refine ⟨framed { inner := { inner := tcp }, maxSize }, rfl, rfl, rfl, rfl, rfl, rfl, hr, ?_⟩
      rintro (hc | hc)
      · exact absurd (hs.symm.trans hc) Bool.false_ne_true
      · cases hc
    · simp at h

end Channel

namespace Bridge

open Channel

variable {C : Type} {l : Layout}

theorem liveInvariant_new {left right : Channel} {c : RelayConfig} (hl : left.New) (hr : right.New)
    (hfit : ∀ s, SideInvariant l s (.fresh (Side.choose left right s))
      (Side.choose c.bridge.leftRecvSize c.bridge.rightRecvSize s) .fresh) :
    LiveInvariant l
      { left := { pipe := .fresh left, recvSize := c.bridge.leftRecvSize }
        right := { pipe := .fresh right, recvSize := c.bridge.rightRecvSize }
        budget := c.bridge.maxRelayPerEvent } .fresh := by
  have hflawless : ∀ {s : Side} {c : Channel} {n : Nat}, c.New →
      SideIntact l s { pipe := .fresh c, recvSize := n } := by
    intro s c n h
    exact ⟨h.intact, fun _ => h.rest, nofun⟩
  refine ⟨rfl, exact_of_balanced rfl ?_ ?_, ?_, ?_, ?_⟩
  · intro d
    cases d <;> rfl
  · intro s
    cases s <;> exact ⟨rfl, rfl⟩
  · intro s
    cases s
    · exact hfit .left
    · exact hfit .right
  · intro s
    cases s
    · exact hflawless hl
    · exact hflawless hr
  · intro d hc
    cases d
    · exact absurd hc hl.unclosed
    · exact absurd hc hr.unclosed

theorem LiveInvariant.attached {callback : Side → C} {b b' : Bridge (Recorded Channel)}
    {w w' : Host Ports C} (h : LiveInvariant l b w.net)
    (ha : Attached callback b w (.ok ()) b' w') : LiveInvariant l b' w'.net := by
  have hexact := exact_of_attached ha h.alive h.exact
  have hregistered : ∀ {s : Side} {r : Recorded Channel} {v v' : Host Ports C}
      {result : Except Failure Unit}, v.net = w.net →
      Pipe.attach (callback s) (b.side s).pipe v = .ok (result, r, v') → v'.net = w.net ∧
        SideInvariant l s r (b.side s).recvSize w.net ∧ Same (b.side s).pipe.pipe r.pipe ∧
        (r.pipe.Closing ↔ (b.side s).pipe.pipe.Closing) := by
    intro s r v v' result hnet hattach
    have hrecords := (h.sides s).records
    rw [← (h.sides s).fd, ← hnet] at hrecords
    obtain ⟨hinvariant, hfd, hsame, hclosing, _, _, hb⟩ := recordsAgree_attach hrecords hattach
    have hnet' : v'.net = w.net := hinvariant.trans hnet
    rw [hnet'] at hb
    exact ⟨hnet', (h.sides s).replaced hsame.kind hfd hb, hsame, hclosing⟩
  cases ha with
  | @done _ left right w₁ _ hi hl hr =>
    obtain ⟨hnet, hfit, hsame, hclosing⟩ := hregistered rfl hl
    obtain ⟨hnet', hfit', hsame', hclosing'⟩ := hregistered hnet hr
    rw [hnet']
    refine liveInvariant_both (b := b.started) (s := .left) h.alive hfit hfit'
      ((h.sound .left).same hsame (h.sound .left).fits)
      ((h.sound .right).same hsame' (h.sound .right).fits) ?_ ?_ hexact
    · intro hc
      obtain ⟨hrcvd, hq⟩ := h.closing .left (hclosing.mp hc)
      exact ⟨hsame'.finRcvd.trans hrcvd, hq⟩
    · intro hc
      obtain ⟨hrcvd, hq⟩ := h.closing .right (hclosing'.mp hc)
      exact ⟨hsame.finRcvd.trans hrcvd, hq⟩

end Bridge

namespace RelayState

open Channel Bridge

/-- What a start consists of. -/
structure Started (c : RelayConfig) (accepted target : Fd) (left right : Relay.Link)
    (bridge : Bridge Relay.Link) (s : RelayState) : Prop where
  acceptedLink : Relay.link (.connected accepted) c.mode.framesAccepted c.maxDatagramSize = .ok left
  targetLink : Relay.link (.connecting target) c.mode.framesTarget c.maxDatagramSize = .ok right
  between : Bridge.between left right c.bridge = .ok (.ok bridge)
  attach : bridge.attach id ({ net := .fresh, reactor := {} } : Host Ports Side) =
    .ok (.ok (), s.world.bridge, { net := s.world.net, reactor := s.reactor })
  linkSide : s.linkSide = if c.mode.framesAccepted then .left else .right
  fd : s.fd = Side.choose accepted target
  released : s.released = false
  ending : s.world.ending = none

theorem started {c : RelayConfig} {accepted target : Fd} {s : RelayState}
    (h : start c accepted target = .ok (.ok s)) :
    ∃ left right bridge, Started c accepted target left right bridge s := by
  obtain ⟨⟨left, right⟩, hlinks, h⟩ := Checked.bind_eq_ok_iff.mp h
  obtain ⟨made, hbetween, h⟩ := Checked.bind_eq_ok_iff.mp h
  cases made with
  | error e => cases h
  | ok bridge =>
    obtain ⟨⟨result, bridge', host⟩, hattach, h⟩ := Checked.bind_eq_ok_iff.mp h
    cases result with
    | error e => cases h
    | ok =>
      cases h
      obtain ⟨_, hleft, hlinks⟩ := Checked.bind_eq_ok_iff.mp hlinks
      obtain ⟨_, hright, heq⟩ := Checked.bind_eq_ok_iff.mp hlinks
      cases heq
      exact ⟨left, right, bridge, hleft, hright, hbetween, hattach, rfl, rfl, rfl, rfl⟩

theorem base_link (c : Channel) : c.link.base = c.base := by
  cases c <;> rfl

/-- The connections of a new relay are registered, so their sockets are not the same. -/
theorem Started.apart {c : RelayConfig} {accepted target : Fd} {left right : Relay.Link}
    {bridge : Bridge Relay.Link} {s : RelayState}
    (h : Started c accepted target left right bridge s) (d : Side) :
    (s.world.bridge.side d.peer).pipe.base.fd ≠ (s.world.bridge.side d).pipe.base.fd := by
  have hunused : Unused Stack.outlook bridge :=
    Relay.unused_between (Relay.idle_link (Tcp.idle_connected accepted) h.acceptedLink)
      (Relay.idle_link (Tcp.idle_connecting target) h.targetLink) h.between
  have hwatched := (unstalled_attached Stack.outlook_lawful hunused Reactor.sound_new.wf
    (attached h.attach)).1
  have hapart := hwatched.atWork.apart d
  unfold fdOf at hapart
  rwa [Stack.outlook_base, Stack.outlook_base] at hapart

theorem sideInvariant_of_new {l : Layout} {s : Side} {c : Channel} {n : Nat} (hnew : c.New)
    (hfd : c.base.fd = l.fd s) (hkind : c.kind = l.kind s)
    (hsize : l.kind s = none ∧ n ≤ l.limit ∨ l.kind s = some l.limit ∧ l.limit ≤ n) :
    SideInvariant l s (.fresh c) n .fresh := by
  refine ⟨hkind, hfd, ?_, ?_, hnew.records⟩
  · intro limit hlimit
    rcases hsize with ⟨hnone, _⟩ | ⟨hsome, hle⟩
    · rw [hnone] at hlimit
      cases hlimit
    · rw [hsome] at hlimit
      cases hlimit
      exact hle
  · intro hnone
    rcases hsize with ⟨_, hle⟩ | ⟨hsome, _⟩
    · exact hle
    · rw [hsome] at hnone
      cases hnone

theorem sideInvariant_new {c : RelayConfig} {l : Layout} {left right : Channel}
    {accepted target : Fd} (hm : c.mode ≠ .plain) (hv : c.validate = .ok ())
    (hplain : l.plain = (if c.mode.framesAccepted then Side.left else .right).peer)
    (hlimit : l.limit = c.maxDatagramSize) (hfd : l.fd = Side.choose accepted target)
    (hleft : left.base.fd = accepted) (hright : right.base.fd = target)
    (hlkind : left.kind = if c.mode.framesAccepted then some c.maxDatagramSize else none)
    (hrkind : right.kind = if c.mode.framesTarget then some c.maxDatagramSize else none)
    (hl : left.New) (hr : right.New) (d : Side) :
    SideInvariant l d (.fresh (Side.choose left right d))
      (Side.choose c.bridge.leftRecvSize c.bridge.rightRecvSize d) .fresh := by
  obtain ⟨_, hframed, hunframed⟩ := RelayConfig.sizes_fit hm hv
  have htarget : c.mode.framesTarget = !c.mode.framesAccepted := by
    cases hmode : c.mode with
    | plain => exact absurd hmode hm
    | client | server => rfl
  rw [htarget] at hrkind
  unfold RelayConfig.framedAndUnframed at hframed hunframed
  unfold RelayConfig.bridge
  rw [← hlimit] at hframed hunframed hlkind hrkind
  have hkind : ∀ e, l.kind e = if e = l.plain then none else some l.limit := fun _ => rfl
  rw [hplain] at hkind
  cases hf : c.mode.framesAccepted with
  | false =>
    rw [hf] at hframed hunframed hlkind hrkind hkind
    cases d with
    | left =>
      have hk : l.kind .left = none := hkind .left
      exact sideInvariant_of_new hl (by rw [hfd]; exact hleft) (hlkind.trans hk.symm)
        (.inl ⟨hk, hunframed⟩)
    | right =>
      have hk : l.kind .right = some l.limit := hkind .right
      exact sideInvariant_of_new hr (by rw [hfd]; exact hright) (hrkind.trans hk.symm)
        (.inr ⟨hk, hframed⟩)
  | true =>
    rw [hf] at hframed hunframed hlkind hrkind hkind
    cases d with
    | left =>
      have hk : l.kind .left = some l.limit := hkind .left
      exact sideInvariant_of_new hl (by rw [hfd]; exact hleft) (hlkind.trans hk.symm)
        (.inr ⟨hk, hframed⟩)
    | right =>
      have hk : l.kind .right = none := hkind .right
      exact sideInvariant_of_new hr (by rw [hfd]; exact hright) (hrkind.trans hk.symm)
        (.inl ⟨hk, hunframed⟩)

theorem sound_start {c : RelayConfig} {accepted target : Fd} {s : RelayState} (hm : c.mode ≠ .plain)
    (hv : c.validate = .ok ()) (h : start c accepted target = .ok (.ok s)) :
    ∃ l : Layout, l.limit = c.maxDatagramSize ∧ Sound l s ∧ s.released = false ∧
      s.world.net = .fresh := by
  obtain ⟨_, _, bridge, hs⟩ := started h
  obtain ⟨left, rfl, hlbase, hlkind, hlnew⟩ := exists_of_link hs.acceptedLink rfl rfl
  obtain ⟨right, rfl, hrbase, hrkind, hrnew⟩ := exists_of_link hs.targetLink rfl rfl
  have hapart := hs.apart
  have hr : ({
      left := { pipe := .fresh left, recvSize := c.bridge.leftRecvSize }
      right := { pipe := .fresh right, recvSize := c.bridge.rightRecvSize }
      budget := c.bridge.maxRelayPerEvent } : Bridge (Recorded Channel)).mapPipes wired =
      bridge := by
    rw [between_eq_ok hs.between]
    rfl
  have hattach := hs.attach
  rw [← hr, attach_mapPipes wired_erases] at hattach
  obtain ⟨⟨result, r, host⟩, hrecorded, heq⟩ := Checked.map_eq_ok_iff.mp hattach
  simp only [Prod.mk.injEq] at heq
  obtain ⟨rfl, hbridge, rfl⟩ := heq
  rw [← hbridge] at hapart
  simp only [side_mapPipes, mapSide, wired, base_link] at hapart
  have hattached := attached hrecorded
  have hinvariant : s.world.net = .fresh ∧
      ∀ d, (r.side d).pipe.pipe.base.fd = Side.choose accepted target d := by
    generalize hdone : (Except.ok () : Except Failure Unit) = result at hattached
    cases hattached with
    | refused => cases hdone
    | done _ hl hr =>
      obtain ⟨hnet, hleft, _⟩ := recordsAgree_attach hlnew.records hl
      obtain ⟨hnet', hright, _⟩ := recordsAgree_attach (by rw [hnet]; exact hrnew.records) hr
      refine ⟨hnet'.trans hnet, fun d => ?_⟩
      cases d
      · exact hleft.trans (congrArg Tcp.fd hlbase)
      · exact hright.trans (congrArg Tcp.fd hrbase)
  obtain ⟨hfresh, hfd⟩ := hinvariant
  let l : Layout := {
    plain := (if c.mode.framesAccepted then Side.left else .right).peer
    limit := c.maxDatagramSize
    fd := Side.choose accepted target
    apart := fun d => by
      rw [← hfd, ← hfd]
      exact hapart d
    within := (RelayConfig.sizes_fit hm hv).1 }
  have hfit : ∀ d, SideInvariant l d (.fresh (Side.choose left right d))
      (Side.choose c.bridge.leftRecvSize c.bridge.rightRecvSize d) .fresh :=
    sideInvariant_new hm hv rfl rfl rfl (congrArg Tcp.fd hlbase)
      (congrArg Tcp.fd hrbase) hlkind hrkind
      hlnew hrnew
  have hlive := (liveInvariant_new hlnew hrnew hfit).attached hattached
  refine ⟨l, rfl, ⟨?_, hs.fd.symm, ⟨r, hbridge, hlive.invariant⟩, ?_⟩, hs.released, hfresh⟩
  · rw [hs.linkSide]
  · simp [hs.ending]

end RelayState

end DuplexRelay
