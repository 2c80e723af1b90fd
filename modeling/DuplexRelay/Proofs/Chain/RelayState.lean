import DuplexRelay.Relay.Run
import DuplexRelay.Proofs.Bridge.Joining
import DuplexRelay.Proofs.Bridge.Relations
import DuplexRelay.Proofs.Chain.Relaying
import DuplexRelay.Proofs.Reactor.Snapshot

/-! A relay at work, with all that can happen to it: passes of its reactor, what arrives on its
connections and how its sockets behave, and its release. -/

namespace DuplexRelay

namespace Port

/-- From now on operations go as said. -/
def behave (fates : List Fate) (p : Port) : Port := { p with fates }

/-- Bytes arrive, as long as the stream did not end. -/
def arrive (data : Bytes) (p : Port) : Port :=
  if p.ended then p else { p with unread := p.unread ++ data }

def finish (p : Port) : Port := { p with ended := true }

end Port

/-- One of two values, one for each side. -/
def Side.choose {α : Type} (left right : α) : Side → α
  | .left => left
  | .right => right

/-- Sockets at which nothing happened yet. -/
def Ports.fresh : Ports := fun _ => {}

/-- A relay with one framed connection, its link. -/
structure RelayState where
  linkSide : Side
  fd : Side → Fd
  reactor : Reactor Side
  world : Relay.World Ports
  released : Bool := false

namespace RelayState

/-- A new relay between two connections on which nothing happened yet. -/
def start (c : RelayConfig) (accepted target : Fd) : Checked (Except Failure RelayState) := do
  let (left, right) ← Relay.links c accepted target
  match ← Bridge.between left right c.bridge with
  | .error e => return .error (.config e)
  | .ok bridge =>
    let host : Host Ports Side := { net := .fresh, reactor := {} }
    let (result, bridge, host) ← bridge.attach id host
    return result.map fun _ => {
      linkSide := if c.mode.framesAccepted then .left else .right
      fd := Side.choose accepted target
      reactor := host.reactor
      world := { net := host.net, bridge } }

/-- What went through the link. -/
def link (s : RelayState) : Track := s.world.net.track (s.fd s.linkSide)

/-- What went through the other connection. -/
def outer (s : RelayState) : Track := s.world.net.track (s.fd s.linkSide.peer)

def pass (poll : List Fd → Except OsError (Fd → SocketEvents)) (s : RelayState) :
    Checked RelayState :=
  if s.released || s.world.ending.isSome then .ok s
  else do
    let (_, reactor, world) ← s.reactor.monitor poll Relay.invoke s.world
    return { s with reactor, world }

/-- The relay gives up its connections. -/
def release (s : RelayState) : RelayState :=
  if s.released then s
  else
    let host : Host Ports Side :=
      s.world.bridge.release { net := s.world.net, reactor := s.reactor }
    { s with
      reactor := host.reactor
      world := { s.world with net := host.net }
      released := true }

/-- Something happens at the socket of a side. -/
def adjust (d : Side) (f : Port → Port) (s : RelayState) : RelayState :=
  { s with world := { s.world with net := s.world.net.put (s.fd d) (f (s.world.net (s.fd d))) } }

end RelayState

/-- The framing of a connection was violated, after which the connection is of no use any more. -/
def Relay.violated : Relay.Link → Bool
  | ⟨.datagram :: _, p⟩ => Datagram.broken p
  | _ => false

/-- What happens at a socket from outside. -/
structure Track.FromOutside (t t' : Track) : Prop where
  got : t'.got = t.got
  sent : t'.sent = t.sent
  shut : t'.shut = t.shut
  ended : t.ended = true → t'.unread = t.unread ∧ t'.ended = true

theorem Track.FromOutside.refl (t : Track) : t.FromOutside t := ⟨rfl, rfl, rfl, fun h => ⟨rfl, h⟩⟩

theorem Channel.RecordsAgree.fed {r : Recorded Channel} {t t' : Track} (hb : RecordsAgree r t)
    (h : t.FromOutside t') : RecordsAgree r t' := by
  refine ⟨?_, ?_, ?_, hb.accepted, hb.received, ⟨?_, ?_⟩, ?_⟩
  · rw [h.sent]
    exact hb.given
  · rw [h.got]
    exact hb.taken
  · intro hv
    obtain ⟨rest, hrest, limit, hkind, hspoiled⟩ := hb.spoiled hv
    refine ⟨rest, h.got.trans hrest, limit, hkind, hspoiled.imp_right ?_⟩
    rintro ⟨hf, hr, hu, he⟩
    exact ⟨hf, hr, (h.ended he).1.trans hu, (h.ended he).2⟩
  · intro hfin
    obtain ⟨hu, he, hdry⟩ := hb.tracked.ended hfin
    exact ⟨(h.ended he).1.trans hu, (h.ended he).2, hdry⟩
  · rw [h.shut]
    exact hb.tracked.shut
  · rw [h.shut]
    exact hb.settled

namespace Bridge

theorem SideInvariant.fed {l : Layout} {s : Side} {r : Recorded Channel} {n : Nat}
    {net net' : Ports}
    (hf : SideInvariant l s r n net) (h : (net.track (l.fd s)).FromOutside (net'.track (l.fd s))) :
    SideInvariant l s r n net' :=
  ⟨hf.kind, hf.fd, hf.room, hf.small, hf.records.fed h⟩

theorem BridgeInvariant.fed {l : Layout} {b : Bridge (Recorded Channel)} {net net' : Ports}
    (hk : BridgeInvariant l b net)
    (h : ∀ s, (net.track (l.fd s)).FromOutside (net'.track (l.fd s))) :
    BridgeInvariant l b net' := by
  refine ⟨⟨hk.lasting.exact, fun s => (hk.lasting.sides s).fed (h s), hk.lasting.passed⟩, ?_⟩
  intro hd
  have hr := hk.live hd
  exact ⟨hd, hr.exact, fun s => (hr.sides s).fed (h s), hr.sound, hr.closing⟩

end Bridge

/-- Later states of all sockets. -/
def Ports.Later (net net' : Ports) : Prop := ∀ d, (net.track d).Later (net'.track d)

theorem Tcp.Stepped.later_ports {C : Type} {p p' : Tcp} {w w' : Host Ports C}
    (h : Stepped p w p' w') : w.net.Later w'.net := by
  intro d
  rcases Classical.em (d = p.fd) with rfl | hd
  · exact h.later
  · have hsame : w'.net.track d = w.net.track d := congrArg Port.toTrack (h.others d hd)
    rw [hsame]
    exact .refl _

/-- All that a bridge does to sockets is to read, to send and to shut down. -/
theorem Bridge.worldRelation_later {C : Type} :
    WorldRelation Relay.Link fun w w' : Host Ports C => w.net.Later w'.net where
  refl w d := .refl _
  trans h h' d := (h d).trans (h' d)
  below := by
    have h : Pipe.Below (Stack.base : Relay.Link → Tcp) (Tcp.Stepped (C := C)) :=
      Stack.below Tcp.stepped_chained Tcp.below_stepped
    exact ⟨fun hr => (h.recv hr).later_ports, fun hs => (h.send hs).later_ports,
      fun hc => (h.sendFin hc).later_ports, fun hr => (h.react hr).later_ports,
      fun p w => (h.reschedule p w).later_ports⟩

/-- The connection of a relay that a recorded one stands for. -/
def Channel.wired (r : Recorded Channel) : Relay.Link := r.pipe.link

theorem Channel.wired_erases {C : Type} :
    Pipe.Erases (Host Ports C) (Channel.wired : Recorded Channel → Relay.Link) :=
  Channel.erases.comp Recorded.erases

namespace RelayState

open Bridge

variable {l : Layout} {s s' : RelayState}

/-- The bridge of a relay is in order, and shut both of its sockets down if it ended so. -/
structure Sound (l : Layout) (s : RelayState) : Prop where
  plain : l.plain = s.linkSide.peer
  fd : l.fd = s.fd
  invariant : ∃ r : Bridge (Recorded Channel),
    r.mapPipes Channel.wired = s.world.bridge ∧ BridgeInvariant l r s.world.net
  ended : s.world.ending = some true → ∀ d, (s.world.net.track (l.fd d)).shut = true

theorem sound_pass {poll : List Fd → Except OsError (Fd → SocketEvents)} (hs : Sound l s)
    (h : s.pass poll = .ok s') : Sound l s' ∧ s.world.net.Later s'.world.net := by
  unfold RelayState.pass at h
  split at h
  · cases h
    exact ⟨hs, fun d => .refl _⟩
  obtain ⟨⟨result, reactor, world⟩, hm, heq⟩ := Checked.bind_eq_ok_iff.mp h
  cases heq
  obtain ⟨⟨hinvariant, hended⟩, hlater⟩ := Reactor.monitor_keeps
    (Q := fun world : Relay.World Ports =>
      ((∃ r : Bridge (Recorded Channel), r.mapPipes Channel.wired = world.bridge ∧
        BridgeInvariant l r world.net) ∧
      (world.ending = some true → ∀ d, (world.net.track (l.fd d)).shut = true)) ∧
      s.world.net.Later world.net)
    (by
      rintro side events reactor world reactor' world' hcall ⟨⟨⟨r, hr, hinvariant⟩, hended⟩, hlater⟩
      obtain ⟨⟨ending, b, host⟩, hact, heq⟩ := Checked.bind_eq_ok_iff.mp hcall
      cases heq
      have hstep := worldRelation_later.acted (acted hact)
      rw [← hr, onActivity_mapPipes Channel.wired_erases] at hact
      obtain ⟨⟨_, r', _⟩, hrecorded, heq⟩ := Checked.map_eq_ok_iff.mp hact
      cases heq
      obtain ⟨hkept', hshut⟩ := BridgeInvariant.acted hinvariant (acted hrecorded)
      refine ⟨⟨⟨r', rfl, hkept'⟩, ?_⟩, fun d => (hlater d).trans (hstep d)⟩
      intro hnow d
      cases hbefore : world.ending with
      | none =>
        rw [hbefore] at hnow
        exact hshut hnow d
      | some x =>
        rw [hbefore] at hnow
        exact (hstep _).shut (hended (hbefore.trans hnow) d))
    hm ⟨⟨hs.invariant, hs.ended⟩, fun d => .refl _⟩
  exact ⟨⟨hs.plain, hs.fd, hinvariant, hended⟩, hlater⟩

theorem track_adjust_self (s : RelayState) (d : Side) (f : Port → Port) :
    (s.adjust d f).world.net.track (s.fd d) = (f (s.world.net (s.fd d))).toTrack :=
  congrArg Port.toTrack (Ports.put_self (s.fd d) _ s.world.net)

theorem track_adjust_other (s : RelayState) {d : Side} {e : Fd} (h : e ≠ s.fd d) (f : Port → Port) :
    (s.adjust d f).world.net.track e = s.world.net.track e :=
  congrArg Port.toTrack (Ports.put_other h _ s.world.net)

/-- What happens at a socket from outside changes no records. -/
theorem sound_adjust {f : Port → Port} (hs : Sound l s)
    (hf : ∀ p : Port, p.toTrack.FromOutside (f p).toTrack) (d : Side) : Sound l (s.adjust d f) := by
  have hfed : ∀ e, (s.world.net.track e).FromOutside ((s.adjust d f).world.net.track e) := by
    intro e
    rcases Classical.em (e = s.fd d) with rfl | he
    · rw [track_adjust_self]
      exact hf _
    · rw [track_adjust_other s he]
      exact .refl _
  obtain ⟨r, hr, hinvariant⟩ := hs.invariant
  refine ⟨hs.plain, hs.fd, ⟨r, hr, hinvariant.fed fun d => hfed _⟩, ?_⟩
  intro he d
  rw [(hfed _).shut]
  exact hs.ended he d

theorem release_link (c : Channel) (w : Host Ports Side) :
    Pipe.release c.link w = c.base.shut w := by
  cases c <;> rfl

theorem track_close (fd d : Fd) (net : Ports) : ∃ closed,
    (Sockets.close fd net : Ports).track d = { net.track d with closed } := by
  rcases Classical.em (d = fd) with rfl | hd
  · exact ⟨true, congrArg Port.toTrack (Ports.put_self d { net d with closed := true } net)⟩
  · exact ⟨(net d).closed, congrArg Port.toTrack (Ports.put_other hd _ net)⟩

theorem release_closes (hs : Sound l s) (d : Fd) : ∃ closed,
    s.release.world.net.track d = { s.world.net.track d with closed } := by
  unfold release
  split
  · exact ⟨_, rfl⟩
  obtain ⟨r, hr, _⟩ := hs.invariant
  have hleft : s.world.bridge.left.pipe = r.left.pipe.pipe.link := by rw [← hr]; rfl
  have hright : s.world.bridge.right.pipe = r.right.pipe.pipe.link := by rw [← hr]; rfl
  dsimp only [Bridge.release]
  rw [hleft, hright, release_link, release_link]
  obtain ⟨first, hfirst⟩ := track_close r.left.pipe.pipe.base.fd d s.world.net
  obtain ⟨second, hsecond⟩ := track_close r.right.pipe.pipe.base.fd d
    (Sockets.close r.left.pipe.pipe.base.fd s.world.net)
  refine ⟨second, hsecond.trans ?_⟩
  rw [hfirst]

theorem sound_release (hs : Sound l s) : Sound l s.release := by
  have hfed : ∀ d, (s.world.net.track d).FromOutside (s.release.world.net.track d) := by
    intro d
    obtain ⟨closed, hclosed⟩ := release_closes hs d
    rw [hclosed]
    exact ⟨rfl, rfl, rfl, fun he => ⟨rfl, he⟩⟩
  have hsame : s.release.linkSide = s.linkSide ∧ s.release.fd = s.fd ∧
      s.release.world.bridge = s.world.bridge ∧ s.release.world.ending = s.world.ending := by
    unfold release
    split <;> exact ⟨rfl, rfl, rfl, rfl⟩
  obtain ⟨hside, hfd, hbridge, hending⟩ := hsame
  obtain ⟨r, hr, hinvariant⟩ := hs.invariant
  refine ⟨by rw [hside]; exact hs.plain, by rw [hfd]; exact hs.fd,
    ⟨r, hr.trans hbridge.symm, hinvariant.fed fun d => hfed _⟩, ?_⟩
  rw [hending]
  intro he d
  rw [(hfed _).shut]
  exact hs.ended he d

end RelayState

end DuplexRelay
