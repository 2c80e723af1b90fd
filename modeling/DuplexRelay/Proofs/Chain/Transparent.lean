import DuplexRelay.Proofs.Chain.Joined

/-! Two relays with a link between them. One frames what the other takes apart again, in both
directions, so the connections at both ends see one byte stream. -/

namespace DuplexRelay

namespace Chain

open Channel RelayState

variable {l : Layout} {near near' far far' : RelayState}

/-- Both relays are in order, and so is the link in both directions. -/
structure Sound (limit : Nat) (c : Chain) : Prop where
  relay : ∀ s, ∃ l : Layout, l.limit = limit ∧ (c s).Sound l
  joined : ∀ s, Joined (c s) (c s.peer)

variable {limit : Nat} {c c' : Chain}

theorem Sound.update (h : Sound limit c) {x : Side} {s : RelayState}
    (hs : ∃ l : Layout, l.limit = limit ∧ s.Sound l) (hout : Joined s (c x.peer))
    (hin : Joined (c x.peer) s) : Sound limit (Function.update c x s) := by
  have hself : Function.update c x s x = s := Function.update_self x s c
  have hpeer : Function.update c x s x.peer = c x.peer := Function.update_of_ne (Side.peer_ne x) s c
  refine ⟨Side.forall_of x ?_ ?_, Side.forall_of x ?_ ?_⟩
  · rwa [hself]
  · rw [hpeer]
    exact h.relay x.peer
  · rwa [hself, hpeer]
  · rwa [Side.peer_peer, hself, hpeer]

theorem Sound.moved (h : Sound limit c) {x : Side} {s : RelayState}
    (hs : ∃ l : Layout, l.limit = limit ∧ s.Sound l) (hm : Sends (c x) s ∧ Receives (c x) s) :
    Sound limit (Function.update c x s) := by
  have hin := h.joined x.peer
  rw [Side.peer_peer] at hin
  exact h.update hs ((h.joined x).sends hm.1) (hin.receives hm.2)

theorem Sound.fed (h : Sound limit c) {x : Side} {f : Port → Port}
    (hf : ∀ p : Port, p.toTrack.FromOutside (f p).toTrack)
    (hj : ∀ p : Port, p.toTrack = (c x.peer).link →
      ∀ far : RelayState, far.link = (f p).toTrack → Joined (c x) far) :
    Sound limit (Function.update c x.peer ((c x.peer).adjust (c x.peer).linkSide f)) := by
  obtain ⟨l, hl, hs⟩ := h.relay x.peer
  have hlink : ((c x.peer).adjust (c x.peer).linkSide f).link =
      (f ((c x.peer).world.net ((c x.peer).fd (c x.peer).linkSide))).toTrack :=
    track_adjust_self (c x.peer) (c x.peer).linkSide f
  have hfed := hf ((c x.peer).world.net ((c x.peer).fd (c x.peer).linkSide))
  rw [← hlink] at hfed
  refine h.update ⟨l, hl, sound_adjust hs hf _⟩ ?_ ?_
  · have hback := h.joined x.peer
    refine hback.sends ⟨?_, fun _ => hfed.sent, fun hshut => hfed.shut.trans hshut, id⟩
    rw [hfed.sent]
    exact List.prefix_refl _
  · rw [Side.peer_peer]
    exact hj _ rfl _ hlink

theorem sound_step {a : Act} (h : Sound limit c) (hstep : c.step a = .ok c') :
    Sound limit c' := by
  cases a with
  | pass s poll =>
    obtain ⟨s', hpass, rfl⟩ := Checked.map_eq_ok_iff.mp hstep
    obtain ⟨l, hl, hs⟩ := h.relay s
    exact h.moved ⟨l, hl, (sound_pass hs hpass).1⟩ (passed_on hs hpass)
  | behave s d fates =>
    cases hstep
    obtain ⟨l, hl, hs⟩ := h.relay s
    exact h.moved ⟨l, hl, sound_adjust hs (fromOutside_behave fates) d⟩
      (unmoved_behave (c s) d fates)
  | arrive s data =>
    cases hstep
    obtain ⟨l, hl, hs⟩ := h.relay s
    exact h.moved ⟨l, hl, sound_adjust hs (fromOutside_arrive data) _⟩ (unmoved_outer hs _)
  | finish s =>
    cases hstep
    obtain ⟨l, hl, hs⟩ := h.relay s
    exact h.moved ⟨l, hl, sound_adjust hs fromOutside_finish _⟩ (unmoved_outer hs _)
  | deliver s n =>
    cases hstep
    -- what is carried further is what the link was given, as far as it was not carried before
    have hjoined := h.joined s
    refine h.fed (fromOutside_arrive _) fun p hp far hfar => ?_
    unfold Port.arrive at hfar
    split at hfar
    · rw [hp] at hfar
      refine ⟨?_, ?_⟩
      · rw [hfar]
        exact hjoined.carried
      · rw [hfar]
        exact hjoined.ended
    · rename_i hopen
      obtain ⟨left, hleft⟩ := hjoined.carried
      have hgot : far.link.got = (c s.peer).link.got := by rw [hfar, ← hp]
      have hunread : far.link.unread = (c s.peer).link.unread ++
          ((c s).link.sent.drop (c.carried s).length).take n := by rw [hfar, ← hp]
      refine ⟨⟨left.drop n, ?_⟩, fun he => ?_⟩
      · rw [hgot, hunread, ← hleft, ← List.append_assoc]
        unfold carried
        rw [List.drop_left, List.append_assoc, List.take_append_drop]
      · rw [hfar] at he
        exact absurd he hopen
  | hangUp s =>
    unfold step at hstep
    dsimp only at hstep
    split at hstep
    · rename_i hover
      simp only [Bool.and_eq_true, Bool.or_eq_true, decide_eq_true_eq] at hover
      cases hstep
      refine h.fed fromOutside_finish fun p hp far hfar => ?_
      have hgot : far.link.got = (c s.peer).link.got := by rw [hfar, ← hp]; rfl
      have hunread : far.link.unread = (c s.peer).link.unread := by rw [hfar, ← hp]; rfl
      have hall : far.link.got ++ far.link.unread = (c s).link.sent := by
        rw [hgot, hunread]
        exact hover.2
      exact ⟨by rw [hall], fun _ => ⟨hall, hover.1⟩⟩
    · cases hstep
      exact h
  | release s =>
    cases hstep
    obtain ⟨l, hl, hs⟩ := h.relay s
    exact h.moved ⟨l, hl, sound_release hs⟩ (unmoved_release hs)

theorem sound_run {acts : List Act} (h : Sound limit c) (hrun : c.run acts = .ok c') :
    Sound limit c' := by
  induction acts generalizing c with
  | nil =>
    cases hrun
    exact h
  | cons a rest ih =>
    obtain ⟨c₁, hstep, hrest⟩ := Checked.bind_eq_ok_iff.mp hrun
    exact ih (sound_step h hstep) hrest

theorem sound_start {client server : RelayConfig} {fds : Side → Side → Fd}
    (hclient : client.mode = .client) (hserver : server.mode = .server)
    (hleft : client.validate = .ok ()) (hright : server.validate = .ok ())
    (hsize : server.maxDatagramSize = client.maxDatagramSize)
    (h : start client server fds = .ok (.ok c)) : Sound client.maxDatagramSize c := by
  obtain ⟨left, hl, h⟩ := Checked.bind_eq_ok_iff.mp h
  cases left with
  | error e => cases h
  | ok left =>
    obtain ⟨right, hr, h⟩ := Checked.bind_eq_ok_iff.mp h
    cases right with
    | error e => cases h
    | ok right =>
      cases h
      obtain ⟨l, hlimit, hsound, _, hfresh⟩ :=
        RelayState.sound_start (by rw [hclient]; exact nofun) hleft hl
      obtain ⟨l', hlimit', hsound', _, hfresh'⟩ :=
        RelayState.sound_start (by rw [hserver]; exact nofun) hright hr
      have hnew : ∀ {s : RelayState}, s.world.net = .fresh → s.link = {} := by
        intro s hs
        unfold RelayState.link
        rw [hs]
        rfl
      have hjoined : ∀ {s s' : RelayState}, s.link = {} → s'.link = {} → Joined s s' := by
        intro s s' hs hs'
        refine ⟨?_, fun he => ?_⟩
        · rw [hs, hs']
          exact List.prefix_refl _
        · rw [hs'] at he
          cases he
      refine ⟨fun s => ?_, fun s => ?_⟩
      · cases s
        · exact ⟨l, hlimit, hsound⟩
        · exact ⟨l', hlimit'.trans hsize, hsound'⟩
      · cases s
        · exact hjoined (hnew hfresh) (hnew hfresh')
        · exact hjoined (hnew hfresh') (hnew hfresh)

/-- Whatever the sockets and the link do, and in whatever order the relays make their passes, in
each direction: what was sent at the far end is a prefix of what was read at the near end, and all
of that once the end of the stream was sent there; and the framing of no connection is violated. The
last two hold unless the near relay ended abruptly. -/
theorem chain_transparent {client server : RelayConfig} {fds : Side → Side → Fd} {acts : List Act}
    (hclient : client.mode = .client) (hserver : server.mode = .server)
    (hleft : client.validate = .ok ()) (hright : server.validate = .ok ())
    (hsize : server.maxDatagramSize = client.maxDatagramSize)
    (hstart : start client server fds = .ok (.ok c)) (hrun : c.run acts = .ok c') (near : Side) :
    (c' near.peer).outer.sent <+: (c' near).outer.got ∧
      ((c' near.peer).outer.shut = true →
        (c' near.peer).outer.sent = (c' near).outer.got ∨ (c' near).Abrupt) ∧
      ((c' near.peer).Violated → (c' near).Abrupt) := by
  have hsound := sound_run (sound_start hclient hserver hleft hright hsize hstart) hrun
  obtain ⟨l, hlimit, hs⟩ := hsound.relay near
  obtain ⟨l', hlimit', hs'⟩ := hsound.relay near.peer
  obtain ⟨given, taken, held, rest, hnear⟩ := hs.account
  obtain ⟨given', taken', held', rest', hfar⟩ := hs'.account
  have hmax := l.within
  rw [hlimit] at hnear hmax
  rw [hlimit'] at hfar
  refine (hsound.joined near).transparent hmax hnear hfar fun hended => ?_
  unfold RelayState.link
  rw [← hs.fd]
  exact hs.ended hended _

def smallSettings (mode : RelayMode) : RelayConfig where
  listen := .v4 ⟨127, 0, 0, 1⟩ 5000
  target := .v4 ⟨127, 0, 0, 1⟩ 22
  mode := mode
  backlog := 1
  leftRecvSize := 16
  rightRecvSize := 16
  maxRelayPerEvent := 16
  maxDatagramSize := 16
  pollMicros := 1
  statusInterval := 1

def fourSockets : Side → Side → Fd := Side.choose (Side.choose 3 4) (Side.choose 5 6)

/-- The answer that one descriptor is ready. -/
def ready (fd : Fd) (events : SocketEvents) (_ : List Fd) : Except OsError (Fd → SocketEvents) :=
  .ok fun d => if d = fd then events else .none

/-- Both relays connect to their targets, and the left one relays three bytes. -/
def opening : List Act :=
  [ .pass .left (ready 4 { writable := true }), .pass .right (ready 6 { writable := true }),
    .arrive .left [1, 2, 3],
    .behave .left .left [.move 8], .behave .left .right [.move 8] ]

/-- The stream ends behind the three bytes, which the link carries in two parts. -/
def wholeStream : List Act :=
  opening ++
  [ .finish .left,
    .pass .left (ready 3 { readable := true }),
    .deliver .left 2, .deliver .left 9, .hangUp .left,
    .behave .right .left [.move 9], .behave .right .right [.move 8],
    .pass .right (ready 5 { readable := true }) ]

/-- Two more bytes are read, but lost when the connection they came from fails. The left relay gives
up its connections, and the right one finds the link at its end, between two frames. -/
def cutStream : List Act :=
  opening ++
  [ .pass .left (ready 3 { readable := true }),
    .arrive .left [4, 5],
    .behave .left .left [.move 8, .fail (.number OsError.econnreset)],
    .pass .left (ready 3 { readable := true }),
    .pass .left (ready 3 { error := true }),
    .release .left, .deliver .left 9, .hangUp .left,
    .behave .right .left [.move 9], .behave .right .right [.move 8],
    .pass .right (ready 5 { readable := true }) ]

/-- A new chain of relays with small limits, after one thing and another happened. -/
def played (acts : List Act) : Checked (Except Failure Chain) := do
  match ← start (smallSettings .client) (smallSettings .server) fourSockets with
  | .error e => return .error e
  | .ok c => return .ok (← c.run acts)

theorem played_eq_ok {acts : List Act} (h : played acts = .ok (.ok c')) :
    ∃ c, start (smallSettings .client) (smallSettings .server) fourSockets = .ok (.ok c) ∧
      c.run acts = .ok c' := by
  obtain ⟨result, hstart, h⟩ := Checked.bind_eq_ok_iff.mp h
  cases result with
  | error e => cases h
  | ok c =>
    obtain ⟨c₁, hrun, h⟩ := Checked.bind_eq_ok_iff.mp h
    cases h
    exact ⟨c, hstart, hrun⟩

def comesTo (acts : List Act) (figures : Chain → Bool) : Bool :=
  match played acts with
  | .ok (.ok c) => figures c
  | _ => false

theorem comesTo_iff {acts : List Act} {figures : Chain → Bool} :
    comesTo acts figures = true ↔ ∃ c, played acts = .ok (.ok c) ∧ figures c = true := by
  unfold comesTo
  constructor
  · intro h
    split at h
    · rename_i c hc
      exact ⟨c, hc, h⟩
    · cases h
  · rintro ⟨c, hc, h⟩
    rw [hc]
    exact h

/-- The end of the stream is sent on the right although two bytes that were read on the left were
not sent: the right relay cannot tell a link that was given up from one that came to its end. -/
theorem chain_cut_short :
    ¬ ∀ (client server : RelayConfig) (fds : Side → Side → Fd) (acts : List Act) (c c' : Chain),
      client.mode = .client → server.mode = .server →
      client.validate = .ok () → server.validate = .ok () →
      server.maxDatagramSize = client.maxDatagramSize →
      start client server fds = .ok (.ok c) → c.run acts = .ok c' →
      ∀ near : Side, (c' near.peer).outer.shut = true →
        (c' near.peer).outer.sent = (c' near).outer.got := by
  intro h
  have hfigures : comesTo cutStream (fun c =>
      (c .left).outer.got = [1, 2, 3, 4, 5] ∧ (c .right).outer.sent = [1, 2, 3] ∧
        (c .right).outer.shut = true) = true := by
    decide +kernel
  obtain ⟨c', hplayed, hfigures⟩ := comesTo_iff.mp hfigures
  obtain ⟨hgot, hsent, hshut⟩ := of_decide_eq_true hfigures
  obtain ⟨c, hstart, hrun⟩ := played_eq_ok hplayed
  have heq : (c' .right).outer.sent = (c' .left).outer.got :=
    h (smallSettings .client) (smallSettings .server) fourSockets cutStream c c'
      rfl rfl rfl rfl rfl hstart hrun .left hshut
  rw [hgot, hsent] at heq
  cases heq

theorem chain_transparent_whole :
    ∃ c c' : Chain,
      start (smallSettings .client) (smallSettings .server) fourSockets = .ok (.ok c) ∧
      c.run wholeStream = .ok c' ∧ (c' .left).outer.got = [1, 2, 3] ∧
      (c' .right).outer.sent = (c' .left).outer.got ∧ ¬ (c' .right).Violated := by
  have hfigures : comesTo wholeStream (fun c =>
      (c .left).outer.got = [1, 2, 3] ∧ (c .right).outer.shut = true ∧
        (c .left).link.shut = true) = true := by
    decide +kernel
  obtain ⟨c', hplayed, hfigures⟩ := comesTo_iff.mp hfigures
  obtain ⟨hgot, hshut, hlink⟩ := of_decide_eq_true hfigures
  obtain ⟨c, hstart, hrun⟩ := played_eq_ok hplayed
  have hclient : (smallSettings .client).mode = .client := rfl
  have hserver : (smallSettings .server).mode = .server := rfl
  obtain ⟨_, hend, hviolated⟩ := chain_transparent hclient hserver rfl rfl rfl hstart hrun .left
  have hgraceful : ¬ (c' .left).Abrupt := fun ha => by
    have := ha.unshut
    rw [hlink] at this
    cases this
  exact ⟨c, c', hstart, hrun, hgot, (hend hshut).resolve_right hgraceful, mt hviolated hgraceful⟩

end Chain

end DuplexRelay
