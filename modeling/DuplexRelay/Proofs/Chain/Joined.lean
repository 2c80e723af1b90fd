import Mathlib.Logic.Function.Basic
import DuplexRelay.Proofs.Chain.Accounts
import DuplexRelay.Proofs.Chain.Opening

/-! Two relays with a link between them, and what anything that happens to one of them means for the
link. What one relay sends on it is what the other one is yet to receive. -/

namespace DuplexRelay

/-- The relay that frames for a target, on the left, and the one that frames for its clients. -/
abbrev Chain := Side → RelayState

inductive Chain.Act where
  /-- a pass of a relay, where its question for readiness is answered somehow -/
  | pass (s : Side) (poll : List Fd → Except OsError (Fd → SocketEvents))
  /-- how the next operations on a socket of a relay go -/
  | behave (s d : Side) (fates : List Fate)
  /-- bytes arrive on the connection at one end -/
  | arrive (s : Side) (data : Bytes)
  | finish (s : Side)
  /-- the link carries up to so many bytes from a relay to the other one -/
  | deliver (s : Side) (n : Nat)
  /-- the link carries the end of the stream, behind all bytes -/
  | hangUp (s : Side)
  /-- a relay gives up its connections, however it got there -/
  | release (s : Side)

namespace Chain

def start (client server : RelayConfig) (fds : Side → Side → Fd) :
    Checked (Except Failure Chain) := do
  match ← RelayState.start client (fds .left .left) (fds .left .right) with
  | .error e => return .error e
  | .ok left =>
    match ← RelayState.start server (fds .right .left) (fds .right .right) with
    | .error e => return .error e
    | .ok right => return .ok (Side.choose left right)

/-- The bytes of a relay that the link carried to the other one. -/
def carried (c : Chain) (s : Side) : Bytes := (c s.peer).link.got ++ (c s.peer).link.unread

/-- The chain after something happened. The end of a stream is carried only if the way out was shut
down or given up. -/
def step (c : Chain) : Act → Checked Chain
  | .pass s poll => (c s).pass poll |>.map (Function.update c s)
  | .behave s d fates => .ok (Function.update c s ((c s).adjust d (.behave fates)))
  | .arrive s data =>
    .ok (Function.update c s ((c s).adjust (c s).linkSide.peer (.arrive data)))
  | .finish s => .ok (Function.update c s ((c s).adjust (c s).linkSide.peer .finish))
  | .deliver s n =>
    let data := ((c s).link.sent.drop (c.carried s).length).take n
    .ok (Function.update c s.peer ((c s.peer).adjust (c s.peer).linkSide (.arrive data)))
  | .hangUp s =>
    if ((c s).link.shut || (c s).released) && c.carried s = (c s).link.sent then
      .ok (Function.update c s.peer ((c s.peer).adjust (c s.peer).linkSide .finish))
    else .ok c
  | .release s => .ok (Function.update c s (c s).release)

def run (c : Chain) : List Act → Checked Chain
  | [] => .ok c
  | a :: rest => do (← c.step a).run rest

end Chain

/-- The relay gave up its connections, without having ended in good order and without having shut
its side of the link down. -/
structure RelayState.Abrupt (s : RelayState) : Prop where
  released : s.released = true
  ending : s.world.ending ≠ some true
  unshut : s.link.shut = false

namespace Chain

open Channel RelayState

variable {l : Layout} {near near' far far' : RelayState}

/-- What the link carried from one relay to the other one. -/
structure Joined (near far : RelayState) : Prop where
  carried : far.link.got ++ far.link.unread <+: near.link.sent
  ended : far.link.ended = true → far.link.got ++ far.link.unread = near.link.sent ∧
    (near.link.shut = true ∨ near.released = true)

/-- What a relay does to the way out onto its link. -/
structure Sends (near near' : RelayState) : Prop where
  sent : near.link.sent <+: near'.link.sent
  frozen : near.link.shut = true ∨ near.released = true → near'.link.sent = near.link.sent
  shut : near.link.shut = true → near'.link.shut = true
  released : near.released = true → near'.released = true

/-- What a relay does to the way in from its link. -/
structure Receives (far far' : RelayState) : Prop where
  carried : far'.link.got ++ far'.link.unread = far.link.got ++ far.link.unread
  ended : far'.link.ended = far.link.ended

theorem Joined.sends (h : Joined near far) (hs : Sends near near') : Joined near' far := by
  refine ⟨h.carried.trans hs.sent, fun he => ?_⟩
  obtain ⟨hall, hover⟩ := h.ended he
  exact ⟨hall.trans (hs.frozen hover).symm, hover.imp hs.shut hs.released⟩

theorem Joined.receives (h : Joined near far) (hr : Receives far far') : Joined near far' := by
  refine ⟨by rw [hr.carried]; exact h.carried, fun he => ?_⟩
  rw [hr.carried]
  exact h.ended (hr.ended.symm.trans he)

/-- The transparency of one direction, given what both relays can be held to. -/
theorem Joined.transparent {limit : Nat} {given taken given' taken' : List Bytes}
    {held rest held' rest' : Bytes} (h : Joined near far) (hmax : limit ≤ Varint.maxValue)
    (hn : Account limit near given taken held rest)
    (hf : Account limit far given' taken' held' rest')
    (hended : near.world.ending = some true → near.link.shut = true) :
    far.outer.sent <+: near.outer.got ∧
      (far.outer.shut = true → far.outer.sent = near.outer.got ∨ near.Abrupt) ∧
      (far.Violated → near.Abrupt) := by
  have hstream : taken'.flatMap Datagram.wire ++ rest' <+: given.flatMap Datagram.wire := by
    rw [← hf.got, ← hn.sent]
    exact ((List.prefix_append _ _).trans h.carried).trans (List.prefix_append _ _)
  obtain ⟨others, rfl, hrest⟩ := Datagram.exists_of_wires
    (fun data hd => (hf.smallTaken data hd).trans hmax)
    (fun data hd => (hn.small data hd).trans hmax) hstream
  have hsmall : ∀ data ∈ others, data.length ≤ limit :=
    fun data hd => hn.small data (List.mem_append_right _ hd)
  -- where the far relay has read all of the link, and the near one shut it down
  have hwhole : far.link.unread = [] → far.link.ended = true → near.link.shut = true →
      rest' = others.flatMap Datagram.wire := by
    intro hunread hend hshut
    have hall := (h.ended hend).1
    have hsent := hn.sent
    rw [hunread, List.append_nil, hf.got] at hall
    rw [(hn.linkShut hshut).1, List.append_nil, ← hall, List.flatMap_append] at hsent
    exact List.append_cancel_left hsent
  have habrupt : far.link.ended = true → near.link.shut = true ∨ near.Abrupt := by
    intro hend
    cases hshut : near.link.shut with
    | true => exact .inl rfl
    | false =>
      refine .inr ⟨(h.ended hend).2.resolve_left (by simp [hshut]), fun he => ?_, hshut⟩
      exact absurd (hshut.symm.trans (hended he)) Bool.false_ne_true
  refine ⟨?_, ?_, ?_⟩
  · refine hf.passedOut.trans (List.IsPrefix.trans ?_ hn.passedIn)
    rw [List.flatten_append]
    exact List.prefix_append _ _
  · intro hshut
    obtain ⟨hunread, hend, hnothing, hsent⟩ := hf.outerShut hshut
    refine (habrupt hend).imp_left fun hclosed => ?_
    have hothers : others = [] := by
      have hempty := hwhole hunread hend hclosed
      cases others with
      | nil => rfl
      | cons data others =>
        rw [hnothing, List.flatMap_cons] at hempty
        exact absurd (List.append_eq_nil_iff.mp hempty.symm).1 (Datagram.wire_ne_nil data)
    rw [hsent, ← (hn.linkShut hclosed).2, hothers, List.append_nil]
  · intro hviolated
    obtain ⟨_, hlimit, hbad⟩ := hf.violated hviolated
    cases hlimit
    rcases hbad with hbad | ⟨hnone, hsome, hunread, hend⟩
    · exact absurd hbad (Datagram.firstFrame_ne_error hsmall hmax hrest)
    · refine (habrupt hend).resolve_left fun hclosed => hsome ?_
      rw [hwhole hunread hend hclosed] at hnone ⊢
      rw [Datagram.eq_nil_of_firstFrame_none hsmall hmax hnone]
      rfl

theorem passed_on {poll : List Fd → Except OsError (Fd → SocketEvents)} {s s' : RelayState}
    (hs : s.Sound l) (h : s.pass poll = .ok s') : Sends s s' ∧ Receives s s' := by
  have hlater := (sound_pass hs h).2
  have hsame : s'.fd = s.fd ∧ s'.linkSide = s.linkSide ∧ s'.released = s.released := by
    unfold RelayState.pass at h
    split at h
    · cases h
      exact ⟨rfl, rfl, rfl⟩
    · obtain ⟨_, _, heq⟩ := Checked.bind_eq_ok_iff.mp h
      cases heq
      exact ⟨rfl, rfl, rfl⟩
  have hlink : s.link.Later s'.link := by
    unfold RelayState.link
    rw [hsame.1, hsame.2.1]
    exact hlater _
  refine ⟨⟨hlink.sent, ?_, hlink.shut, fun hr => hsame.2.2.trans hr⟩, hlink.arrived, hlink.ended⟩
  rintro (hshut | hreleased)
  · exact hlink.frozen (.inl hshut)
  · unfold RelayState.pass at h
    rw [hreleased] at h
    cases h
    rfl

theorem unmoved {s s' : RelayState} (h : ∃ closed, s'.link = { s.link with closed })
    (hr : s.released = true → s'.released = true) : Sends s s' ∧ Receives s s' := by
  obtain ⟨closed, h⟩ := h
  refine ⟨⟨?_, ?_, ?_, hr⟩, ?_, ?_⟩
  · rw [h]
  · rw [h]
    exact fun _ => rfl
  · rw [h]
    exact id
  · rw [h]
  · rw [h]

theorem unmoved_outer {s : RelayState} (hs : s.Sound l) (f : Port → Port) :
    Sends s (s.adjust s.linkSide.peer f) ∧ Receives s (s.adjust s.linkSide.peer f) := by
  have hapart : s.fd s.linkSide ≠ s.fd s.linkSide.peer := by
    rw [← hs.fd]
    exact (l.apart s.linkSide).symm
  exact unmoved ⟨_, track_adjust_other s hapart f⟩ id

theorem unmoved_behave (s : RelayState) (d : Side) (fates : List Fate) :
    Sends s (s.adjust d (.behave fates)) ∧ Receives s (s.adjust d (.behave fates)) := by
  refine unmoved ⟨s.link.closed, ?_⟩ id
  change (s.adjust d (.behave fates)).world.net.track (s.fd s.linkSide) = s.link
  rcases Classical.em (s.fd s.linkSide = s.fd d) with heq | hne
  · rw [heq, track_adjust_self]
    unfold RelayState.link
    rw [heq]
    rfl
  · rw [track_adjust_other s hne]
    rfl

theorem unmoved_release {s : RelayState} (hs : s.Sound l) :
    Sends s s.release ∧ Receives s s.release := by
  obtain ⟨closed, hclosed⟩ := release_closes hs (s.fd s.linkSide)
  have hsame : s.release.fd = s.fd ∧ s.release.linkSide = s.linkSide ∧
      (s.released = true → s.release.released = true) := by
    unfold release
    split <;> exact ⟨rfl, rfl, fun hr => by simp_all⟩
  refine unmoved ⟨closed, ?_⟩ hsame.2.2
  unfold RelayState.link
  rw [hsame.1, hsame.2.1]
  exact hclosed

theorem fromOutside_arrive (data : Bytes) (p : Port) :
    p.toTrack.FromOutside (p.arrive data).toTrack := by
  unfold Port.arrive
  split
  · exact .refl _
  · rename_i hopen
    exact ⟨rfl, rfl, rfl, fun he => absurd he hopen⟩

theorem fromOutside_finish (p : Port) : p.toTrack.FromOutside p.finish.toTrack :=
  ⟨rfl, rfl, rfl, fun _ => ⟨rfl, rfl⟩⟩

theorem fromOutside_behave (fates : List Fate) (p : Port) :
    p.toTrack.FromOutside (p.behave fates).toTrack :=
  .refl _

end Chain

end DuplexRelay
