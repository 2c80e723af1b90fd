import DuplexRelay.Proofs.Reactor.Snapshot
import DuplexRelay.Proofs.Relay.Stage
import DuplexRelay.Proofs.Relay.Unstopped

/-! A relay with settings that can be used keeps to its own limits. -/

namespace DuplexRelay

namespace Relay

variable {N : Type} [Sockets N] {c : RelayConfig}

/-- The bridge works with the sizes of the settings, and nothing was out of their bounds so far. -/
def Sized (c : RelayConfig) (b : Bridge (Gauged Link)) : Prop :=
  b.Configured c.bridge fun s => Gauged.Sized c.bridge.bufferSize (c.limit s)

theorem metered_sides [LawfulSockets N] (hv : c.validate = .ok ()) (s : Side) :
    Pipe.Metered (Host N Side) (c.bridge.recvSize s) (c.bridge.recvSize s.peer)
      (Gauged.Sized c.bridge.bufferSize (c.limit s))
      (Gauged.Sized c.bridge.bufferSize (c.limit s)) := by
  apply Gauged.metered
  · unfold BridgeConfig.bufferSize
    cases s
    · exact Nat.le_max_left _ _
    · exact Nat.le_max_right _ _
  · exact fun n hn => (RelayConfig.sizes_of_limit hv hn).2.1
  · exact fun n hn => (RelayConfig.sizes_of_limit hv hn).2.2

theorem Sized.invoked [LawfulSockets N] (hv : c.validate = .ok ()) {side : Side}
    {events : SocketEvents} {r r' : Reactor Side} {x x' : Stage (Gauged Link) N}
    (h : Stage.invoke side events r x = .ok (r', x')) (hx : Sized c x.bridge) :
    Sized c x'.bridge := by
  obtain ⟨⟨ending, bridge, host⟩, hact, heq⟩ := Checked.bind_eq_ok_iff.mp h
  cases heq
  cases hd : x.bridge.dead with
  | true =>
    rw [Bridge.onActivity_dead hd] at hact
    cases hact
    exact hx
  | false => exact (Bridge.metered_acted (metered_sides hv) hd hx (Bridge.acted hact)).1

theorem sized_attached {left right : Link} {callback : Side → Side} {b b' : Bridge (Gauged Link)}
    {w w' : Host N Side} {result : Except Failure Unit} (hl : left.Limited (c.limit .left))
    (hr : right.Limited (c.limit .right))
    (hb : Bridge.between (Gauged.fresh left) (.fresh right) c.bridge = .ok (.ok b))
    (ha : b.attach callback w = .ok (result, b', w')) : Sized c b' := by
  have hnew {p : Link} {limit : Option Nat} (hp : p.Limited limit) :
      Gauged.Sized c.bridge.bufferSize limit (.fresh p) :=
    ⟨hp, fun reading hmem => absurd hmem List.not_mem_nil⟩
  have hstart : Sized c b := by
    rw [Bridge.between_eq_ok hb]
    refine ⟨rfl, Side.forall_of .left rfl rfl, ?_, ?_⟩
    · exact Side.forall_of .left (hnew hl) (hnew hr)
    · exact Side.forall_of .left (c.bridge.admits_none _) (c.bridge.admits_none _)
  exact hstart.attached (fun h ha => h.attach ha) (Bridge.attached ha)

variable [LawfulSockets N] [Polls N]

theorem sized_drive (hv : c.validate = .ok ()) {interval : Nat} {others : List (N → N)}
    {r r' : Reactor Side} {x x' : Stage (Gauged Link) N} {result : Except Failure (Option Bool)}
    (hx : Sized c x.bridge) (h : Stage.drive interval others r x = .ok (result, r', x')) :
    Sized c x'.bridge := by
  induction others generalizing r x with
  | nil =>
    cases h
    exact hx
  | cons act others ih =>
    unfold Stage.drive at h
    split at h
    · cases h
      exact hx
    simp only [Checked.bind_eq_ok_iff] at h
    obtain ⟨⟨passed, r₁, x₁⟩, hpass, h⟩ := h
    have hx₁ : Sized c x₁.bridge := Reactor.monitor_keeps
      (Q := fun x : Stage (Gauged Link) N => Sized c x.bridge) (Sized.invoked hv) hpass hx
    cases passed with
    | error e =>
      cases h
      exact hx₁
    | ok n =>
      dsimp only at h
      split at h
      · cases h
      · exact ih hx₁ h

/-- With settings that can be used, a relay keeps to its own limits whatever its connections bring.
Its pipes and its bridge can be had, and nothing stops its run but limits of the system: bytes that
were not announced, a buffer larger than any store, and connections that are one and the same. A
receive never asks for more than the buffer of the bridge holds, nor does it refuse a datagram for
want of room, and whatever is sent to a framed connection fits into a datagram. The readings are
those of a run over gauged pipes, which is the same run. -/
theorem within_limits (hv : c.validate = .ok ()) (others : List (N → N)) (accepted target : Fd)
    (net : N) :
    c.statusInterval ≠ 0 ∧
    (∀ v, run others c accepted target net = .error v →
      v = .backlogExceeded ∧ ¬Sockets.AsAnnounced N ∨
      v = .capacityExceeded ∧ ¬Datagram.Holdable c.bridge.bufferSize ∨
      v = .registeredAlready target ∧ accepted = target) ∧
    ∃ left right : Link, links c accepted target = .ok (left, right) ∧
      (c.bridge.bufferSize ≤ ByteBuffer.maxCapacity → ∃ b : Bridge (Gauged Link),
        Bridge.between left right c.bridge = .ok (.ok (b.mapPipes Gauged.pipe)) ∧
        Bridge.between (Gauged.fresh left) (.fresh right) c.bridge = .ok (.ok b) ∧
        run others c accepted target net =
          (Stage.run others c.statusInterval b net).map (fun y => (y.1, y.2.2.released y.2.1)) ∧
        ∀ result r x, Stage.run others c.statusInterval b net = .ok (result, r, x) →
          ∀ s, ∀ reading ∈ (x.bridge.side s).pipe.readings,
            reading.Within c.bridge.bufferSize (c.limit s)) := by
  obtain ⟨hbridge, hinterval, _⟩ := RelayConfig.usable_of_validate hv
  obtain ⟨hlinks, _, _⟩ := links_eq_ok hv accepted target
  refine ⟨hinterval, fun v h => ?_, _, _, hlinks, fun hmemory => ?_⟩
  · rcases run_error hv h with (hbacklog | hcapacity) | hsame
    · exact .inl hbacklog
    · exact .inr (.inl hcapacity)
    · exact .inr (.inr hsame)
  have hl := limited_linked (.connected accepted) (c.limit .left)
  have hr := limited_linked (.connecting target) (c.limit .right)
  generalize linked (.connected accepted) (c.limit .left) = left at hlinks hl
  generalize linked (.connecting target) (c.limit .right) = right at hlinks hr
  rcases Bridge.between_cases (Gauged.fresh left) (.fresh right) hbridge with ⟨b, hb⟩ | ⟨_, hlarge⟩
  · refine ⟨b, ?_, hb, run_eq Gauged.erases hlinks hb fun _ _ => rfl, fun result r x h => ?_⟩
    · have hmade := Bridge.between_map Gauged.pipe (Gauged.fresh left) (.fresh right) c.bridge
      rw [hb] at hmade
      exact hmade
    · have hsized : Sized c x.bridge := by
        obtain ⟨⟨registered, b₁, host⟩, hattach, h⟩ := Checked.bind_eq_ok_iff.mp h
        have hstart := sized_attached hl hr hb hattach
        cases registered with
        | error e =>
          cases h
          exact hstart
        | ok _ => exact sized_drive hv hstart h
      exact fun s => (hsized.pipes s).readings
  · omega

/-- A relay of datagrams with the smallest settings, which frames its target. -/
def narrowRelay : RelayConfig where
  listen := .v4 ⟨127, 0, 0, 1⟩ 1
  target := .v4 ⟨127, 0, 0, 1⟩ 2
  mode := .client
  backlog := 1
  leftRecvSize := 16
  rightRecvSize := 16
  maxRelayPerEvent := 32
  maxDatagramSize := 16
  pollMicros := 1
  statusInterval := 1

def narrowNet : SocketPairs := (SocketPairs.connect 4 {}).connect 3

def narrowBridge : Bridge (Gauged Link) where
  left := { pipe := .fresh (linked (.connected 3) none), recvSize := 16 }
  right := { pipe := .fresh (linked (.connecting 4) (some 16)), recvSize := 16 }
  budget := 32

/-- More than one chunk arrives on one side and a datagram of the largest size on the other one.
Both far ends are at their end after that. -/
def brimful : List (SocketPairs → SocketPairs) :=
  [ id,
    fun net => (net.update 3 (·.farWrite (List.replicate 40 1))).update 4
      (·.farWrite (Datagram.wire (List.replicate 16 2))),
    id,
    fun net => (net.update 3 (·.farFin)).update 4 (·.farFin),
    id,
    id ]

/-- How the run of a relay ended, and how much its right pipe handed over at each call. -/
def handed (y : Except Failure (Option Bool) × Reactor Side × Stage (Gauged Link) SocketPairs) :
    Option (Option Bool) × List Nat :=
  (y.1.toOption, y.2.2.bridge.right.pipe.readings.map (·.bytes.length))

theorem brimful_handed :
    (Stage.run brimful 1 narrowBridge narrowNet).toOption.map handed =
      some (some (some true), [16, 16, 16, 0, 8, 0]) := by
  decide +kernel

theorem within_limits_brimful :
    narrowRelay.validate = .ok () ∧ narrowRelay.limit .right = some 16 ∧
    ∃ y, Stage.run brimful 1 narrowBridge narrowNet = .ok y ∧
      run brimful narrowRelay 3 4 narrowNet = .ok (y.1, y.2.2.released y.2.1) ∧
      handed y = (some (some true), [16, 16, 16, 0, 8, 0]) ∧
      ∀ s, ∀ reading ∈ (y.2.2.bridge.side s).pipe.readings,
        reading.Within 16 (narrowRelay.limit s) := by
  have hv : narrowRelay.validate = .ok () := by decide
  refine ⟨hv, rfl, ?_⟩
  obtain ⟨_, _, left, right, hlinks, hmade⟩ := within_limits hv brimful 3 4 narrowNet
  obtain ⟨rfl, rfl⟩ := Prod.mk.inj (Except.ok.inj hlinks)
  obtain ⟨b, _, hnew, hrun, hwithin⟩ := hmade (by decide)
  obtain rfl : narrowBridge = b := Except.ok.inj (Except.ok.inj hnew)
  have hhanded := brimful_handed
  cases hstage : Stage.run brimful 1 narrowBridge narrowNet with
  | error v => simp [hstage, Except.toOption] at hhanded
  | ok y =>
    simp only [hstage, Except.toOption, Option.map_some, Option.some.injEq] at hhanded
    refine ⟨y, rfl, ?_, hhanded, hwithin _ _ _ hstage⟩
    rw [hrun]
    change (Stage.run brimful 1 narrowBridge narrowNet).map _ = _
    rw [hstage]
    rfl

end Relay

end DuplexRelay
