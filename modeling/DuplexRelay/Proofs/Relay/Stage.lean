import DuplexRelay.Proofs.Bridge.Recorded
import DuplexRelay.Relay.Run

/-! Relays over other pipes. What a relay does can be watched at pipes that keep records of it: the
run over them is the run of the relay once the records are left out. -/

namespace DuplexRelay

namespace Reactor

variable {C σ τ : Type} {f : σ → τ}
  {invoke : C → SocketEvents → Reactor C → σ → Checked (Reactor C × σ)}
  {other : C → SocketEvents → Reactor C → τ → Checked (Reactor C × τ)}
  (hf : ∀ c e r s, other c e r (f s) = (invoke c e r s).map fun x => (x.1, f x.2))
include hf

theorem dispatch_map (active : Nat) (cursor : Option Handle) (r : Reactor C) (s : σ) :
    dispatch other active cursor r (f s) =
      (dispatch invoke active cursor r s).map fun x => (x.1, x.2.1, f x.2.2) := by
  induction active generalizing cursor r s with
  | zero => rfl
  | succ active ih =>
    unfold dispatch
    cases r.nextDue? cursor with
    | none => rfl
    | some due =>
      dsimp only
      rw [hf, Checked.bind_map, Checked.map_bind]
      apply bind_congr
      rintro ⟨r, s⟩
      dsimp only
      split
      · rfl
      split
      · rw [ih, Checked.bind_map, Checked.map_bind]
        rfl
      · rw [ih, Checked.bind_map, Checked.map_bind]
        rfl

theorem pass_map (ready : Fd → SocketEvents) (r : Reactor C) (s : σ) :
    r.pass other ready (f s) = (r.pass invoke ready s).map fun x => (x.1, x.2.1, f x.2.2) := by
  unfold pass
  dsimp only
  cases (r.snapshot ready).outstanding with
  | zero => rfl
  | succ n =>
    change (dispatch other (n + 1) none _ (f s) >>= _) =
      (dispatch invoke (n + 1) none _ s >>= _ : Checked _).map _
    rw [dispatch_map hf, Checked.bind_map, Checked.map_bind]
    rfl

/-- Callbacks that do the same with more known of a state make the same passes. -/
theorem monitor_map (poll : List Fd → Except OsError (Fd → SocketEvents)) (r : Reactor C) (s : σ) :
    r.monitor poll other (f s) =
      (r.monitor poll invoke s).map fun x => (x.1, x.2.1, f x.2.2) := by
  unfold monitor
  rw [Checked.map_bind]
  refine bind_congr fun admitted => ?_
  cases admitted with
  | error e => rfl
  | ok _ =>
    dsimp only
    cases settled (poll (r.registrations.toList.map (·.1))) with
    | error e => rfl
    | ok ready =>
      dsimp only
      split
      · rw [pass_map hf, Checked.bind_map, Checked.map_bind]
        rfl
      · rfl

end Reactor

theorem Bridge.between_map {P Q : Type} (f : Q → P) (left right : Q) (config : BridgeConfig) :
    Bridge.between (f left) (f right) config =
      (Bridge.between left right config).map fun made => made.map (Bridge.mapPipes f) := by
  unfold Bridge.between
  cases config.validate with
  | error e => rfl
  | ok _ =>
    dsimp only
    cases ByteBuffer.alloc config.bufferSize <;> rfl

namespace Relay

/-- The state of a relay over pipes of any kind, apart from its reactor. -/
structure Stage (P N : Type) where
  net : N
  bridge : Bridge P
  ending : Option Bool := none

namespace Stage

variable {P N : Type} [Sockets N] [Pipe P (Host N Side) Side]

/-- The callback of a side. -/
def invoke (side : Side) (events : SocketEvents) (r : Reactor Side) (x : Stage P N) :
    Checked (Reactor Side × Stage P N) := do
  let host : Host N Side := { net := x.net, reactor := r }
  let (ending, bridge, host) ← x.bridge.onActivity side events host
  return (host.reactor, { net := host.net, bridge, ending := x.ending.or ending })

variable [Polls N]

/-- Makes passes until the bridge ends, as a relay does. -/
def drive (statusInterval : Nat) : (others : List (N → N)) → Reactor Side → Stage P N →
    Checked (Except Failure (Option Bool) × Reactor Side × Stage P N)
  | [], r, x => .ok (.ok x.ending, r, x)
  | act :: others, r, x =>
    if x.ending.isSome then .ok (.ok x.ending, r, x)
    else do
      let x := { x with net := act x.net }
      let (result, r, x) ← r.monitor (Polls.poll · x.net) invoke x
      match result with
      | .error e => return (.error e, r, x)
      | .ok _ =>
        if statusInterval = 0 then throw .reportIntervalZero
        drive statusInterval others r x

/-- All that a relay does with a new bridge but for its release. -/
def run (others : List (N → N)) (statusInterval : Nat) (b : Bridge P) (net : N) :
    Checked (Except Failure (Option Bool) × Reactor Side × Stage P N) := do
  let host : Host N Side := { net, reactor := {} }
  let (result, bridge, host) ← b.attach id host
  match result with
  | .error e => return (.error e, host.reactor, { net := host.net, bridge })
  | .ok () => drive statusInterval others host.reactor { net := host.net, bridge }

/-- What a relay is left with after it gave up its pipes. -/
def released (x : Stage P N) (r : Reactor Side) : N :=
  (x.bridge.release ({ net := x.net, reactor := r } : Host N Side)).net

end Stage

section Erased

variable {P N : Type} [Sockets N] [Pipe P (Host N Side) Side] {f : P → Link}
  (hf : Pipe.Erases (Host N Side) f)

def Stage.world (f : P → Link) (x : Stage P N) : World N where
  net := x.net
  bridge := x.bridge.mapPipes f
  ending := x.ending

include hf

theorem invoke_world (side : Side) (events : SocketEvents) (r : Reactor Side) (x : Stage P N) :
    invoke side events r (x.world f) =
      (Stage.invoke side events r x).map fun y => (y.1, y.2.world f) := by
  unfold invoke Stage.invoke Stage.world
  dsimp only
  rw [Bridge.onActivity_mapPipes hf, Checked.bind_map, Checked.map_bind]
  rfl

variable [Polls N]

theorem drive_world (statusInterval : Nat) (others : List (N → N)) (r : Reactor Side)
    (x : Stage P N) :
    drive statusInterval others r (x.world f) =
      (Stage.drive statusInterval others r x).map fun y => (y.1, y.2.1, y.2.2.world f) := by
  induction others generalizing r x with
  | nil => rfl
  | cons act others ih =>
    unfold drive Stage.drive
    change (if x.ending.isSome then _ else _) = _
    split
    · rfl
    · rw [Checked.map_bind]
      change (r.monitor (Polls.poll · (act x.net)) _
        (({ x with net := act x.net } : Stage P N).world f) >>= _) = _
      rw [Reactor.monitor_map (invoke_world hf), Checked.bind_map]
      apply bind_congr
      rintro ⟨result, r, x⟩
      cases result with
      | error e => rfl
      | ok n =>
        dsimp only
        split
        · rfl
        · exact ih r x

/-- A relay with settings that can be used is a run over any pipes that do the same as its own. -/
theorem run_eq {c : RelayConfig} {others : List (N → N)} {accepted target : Fd} {net : N}
    {left right : P} {b : Bridge P} (hlinks : links c accepted target = .ok (f left, f right))
    (hb : Bridge.between left right c.bridge = .ok (.ok b))
    (hrelease : ∀ (p : P) (w : Host N Side), Pipe.release (f p) w = Pipe.release p w) :
    run others c accepted target net =
      (Stage.run others c.statusInterval b net).map fun y => (y.1, y.2.2.released y.2.1) := by
  have hnew : Bridge.between (f left) (f right) c.bridge = .ok (.ok (b.mapPipes f)) := by
    rw [Bridge.between_map, hb]
    rfl
  unfold run Stage.run
  simp only [hlinks, hnew, Checked.ok_bind, Bridge.attach_mapPipes hf, Checked.bind_map,
    Checked.map_bind]
  apply bind_congr
  rintro ⟨result, bridge, host⟩
  have hreleased (x : Stage P N) (r : Reactor Side) :
      ((x.world f).bridge.release ({ net := x.net, reactor := r } : Host N Side)).net =
        x.released r := by
    unfold Stage.released Bridge.release
    rw [← hrelease, ← hrelease]
    rfl
  cases result with
  | error e =>
    simp only [Checked.pure_eq_ok, Checked.ok_bind, Checked.map_ok]
    rw [← hreleased]
    rfl
  | ok _ =>
    change (drive c.statusInterval others host.reactor
      (({ net := host.net, bridge } : Stage P N).world f) >>= _) = _
    rw [drive_world hf, Checked.bind_map]
    dsimp only
    cases Stage.drive c.statusInterval others host.reactor
      ({ net := host.net, bridge } : Stage P N) with
    | error v => rfl
    | ok y =>
      simp only [Checked.pure_eq_ok, Checked.ok_bind, Checked.map_ok]
      rw [← hreleased]
      rfl

end Erased

end Relay

end DuplexRelay
