import DuplexRelay.Reactor.Basic

/-!
# Passes of a readiness loop

A pass takes a snapshot of what every registered descriptor is ready for, and then tells each of
them once, in ascending order. Callbacks may change the registrations meanwhile. A registration
that was not part of the snapshot has nothing to be told, so it does not matter where the walk
over the registrations goes on after such a change.

The walk ends because each callback takes one registration off the number of those that are still
to be told.
-/

namespace DuplexRelay.Reactor

variable {C σ : Type}

/-- What a registered descriptor is told of its readiness: only what it waits for, and exceptional
conditions always. -/
def observed (interest ready : SocketEvents) : SocketEvents where
  readable := interest.readable && ready.readable
  writable := interest.writable && ready.writable
  error := ready.error

def hasForced (r : Reactor C) : Bool :=
  r.registrations.toList.any fun (_, reg) => !reg.forced.isEmpty

def anyReady (ready : Fd → SocketEvents) (r : Reactor C) : Bool :=
  r.registrations.toList.any fun (fd, reg) => !(observed reg.interest (ready fd)).isEmpty

/-- Notes for each registration what it must be told in this pass. -/
def snapshot (ready : Fd → SocketEvents) (r : Reactor C) : Reactor C :=
  { r with registrations := r.registrations.mapValues fun fd reg =>
      { reg with
        pending := observed reg.interest (ready fd) ∪ reg.forced
        forced := .none } }

def outstanding (r : Reactor C) : Nat :=
  (r.registrations.toList.filter fun (_, reg) => !reg.pending.isEmpty).length

/-- The handles behind a given one, or all of them. -/
def handlesFrom (cursor : Option Handle) (r : Reactor C) : List Handle :=
  match cursor with
  | none => r.registrations.handles
  | some id => (r.registrations.handles.dropWhile (· ≠ id)).drop 1

structure Due (C : Type) where
  id : Handle
  events : SocketEvents
  callback : C

def due? (r : Reactor C) (id : Handle) : Option (Due C) := do
  let reg ← r.registrations.get? id
  let callback ← reg.callback
  if reg.pending.isEmpty then none else some ⟨id, reg.pending, callback⟩

def nextDue? (cursor : Option Handle) (r : Reactor C) : Option (Due C) :=
  (r.handlesFrom cursor).findSome? r.due?

def takeDue (id : Handle) (r : Reactor C) : Reactor C :=
  r.update id ({ · with pending := .none, callback := none })

/-- Puts a callback back after it ran, if its registration still exists. -/
def putBack (id : Handle) (callback : C) (r : Reactor C) : Reactor C :=
  r.update id fun reg => { reg with callback := reg.callback.or (some callback) }

/-- Tells up to `active` registrations what is pending for them, and counts them. The walk starts
over if a registration came or went, and stops if the reactor was discarded. -/
def dispatch (invoke : C → SocketEvents → Reactor C → σ → Checked (Reactor C × σ)) :
    (active : Nat) → Option Handle → Reactor C → σ → Checked (Nat × Reactor C × σ)
  | 0, _, r, s => .ok (0, r, s)
  | active + 1, cursor, r, s =>
    match r.nextDue? cursor with
    | none => .ok (0, r, s)
    | some due => do
      let (r, s) ← invoke due.callback due.events (r.takeDue due.id) s
      let r := r.putBack due.id due.callback
      if r.phase = .pendingDispose then
        return (1, r, s)
      else if r.touched then
        let (n, r, s) ← dispatch invoke active none { r with touched := false } s
        return (n + 1, r, s)
      else
        let (n, r, s) ← dispatch invoke active (some due.id) r s
        return (n + 1, r, s)

/-- The end of a pass: a discard that was put off is carried out. -/
def endPass (r : Reactor C) : Reactor C :=
  if r.phase = .pendingDispose then r.dispose else { r with phase := .idle }

/-- A pass must not be started from a callback, and not on a disposed reactor. -/
def admitPass (r : Reactor C) : Checked (Except Failure Unit) :=
  match r.phase with
  | .idle => .ok (.ok ())
  | .disposed => .ok (.error .reactorDiscarded)
  | .dispatching | .pendingDispose => .error .nestedMonitor

def pass (invoke : C → SocketEvents → Reactor C → σ → Checked (Reactor C × σ))
    (ready : Fd → SocketEvents) (r : Reactor C) (s : σ) : Checked (Nat × Reactor C × σ) :=
  let r := r.snapshot ready
  match r.outstanding with
  | 0 => .ok (0, r, s)
  | active => do
    let start := { r with phase := .dispatching, touched := false }
    let (n, r, s) ← dispatch invoke active none start s
    return (n, r.endPass, s)

/-- The readiness that an answer of the system stands for. An interrupted question counts as no
readiness. -/
def settled : Except OsError (Fd → SocketEvents) → Except OsError (Fd → SocketEvents)
  | .ok ready => .ok ready
  | .error e => if e.errorKind = .interrupted then .ok fun _ => .none else .error e

/-- Asks the system what the registered descriptors are ready for, and delivers that together with
the forced events. Gives the number of callbacks. -/
def monitor (poll : List Fd → Except OsError (Fd → SocketEvents))
    (invoke : C → SocketEvents → Reactor C → σ → Checked (Reactor C × σ))
    (r : Reactor C) (s : σ) : Checked (Except Failure Nat × Reactor C × σ) := do
  match ← r.admitPass with
  | .error e => return (.error e, r, s)
  | .ok () =>
    match settled (poll (r.registrations.toList.map (·.1))) with
    | .error e => return (.error (.selectFailed e), r, s)
    | .ok ready =>
      if r.anyReady ready || r.hasForced then
        let (n, r, s) ← r.pass invoke ready s
        return (.ok n, r, s)
      else
        return (.ok 0, r, s)

end DuplexRelay.Reactor
