import DuplexRelay.Failure
import DuplexRelay.OrderedMap
import DuplexRelay.SocketEvents

/-!
# Registrations of a readiness loop

A reactor keeps one registration per descriptor: what it waits for, what it must be told in the
present pass, what it must be told in the next pass in any case, and its callback. Callbacks are
values of a type `C`; whoever runs a pass says what calling one of them does.

Registrations may be added, changed and removed at any time, also while a callback runs. A reactor
that is discarded in the middle of a pass keeps its registrations to the end of that pass.
-/

namespace DuplexRelay

def Fd.order (a b : Fd) : Ordering := compare a b

structure Registration (C : Type) where
  interest : SocketEvents
  /-- events of the present pass that were not delivered yet -/
  pending : SocketEvents := .none
  /-- events that the next pass delivers whether or not they are observed -/
  forced : SocketEvents := .none
  /-- absent while it runs -/
  callback : Option C

inductive Phase where
  | idle
  | dispatching
  /-- discarded by a callback, to be carried out at the end of the pass -/
  | pendingDispose
  | disposed
  deriving DecidableEq

structure Reactor (C : Type) where
  registrations : OrderedMap Fd (Registration C) Fd.order := .empty
  /-- a registration came or went since the last look at the first descriptor -/
  touched : Bool := false
  phase : Phase := .idle

namespace Reactor

variable {C : Type}

/-- Descriptors from this number on can not be waited for. -/
def descriptorLimit : Nat := 1024

def selectable (fd : Fd) : Bool := 0 ≤ fd && fd < descriptorLimit

def isDisposed (r : Reactor C) : Bool := r.phase = .pendingDispose || r.phase = .disposed

def count (r : Reactor C) : Nat := r.registrations.size

def registration? (r : Reactor C) (fd : Fd) : Option (Registration C) :=
  (r.registrations.find? fd).bind r.registrations.get?

def isRegistered (r : Reactor C) (fd : Fd) : Bool := (r.registrations.find? fd).isSome

def interest? (r : Reactor C) (fd : Fd) : Option SocketEvents :=
  (r.registration? fd).map (·.interest)

def update (id : Handle) (f : Registration C → Registration C) (r : Reactor C) : Reactor C :=
  { r with registrations := r.registrations.modify id f }

def add (fd : Fd) (interest : SocketEvents) (callback : C) (r : Reactor C) :
    Checked (Except Failure (Reactor C)) :=
  if r.isDisposed then .ok (.error .reactorDiscarded)
  else if !selectable fd then .ok (.error (.descriptorOutOfRange fd))
  else
    match r.registrations.insert fd { interest, callback := some callback } with
    | (.existing _, _) => .error (.registeredAlready fd)
    | (.added _, registrations) => .ok (.ok { r with registrations, touched := true })

/-- Changes what a descriptor waits for. The descriptor must be registered, unless the reactor is
disposed. -/
def modify (fd : Fd) (interest : SocketEvents) (r : Reactor C) : Checked (Reactor C) :=
  if r.phase = .disposed then .ok r
  else
    match r.registrations.find? fd with
    | some id => .ok (r.update id ({ · with interest }))
    | none => .error (.notRegistered fd)

/-- Removes the registration of a descriptor, if there is one. -/
def del (fd : Fd) (r : Reactor C) : Reactor C :=
  match r.registrations.find? fd with
  | some id => { r with registrations := (r.registrations.erase id).2, touched := true }
  | none => r

/-- Has the next pass deliver events to a descriptor, whether or not they are observed. Tells
whether the descriptor is registered. -/
def reschedule (fd : Fd) (events : SocketEvents) (r : Reactor C) : Bool × Reactor C :=
  match r.registrations.find? fd with
  | some id => (true, r.update id fun reg => { reg with forced := reg.forced ∪ events })
  | none => (false, r)

def dispose (r : Reactor C) : Reactor C :=
  { r with registrations := r.registrations.drain.2, phase := .disposed }

/-- Ends the reactor, at once or with the running pass. -/
def discard (r : Reactor C) : Checked (Reactor C) :=
  match r.phase with
  | .idle => .ok r.dispose
  | .dispatching => .ok { r with phase := .pendingDispose }
  | .pendingDispose | .disposed => .error .discardedTwice

end Reactor

end DuplexRelay
