import DuplexRelay.Proofs.Bridge.Metered
import DuplexRelay.Proofs.Pipe.Faults
import DuplexRelay.Proofs.Pipe.Intake
import DuplexRelay.Relay.Run

/-! Sizes that pipes are asked for. Pipes that keep readings of what was handed over show over a
whole run that receives have the room and that what is sent can be framed. -/

namespace DuplexRelay

namespace Datagram

variable {P W C : Type} [Pipe P W C] {p p' : Datagram P} {w w' : W}

theorem maxSize_recv {room : Nat} {result : PipeResult Recv}
    (h : Pipe.recv room p w = .ok (result, p', w')) : p'.maxSize = p.maxSize := by
  have hview : p'.view.maxSize = p.view.maxSize := by
    have houtcome := received h
    generalize p'.view = v' at houtcome
    cases houtcome <;> rfl
  exact hview

theorem maxSize_send {data : Bytes} {result : PipeResult Nat}
    (h : Pipe.send data p w = .ok (result, p', w')) : p'.maxSize = p.maxSize := by
  cases sent h <;> rfl

theorem maxSize_sendFin {result : PipeResult FinStatus}
    (h : Pipe.sendFin p w = .ok (result, p', w')) : p'.maxSize = p.maxSize := by
  rcases closed h with ⟨_, _, rfl, _⟩ | ⟨_, inner, _, rfl⟩
  · rfl
  · rfl

theorem maxSize_react {events : SocketEvents} {report : PipeEvents}
    (h : Pipe.react events p w = .ok (report, p', w')) : p'.maxSize = p.maxSize := by
  obtain ⟨⟨_, inner, _⟩, _, heq⟩ := Checked.bind_eq_ok_iff.mp h
  cases heq
  rfl

theorem maxSize_attach {callback : C} {result : Except Failure Unit}
    (h : Pipe.attach callback p w = .ok (result, p', w')) : p'.maxSize = p.maxSize := by
  obtain ⟨⟨_, inner, _⟩, _, heq⟩ := Checked.bind_eq_ok_iff.mp h
  cases heq
  rfl

end Datagram

namespace Stack

open Relay (Link)

/-- A connection that frames datagrams of up to so many bytes, or does not frame any. -/
inductive Limited : Option Nat → Link → Prop
  | bare (tcp : Tcp) : Limited none (.bare tcp)
  | framed (p : Datagram Tcp) : Limited (some p.maxSize) ⟨[.datagram], p⟩

variable {N C : Type} [Sockets N] {s s' : Link} {w w' : Host N C} {limit : Option Nat}

theorem limited_of_maxSize {p p' : Datagram Tcp} (h : p'.maxSize = p.maxSize) :
    Limited (some p.maxSize) ⟨[.datagram], p'⟩ := by
  rw [← h]
  exact .framed p'

theorem Limited.recv [LawfulSockets N] {room : Nat} {result : PipeResult Recv}
    (hs : s.Limited limit) (hroom : ∀ n, limit = some n → n ≤ room)
    (h : Pipe.recv room s w = .ok (result, s', w')) : s'.Limited limit ∧
      (∀ chunk, result = .ok (.data chunk) → chunk.length ≤ room) ∧
      ∀ reason, result = .error (.protocol reason) → ∃ n, limit = some n ∧
        Datagram.Faulty n reason := by
  cases hs with
  | bare p =>
    obtain ⟨p', hrecv, rfl⟩ := rewrap_eq_ok h
    refine ⟨.bare p', ?_, ?_⟩
    · rintro chunk rfl
      exact Tcp.recv_le hrecv
    · rintro reason rfl
      exact absurd hrecv Tcp.faultless
  | framed p =>
    obtain ⟨p', hrecv, rfl⟩ := rewrap_eq_ok h
    refine ⟨limited_of_maxSize (Datagram.maxSize_recv (P := Tcp) hrecv), ?_, ?_⟩
    · rintro chunk rfl
      exact Datagram.recv_le (P := Tcp) hrecv
    · rintro reason rfl
      exact ⟨_, rfl, Datagram.faulty_of_recv (P := Tcp) Tcp.faultless (hroom _ rfl) hrecv⟩

theorem Limited.send {data : Bytes} {result : PipeResult Nat} (hs : s.Limited limit)
    (h : Pipe.send data s w = .ok (result, s', w')) : s'.Limited limit := by
  cases hs with
  | bare p =>
    obtain ⟨p', _, rfl⟩ := rewrap_eq_ok h
    exact .bare p'
  | framed p =>
    obtain ⟨p', hsend, rfl⟩ := rewrap_eq_ok h
    exact limited_of_maxSize (Datagram.maxSize_send (P := Tcp) hsend)

theorem Limited.sendFin {result : PipeResult FinStatus} (hs : s.Limited limit)
    (h : Pipe.sendFin s w = .ok (result, s', w')) : s'.Limited limit := by
  cases hs with
  | bare p =>
    obtain ⟨p', _, rfl⟩ := rewrap_eq_ok h
    exact .bare p'
  | framed p =>
    obtain ⟨p', hclose, rfl⟩ := rewrap_eq_ok h
    exact limited_of_maxSize (Datagram.maxSize_sendFin (P := Tcp) hclose)

theorem Limited.react {events : SocketEvents} {report : PipeEvents} (hs : s.Limited limit)
    (h : Pipe.react events s w = .ok (report, s', w')) : s'.Limited limit := by
  cases hs with
  | bare p =>
    obtain ⟨p', _, rfl⟩ := rewrap_eq_ok h
    exact .bare p'
  | framed p =>
    obtain ⟨p', hreact, rfl⟩ := rewrap_eq_ok h
    exact limited_of_maxSize (Datagram.maxSize_react (P := Tcp) hreact)

theorem Limited.attach {callback : C} {result : Except Failure Unit} (hs : s.Limited limit)
    (h : Pipe.attach callback s w = .ok (result, s', w')) : s'.Limited limit := by
  cases hs with
  | bare p =>
    obtain ⟨p', _, rfl⟩ := rewrap_eq_ok h
    exact .bare p'
  | framed p =>
    obtain ⟨p', hattach, rfl⟩ := rewrap_eq_ok h
    exact limited_of_maxSize (Datagram.maxSize_attach (P := Tcp) hattach)

end Stack

/-- A call that hands bytes over, by what it was asked for. -/
inductive Reading where
  | received (room : Nat) (answer : PipeResult Recv)
  | sent (data : Bytes)

def Reading.bytes : Reading → Bytes
  | received _ (.ok (.data chunk)) => chunk
  | received _ _ => []
  | sent data => data

/-- A receive stays inside a buffer of this size and does not fail for want of room. What is sent
can be framed. -/
def Reading.Within (size : Nat) (limit : Option Nat) : Reading → Prop
  | received room answer => room ≤ size ∧
      ∀ n m, answer ≠ .error (.protocol (Datagram.exceedsRoom n m))
  | sent data => ∀ n, limit = some n → data.length ≤ n

/-- A pipe with readings of all that was handed over, the first one first. -/
structure Gauged (P : Type) where
  pipe : P
  readings : List Reading := []

namespace Gauged

variable {P W C : Type}

def fresh (pipe : P) : Gauged P := { pipe }

/-- Adds a reading of a call that left the pipe as it is given here. -/
def take (g : Gauged P) (reading : Reading) (pipe : P) : Gauged P where
  pipe
  readings := g.readings ++ [reading]

instance [HasPipeState P] : HasPipeState (Gauged P) where
  state g := state g.pipe

instance [Pipe P W C] : Pipe (Gauged P) W C where
  attach callback g w :=
    (Pipe.attach callback g.pipe w).map fun (r, pipe, w) => (r, { g with pipe }, w)
  recv n g w := (Pipe.recv n g.pipe w).map fun (r, pipe, w) => (r, g.take (.received n r) pipe, w)
  send data g w :=
    (Pipe.send data g.pipe w).map fun (r, pipe, w) => (r, g.take (.sent data) pipe, w)
  sendFin g w := (Pipe.sendFin g.pipe w).map fun (r, pipe, w) => (r, { g with pipe }, w)
  react events g w := (Pipe.react events g.pipe w).map fun (r, pipe, w) => (r, { g with pipe }, w)
  rescheduleRead g w := Pipe.rescheduleRead g.pipe w
  release g w := Pipe.release g.pipe w
  backlog g w := Pipe.backlog g.pipe w

theorem erases [Pipe P W C] : Pipe.Erases W (Gauged.pipe : Gauged P → P) := by
  refine ⟨fun _ => rfl, ?_, ?_, ?_, ?_, ?_, fun _ _ => rfl, fun _ _ => rfl⟩
  · intro c g w
    cases h : Pipe.attach c g.pipe w <;> simp [Pipe.attach, h, Except.map]
  · intro n g w
    cases h : Pipe.recv n g.pipe w <;> simp [Pipe.recv, h, Except.map, take]
  · intro d g w
    cases h : Pipe.send d g.pipe w <;> simp [Pipe.send, h, Except.map, take]
  · intro g w
    cases h : Pipe.sendFin g.pipe w <;> simp [Pipe.sendFin, h, Except.map]
  · intro e g w
    cases h : Pipe.react e g.pipe w <;> simp [Pipe.react, h, Except.map]

open Relay (Link)

/-- A connection with these limits, all of whose readings are within them. -/
structure Sized (size : Nat) (limit : Option Nat) (g : Gauged Link) : Prop where
  limited : g.pipe.Limited limit
  readings : ∀ reading ∈ g.readings, reading.Within size limit

variable {N : Type} [Sockets N] {size room most : Nat} {limit : Option Nat} {g g' : Gauged Link}
  {w w' : Host N C}

theorem Sized.take {reading : Reading} {p : Link} (h : Sized size limit g)
    (hp : p.Limited limit) (hr : reading.Within size limit) :
    Sized size limit (g.take reading p) := by
  refine ⟨hp, fun r hmem => ?_⟩
  rcases List.mem_append.mp hmem with hold | hnew
  · exact h.readings r hold
  · rwa [List.mem_singleton.mp hnew]

theorem Sized.attach {callback : C} {result : Except Failure Unit} (h : Sized size limit g)
    (ha : Pipe.attach callback g w = .ok (result, g', w')) : Sized size limit g' := by
  obtain ⟨⟨_, p, _⟩, hattach, heq⟩ := Checked.map_eq_ok_iff.mp ha
  cases heq
  exact ⟨h.limited.attach hattach, h.readings⟩

/-- Readings stay within the limits if a receive has room for the largest datagram, and if no more
is sent than that. -/
theorem metered [LawfulSockets N] (hsize : room ≤ size) (hroom : ∀ n, limit = some n → n ≤ room)
    (hmost : ∀ n, limit = some n → most ≤ n) :
    Pipe.Metered (Host N C) room most (Sized size limit) (Sized size limit) where
  sound := id
  recv := by
    intro g g' w w' result h hr
    obtain ⟨⟨_, p, _⟩, hrecv, heq⟩ := Checked.map_eq_ok_iff.mp hr
    cases heq
    obtain ⟨hp, hle, hfaulty⟩ := h.limited.recv hroom hrecv
    have htaken : Sized size limit (g.take (.received room result) p) := by
      refine h.take hp ⟨hsize, fun n m hfail => ?_⟩
      obtain ⟨_, _, hfault⟩ := hfaulty _ hfail
      exact hfault.ne_exceedsRoom n m rfl
    exact ⟨htaken, fun _ => htaken, hle⟩
  send := by
    intro data g g' w w' result h hle hs
    obtain ⟨⟨_, p, _⟩, hsend, heq⟩ := Checked.map_eq_ok_iff.mp hs
    cases heq
    have htaken : Sized size limit (g.take (.sent data) p) :=
      h.take (h.limited.send hsend) fun n hn => Nat.le_trans hle (hmost n hn)
    exact ⟨htaken, fun _ => htaken⟩
  sendFin := by
    intro g g' w w' result h hc
    obtain ⟨⟨_, p, _⟩, hclose, heq⟩ := Checked.map_eq_ok_iff.mp hc
    cases heq
    have hkept : Sized size limit { g with pipe := p } := ⟨h.limited.sendFin hclose, h.readings⟩
    exact ⟨hkept, fun _ => hkept⟩
  react := by
    intro events g g' w w' report h hr
    obtain ⟨⟨_, p, _⟩, hreact, heq⟩ := Checked.map_eq_ok_iff.mp hr
    cases heq
    have hkept : Sized size limit { g with pipe := p } := ⟨h.limited.react hreact, h.readings⟩
    exact ⟨hkept, fun _ => hkept⟩

end Gauged

end DuplexRelay
