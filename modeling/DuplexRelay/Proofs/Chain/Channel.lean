import DuplexRelay.Proofs.Bridge.LinkExactness
import DuplexRelay.Proofs.Chain.Ports
import DuplexRelay.Proofs.Pipe.Below
import DuplexRelay.Proofs.Pipe.Framing

/-! The connections of a relay, which are framed or not, with what each operation of them does to
the track of the socket at the bottom. -/

namespace DuplexRelay

/-- A connection of a relay. -/
inductive Channel where
  | plain (p : Tcp)
  | framed (p : Datagram Tcp)

namespace Channel

variable {N W C α : Type}

/-- The socket pipe at the bottom. -/
def base : Channel → Tcp
  | plain p => p
  | framed p => p.inner.inner

def link : Channel → Relay.Link
  | plain p => .bare p
  | framed p => ⟨[.datagram], p⟩

def ofPlain (result : Checked (α × Tcp × W)) : Checked (α × Channel × W) :=
  result.map fun x => (x.1, plain x.2.1, x.2.2)

def ofFramed (result : Checked (α × Datagram Tcp × W)) : Checked (α × Channel × W) :=
  result.map fun x => (x.1, framed x.2.1, x.2.2)

instance : HasPipeState Channel where
  state
    | plain p => state p
    | framed p => state p

instance [Sockets N] : Pipe Channel (Host N C) C where
  attach callback
    | plain p, w => ofPlain (Pipe.attach callback p w)
    | framed p, w => ofFramed (Pipe.attach callback p w)
  recv n
    | plain p, w => ofPlain (Pipe.recv n p w)
    | framed p, w => ofFramed (Pipe.recv n p w)
  send data
    | plain p, w => ofPlain (Pipe.send data p w)
    | framed p, w => ofFramed (Pipe.send data p w)
  sendFin
    | plain p, w => ofPlain (Pipe.sendFin p w)
    | framed p, w => ofFramed (Pipe.sendFin p w)
  react events
    | plain p, w => ofPlain (Pipe.react events p w)
    | framed p, w => ofFramed (Pipe.react events p w)
  rescheduleRead
    | plain p, w => Pipe.rescheduleRead p w
    | framed p, w => Pipe.rescheduleRead p w
  release
    | plain p, w => Pipe.release p w
    | framed p, w => Pipe.release p w
  backlog
    | plain p, w => Pipe.backlog p w
    | framed p, w => Pipe.backlog p w

theorem ofPlain_eq_ok {result : Checked (α × Tcp × W)} {a : α} {c : Channel} {w : W}
    (h : ofPlain result = .ok (a, c, w)) : ∃ p, result = .ok (a, p, w) ∧ c = plain p := by
  obtain ⟨⟨a, p, w⟩, hresult, heq⟩ := Checked.map_eq_ok_iff.mp h
  cases heq
  exact ⟨p, hresult, rfl⟩

theorem ofFramed_eq_ok {result : Checked (α × Datagram Tcp × W)} {a : α} {c : Channel} {w : W}
    (h : ofFramed result = .ok (a, c, w)) : ∃ p, result = .ok (a, p, w) ∧ c = framed p := by
  obtain ⟨⟨a, p, w⟩, hresult, heq⟩ := Checked.map_eq_ok_iff.mp h
  cases heq
  exact ⟨p, hresult, rfl⟩

theorem rewrap_ofPlain (result : Checked (α × Tcp × W)) :
    Stack.rewrap [] result = (ofPlain result).map fun x => (x.1, x.2.1.link, x.2.2) := by
  cases result <;> rfl

theorem rewrap_ofFramed (result : Checked (α × Datagram Tcp × W)) :
    Stack.rewrap [.datagram] result =
      (ofFramed result).map fun x => (x.1, x.2.1.link, x.2.2) := by
  cases result <;> rfl

theorem erases [Sockets N] : Pipe.Erases (C := C) (Host N C) (link : Channel → Relay.Link) where
  state c := by cases c <;> rfl
  attach callback c w := by
    cases c with
    | plain p => exact rewrap_ofPlain _
    | framed p => exact rewrap_ofFramed _
  recv n c w := by
    cases c with
    | plain p => exact rewrap_ofPlain _
    | framed p => exact rewrap_ofFramed _
  send data c w := by
    cases c with
    | plain p => exact rewrap_ofPlain _
    | framed p => exact rewrap_ofFramed _
  sendFin c w := by
    cases c with
    | plain p => exact rewrap_ofPlain _
    | framed p => exact rewrap_ofFramed _
  react events c w := by
    cases c with
    | plain p => exact rewrap_ofPlain _
    | framed p => exact rewrap_ofFramed _
  rescheduleRead c w := by cases c <;> rfl
  backlog c w := by cases c <;> rfl

theorem sendsWithin [Sockets N] [LawfulSockets N] : SendsWithin Channel (Host N C) := by
  intro data c c' w w' n h
  cases c with
  | plain p =>
    obtain ⟨_, h, _⟩ := ofPlain_eq_ok h
    exact Tcp.sendsWithin h
  | framed p =>
    obtain ⟨_, h, _⟩ := ofFramed_eq_ok h
    exact Datagram.sendsWithin h

theorem below [Sockets N] {T : Tcp → Host N C → Tcp → Host N C → Prop} (hT : Chained T)
    (h : Pipe.Below (id : Tcp → Tcp) T) : Pipe.Below base T := by
  have hframed : Pipe.Below (fun p : Datagram Tcp => p.inner.inner) T :=
    Datagram.below hT (Atomic.below hT h)
  refine ⟨?_, ?_, ?_, ?_, ?_⟩
  · intro n c c' w w' result hrecv
    cases c with
    | plain p =>
      obtain ⟨_, hplain, rfl⟩ := ofPlain_eq_ok hrecv
      exact h.recv hplain
    | framed p =>
      obtain ⟨_, hwhole, rfl⟩ := ofFramed_eq_ok hrecv
      exact hframed.recv hwhole
  · intro data c c' w w' result hsend
    cases c with
    | plain p =>
      obtain ⟨_, hplain, rfl⟩ := ofPlain_eq_ok hsend
      exact h.send hplain
    | framed p =>
      obtain ⟨_, hwhole, rfl⟩ := ofFramed_eq_ok hsend
      exact hframed.send hwhole
  · intro c c' w w' result hclose
    cases c with
    | plain p =>
      obtain ⟨_, hplain, rfl⟩ := ofPlain_eq_ok hclose
      exact h.sendFin hplain
    | framed p =>
      obtain ⟨_, hwhole, rfl⟩ := ofFramed_eq_ok hclose
      exact hframed.sendFin hwhole
  · intro events c c' w w' report hreact
    cases c with
    | plain p =>
      obtain ⟨_, hplain, rfl⟩ := ofPlain_eq_ok hreact
      exact h.react hplain
    | framed p =>
      obtain ⟨_, hwhole, rfl⟩ := ofFramed_eq_ok hreact
      exact hframed.react hwhole
  · intro c w
    cases c with
    | plain p => exact h.reschedule p w
    | framed p => exact hframed.reschedule p w

end Channel

end DuplexRelay
