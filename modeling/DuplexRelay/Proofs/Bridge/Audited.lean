import DuplexRelay.Proofs.Bridge.LinkExactness
import DuplexRelay.Proofs.Pipe.Erasure
import DuplexRelay.Proofs.Pipe.Ledger

/-! Links over logged sockets, with a record of what went in and out at the top. They run as the
links themselves do, and their ledgers stay balanced. -/

namespace DuplexRelay

open Relay (Link)

theorem Pipe.Below.upholds {P B W C : Type} [Pipe P W C] {base : P → B} {K : B → Prop}
    (h : Pipe.Below (W := W) base fun p _ p' _ => K p → K p') :
    Pipe.Upholds W fun p => K (base p) where
  recv hk hr _ := h.recv hr hk
  send hk hs _ := h.send hs hk
  sendFin hk hc := h.sendFin hc hk
  react hk hr _ := h.react hr hk

theorem SendsWithin.of_erases {P Q W C : Type} [Pipe P W C] [Pipe Q W C] {f : Q → P}
    (hf : Pipe.Erases W f) (h : SendsWithin P W) : SendsWithin Q W := by
  intro data q q' w w' n hs
  have hsend := hf.send data q w
  rw [hs] at hsend
  exact h hsend

namespace Logged

/-- Nothing was sent after the way out was closed. -/
def ClosedLast (l : Logged Tcp) : Prop :=
  l.pipe.bits.finSent = true → ∃ before after : List PipeCall,
    l.calls = before ++ .closed (.ok .sent) :: after ∧ ∀ data answer, .sent data answer ∉ after

theorem closedLast_of_open {l : Logged Tcp} (h : l.pipe.bits.finSent = false) : l.ClosedLast :=
  fun hs => absurd (h.symm.trans hs) Bool.false_ne_true

theorem ClosedLast.note {l : Logged Tcp} {call : PipeCall} {p : Tcp} (h : l.ClosedLast)
    (hcall : ∀ data answer, call ≠ .sent data answer)
    (hp : p.bits.finSent = l.pipe.bits.finSent) : (l.note call p).ClosedLast := by
  intro hs
  obtain ⟨before, after, hcalls, hafter⟩ := h (hp.symm.trans hs)
  refine ⟨before, after ++ [call], ?_, ?_⟩
  · change l.calls ++ [call] = _
    rw [hcalls, List.append_assoc, List.cons_append]
  · intro data answer hmem
    rcases List.mem_append.mp hmem with hold | hnew
    · exact hafter data answer hold
    · exact hcall data answer (List.mem_singleton.mp hnew).symm

theorem below_closedLast {N C : Type} [Sockets N] :
    Pipe.Below (W := Host N C) (id : Logged Tcp → Logged Tcp) fun l _ l' _ =>
      l.ClosedLast → l'.ClosedLast where
  recv := by
    intro n l l' w w' result h hl
    obtain ⟨⟨_, p, _⟩, hrecv, heq⟩ := Checked.map_eq_ok_iff.mp h
    cases heq
    exact hl.note nofun (Tcp.received_bits hrecv).1
  send := by
    intro data l l' w w' result h _
    obtain ⟨⟨_, p, _⟩, hsend, heq⟩ := Checked.map_eq_ok_iff.mp h
    cases heq
    -- a socket that was closed before refuses to send
    have hopen : l.pipe.bits.finSent = false := by
      cases Tcp.transmitted hsend with
      | broken hf | taken hf | refused hf | failed hf => exact hf
    exact closedLast_of_open ((Tcp.transmitted_bits hsend).1.trans hopen)
  sendFin := by
    intro l l' w w' result h _
    obtain ⟨⟨_, p, _⟩, hclose, heq⟩ := Checked.map_eq_ok_iff.mp h
    cases heq
    cases Tcp.shutDown_outcome hclose with
    | broken hf => exact closedLast_of_open hf
    | failed hf _ _ hs =>
      apply closedLast_of_open
      change p.bits.finSent = false
      rw [hs.pipe]
      exact hf
    | done => exact fun _ => ⟨l.calls, [], rfl, fun _ _ => List.not_mem_nil⟩
  react := by
    intro events l l' w w' report h hl
    obtain ⟨⟨_, p, _⟩, hreact, heq⟩ := Checked.map_eq_ok_iff.mp h
    cases heq
    exact hl.note nofun (Tcp.noticed_bits hreact).1
  reschedule _ _ := id

end Logged

/-- A connection with records of what its owner did and of the calls of its socket. -/
abbrev Audited := Recorded (Stack (Logged Tcp))

namespace Audited

variable {N C : Type} [Sockets N]

def fresh (p : Link) : Audited := Recorded.fresh (p.rebase Logged.fresh)

def link (a : Audited) : Link := a.pipe.rebase Logged.pipe

def calls (a : Audited) : List PipeCall := a.pipe.base.calls

@[simp] theorem link_fresh (p : Link) : (fresh p).link = p := by
  change (p.rebase Logged.fresh).rebase Logged.pipe = p
  rw [Stack.rebase_rebase]
  exact Stack.rebase_id p

theorem erases : Pipe.Erases (Host N C) link :=
  (Stack.erases_rebase Logged.erases).comp Recorded.erases

theorem sendsWithin [LawfulSockets N] : SendsWithin (Stack (Logged Tcp)) (Host N C) :=
  Stack.sendsWithin (SendsWithin.of_erases Logged.erases Tcp.sendsWithin)

/-- The records agree with the calls of the socket, and nothing was sent after it was closed. -/
structure Sound (a : Audited) : Prop where
  balanced : Stack.ledger.Balanced a
  last : a.pipe.base.ClosedLast

theorem upholds_sound : Pipe.Upholds (Host N C) Sound := by
  have hledger : Pipe.Upholds (Host N C) (Stack.ledger (P := Tcp)).Balanced :=
    Ledger.upholds Stack.ledger_lawful
  have hchained : Chained fun (l : Logged Tcp) (_ : Host N C) (l' : Logged Tcp) (_ : Host N C) =>
      l.ClosedLast → l'.ClosedLast := ⟨fun _ _ => id, fun h h' => h' ∘ h⟩
  have hlast : Pipe.Upholds (Host N C) fun a : Audited => a.pipe.base.ClosedLast :=
    (Recorded.below (Stack.below hchained Logged.below_closedLast)).upholds
  exact {
    recv := fun h hr hm => ⟨hledger.recv h.balanced hr hm, hlast.recv h.last hr hm⟩
    send := fun h hs hm => ⟨hledger.send h.balanced hs hm, hlast.send h.last hs hm⟩
    sendFin := fun h hc => ⟨hledger.sendFin h.balanced hc, hlast.sendFin h.last hc⟩
    react := fun h hr hb => ⟨hledger.react h.balanced hr hb, hlast.react h.last hr hb⟩ }

end Audited

namespace Stacked

variable {P Q : Type} (f : Q → P)

theorem rest_rebase (layers : List Layer) (p : Stacked Q layers) :
    rest layers (rebase f layers p) = rest layers p := by
  induction layers with
  | nil => rfl
  | cons layer layers ih =>
    cases layer with
    | atomic => exact ih (Atomic.inner p)
    | datagram => exact congrArg (· ++ Datagram.assembled p) (ih (Datagram.inner p).inner)

theorem held_rebase (layers : List Layer) (p : Stacked Q layers) :
    held layers (rebase f layers p) = held layers p := by
  induction layers with
  | nil => rfl
  | cons layer layers ih =>
    cases layer with
    | atomic => exact congrArg (· ++ Atomic.unsent p) (ih (Atomic.inner p))
    | datagram =>
      exact congrArg (· ++ Atomic.unsent (Datagram.inner p)) (ih (Datagram.inner p).inner)

theorem held_eq_nil {layers : List Layer} {p : Stacked Tcp layers}
    (h : ¬(outlook layers).holding p) : held layers p = [] := by
  have hatomic : ∀ {layers : List Layer} {a : Atomic (Stacked Tcp layers)},
      (¬(outlook layers).holding a.inner → held layers a.inner = []) →
      ¬(a.queue ≠ none ∨ (outlook layers).holding a.inner) →
      held layers a.inner ++ a.unsent = [] := by
    intro layers a ih h
    have hq : a.queue = none := not_not.mp fun hn => h (.inl hn)
    rw [ih fun hheld => h (.inr hheld)]
    simp [Atomic.unsent, hq]
  induction layers with
  | nil => rfl
  | cons layer layers ih =>
    cases layer with
    | atomic => exact hatomic ih h
    | datagram => exact hatomic ih h

end Stacked

end DuplexRelay
