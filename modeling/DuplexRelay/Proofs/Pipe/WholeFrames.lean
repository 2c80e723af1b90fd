import DuplexRelay.Proofs.Pipe.Answering
import DuplexRelay.Proofs.Pipe.FrameSends

/-! The frames that the sends of a datagram pipe make up. The bytes that the pipe at the bottom
took, and behind them the queue, are the frames of the datagrams that were accepted, one behind the
other. A frame is cut in one place at most, and what is missing of it goes out before anything
else. -/

namespace DuplexRelay

/-- Sends come to a result, and so does the notice of readiness, as long as the pipe is `good`. -/
structure Pipe.SendsAnswered {P W C : Type} [Pipe P W C] (good : P → W → Prop) : Prop where
  send : ∀ (data : Bytes) {p : P} {w : W}, good p w →
    ∃ result p' w', Pipe.send data p w = .ok (result, p', w') ∧ good p' w'
  react : ∀ (events : SocketEvents) {p : P} {w : W}, good p w →
    ∃ report p' w', Pipe.react events p w = .ok (report, p', w') ∧ good p' w'

/-- A send, or the notice of readiness. -/
def PipeUse.Outbound {C : Type} : PipeUse C → Prop
  | send _ | react _ => True
  | _ => False

theorem Pipe.SendsAnswered.useAll {P W C : Type} [Pipe P W C] {good : P → W → Prop}
    {turns : List (PipeTurn W C)} {p : P} {w : W} (hg : SendsAnswered good)
    (hm : ∀ turn ∈ turns, ∀ p w, good p w → good p (turn.meanwhile w))
    (hu : ∀ turn ∈ turns, turn.use.Outbound) (h : good p w) :
    ∃ x, Pipe.useAll turns p w = .ok x := by
  induction turns generalizing p w with
  | nil => exact ⟨(p, w), rfl⟩
  | cons turn rest ih =>
    have hready := hm turn List.mem_cons_self p w h
    have hcall : ∃ p' w', Pipe.perform p (turn.meanwhile w) turn.use = .ok (p', w') ∧
        good p' w' := by
      have houtbound := hu turn List.mem_cons_self
      cases huse : turn.use with
      | send data =>
        obtain ⟨result, p', w', hsend, hgood⟩ := hg.send data hready
        exact ⟨p', w', by rw [Pipe.perform, hsend]; rfl, hgood⟩
      | react events =>
        obtain ⟨report, p', w', hreact, hgood⟩ := hg.react events hready
        exact ⟨p', w', by rw [Pipe.perform, hreact]; rfl, hgood⟩
      | attach | recv | sendFin | reschedule =>
        rw [huse] at houtbound
        exact houtbound.elim
    obtain ⟨p', w', hcall, hgood⟩ := hcall
    obtain ⟨x, hrest⟩ := ih (fun turn hturn => hm turn (List.mem_cons_of_mem _ hturn))
      (fun turn hturn => hu turn (List.mem_cons_of_mem _ hturn)) hgood
    refine ⟨x, ?_⟩
    rw [Pipe.useAll, hcall]
    exact hrest

namespace Atomic

variable {P W C : Type} [Pipe P W C] {good : P → W → Prop} {p : Atomic P} {w : W}

theorem flushQueue_sendsAnswered (hg : Pipe.SendsAnswered good) (events : PipeEvents)
    (h : good p.inner w) : ∃ report p' w', flushQueue events p w = .ok (report, p', w') ∧
      good p'.inner w' ∧ p'.finWanted = p.finWanted := by
  unfold flushQueue
  cases p.queue with
  | none => exact ⟨_, _, _, rfl, h, rfl⟩
  | some queue =>
    obtain ⟨result, inner, w', hsend, hgood⟩ := hg.send queue.live h
    dsimp only
    rw [hsend]
    cases result with
    | error e => exact ⟨_, _, _, rfl, hgood, rfl⟩
    | ok n =>
      simp only [Checked.ok_bind]
      split
      · rename_i hn
        obtain ⟨rest, hrest, _⟩ := ByteBuffer.consume_eq_ok (Nat.le_of_lt hn)
        rw [hrest]
        exact ⟨_, _, _, rfl, hgood, rfl⟩
      · exact ⟨_, _, _, rfl, hgood, rfl⟩

theorem sendsAnswered (hg : Pipe.SendsAnswered good) :
    Pipe.SendsAnswered fun (p : Atomic P) w => good p.inner w ∧ p.finWanted = false where
  send := by
    rintro data p w ⟨h, hf⟩
    change ∃ result p' w', sendWhole data p w = .ok (result, p', w') ∧ _
    unfold sendWhole
    simp only [hf, Bool.false_eq_true, if_false]
    split
    · exact ⟨_, _, _, rfl, h, hf⟩
    obtain ⟨result, inner, w', hsend, hgood⟩ := hg.send data h
    rw [hsend]
    cases result with
    | error e => exact ⟨_, _, _, rfl, hgood, rfl⟩
    | ok n =>
      simp only [Checked.ok_bind]
      split <;> exact ⟨_, _, _, rfl, hgood, rfl⟩
  react := by
    rintro events p w ⟨h, hf⟩
    obtain ⟨report, inner, w₁, hreact, hgood⟩ := hg.react events h
    change ∃ report p' w', reactFlushing events p w = .ok (report, p', w') ∧ _
    unfold reactFlushing
    rw [hreact]
    simp only [Checked.ok_bind]
    split
    · obtain ⟨report₁, p₁, w₂, hflush, hgood₁, hf₁⟩ :=
        flushQueue_sendsAnswered (p := { p with inner }) hg report hgood
      have hf₁ : p₁.finWanted = false := hf₁.trans hf
      rw [hflush]
      simp only [Checked.ok_bind, flushFin, hf₁, Bool.and_false, Bool.false_eq_true, if_false]
      exact ⟨_, _, _, rfl, hgood₁, hf₁⟩
    · exact ⟨_, _, _, rfl, hgood, hf⟩

end Atomic

theorem Datagram.sendsAnswered {P W C : Type} [Pipe P W C] {good : Atomic P → W → Prop}
    (hg : Pipe.SendsAnswered good) :
    Pipe.SendsAnswered fun (p : Datagram P) w => good p.inner w where
  send := by
    intro data p w h
    change ∃ result p' w', sendDatagram data p w = .ok (result, p', w') ∧ _
    unfold sendDatagram
    split
    · exact ⟨_, _, _, rfl, h⟩
    split
    · exact ⟨_, _, _, rfl, h⟩
    split
    · exact ⟨_, _, _, rfl, h⟩
    cases frame data with
    | error e => exact ⟨_, _, _, rfl, h⟩
    | ok framed =>
      obtain ⟨result, inner, w', hsend, hgood⟩ := hg.send framed h
      dsimp only
      rw [hsend]
      exact ⟨_, _, _, rfl, hgood⟩
  react := by
    intro events p w h
    obtain ⟨report, inner, w', hreact, hgood⟩ := hg.react events h
    change ∃ report p' w', (Pipe.react events p.inner w >>= _) = .ok (report, p', w') ∧ _
    rw [hreact]
    exact ⟨_, _, _, rfl, hgood⟩

theorem Tcp.sendsAnswered {N C : Type} [Sockets N] :
    Pipe.SendsAnswered fun (p : Tcp) (w : Host N C) =>
      p.bits.finSent = false ∧ p.Listed w.reactor where
  send := by
    rintro data p w ⟨hf, hl⟩
    obtain ⟨⟨result, p', w'⟩, hsend⟩ := send_eq_ok hl hf data
    refine ⟨result, p', w', hsend, ?_, hl.sameSocket (below_sameSocket.send hsend)⟩
    exact (transmitted_bits hsend).1.trans hf
  react := by
    rintro events p w ⟨hf, hl⟩
    obtain ⟨⟨report, p', w'⟩, hreact⟩ := react_eq_ok hl events
    refine ⟨report, p', w', hreact, ?_, hl.sameSocket (below_sameSocket.react hreact)⟩
    exact (noticed_bits hreact).1.trans hf

theorem Scripted.sendsAnswered {N C : Type} [CallLog N] :
    Pipe.SendsAnswered fun (p : Scripted) (_ : Host N C) => p.bits.finSent = false where
  send := by
    intro data p w hf
    change ∃ result p' w', (p.answerSend data >>= _) = .ok (result, p', w') ∧ _
    unfold answerSend
    simp only [hf, Bool.false_eq_true, if_false]
    split
    · exact ⟨_, _, _, rfl, hf⟩
    rcases p.sends with _ | ⟨_ | _ | _ | n, rest⟩
    · exact ⟨_, _, _, rfl, rfl⟩
    · exact ⟨_, _, _, rfl, rfl⟩
    · exact ⟨_, _, _, rfl, rfl⟩
    · exact ⟨_, _, _, rfl, rfl⟩
    · dsimp only
      split
      · exact ⟨_, _, _, rfl, rfl⟩
      · exact ⟨_, _, _, rfl, hf⟩
  react := by
    intro events p w hf
    have hnotice : (p.notice events).2.bits.finSent = false := by
      unfold notice
      split
      · exact hf
      split
      · exact hf
      · exact hf
    exact ⟨_, _, _, rfl, hnotice⟩

namespace Datagram

variable {P W C : Type} [Pipe P W C]

/-- A new datagram pipe over any other pipe. However it is used, and whatever the pipe below
takes or refuses, the bytes that went out and the queue behind them are the frames of the
datagrams that were accepted. If the pipe below always comes to a result, so do sends and
readiness in any order. -/
theorem frames_stay_whole {inner : P} {maxSize : Nat} {new : Datagram P}
    (hwrap : wrap inner maxSize = .ok new) (turns : List (PipeTurn W C)) (w : W) :
    (∀ (p : Datagram P) (w' : W), Pipe.useAll turns new w = .ok (p, w') →
      ∃ l : Logged (Datagram (Logged P)),
        Pipe.useAll turns (.fresh { inner := { inner := .fresh inner }, maxSize }) w =
          .ok (l, w') ∧
        l.pipe.rebase Logged.pipe = p ∧
        l.pipe.inner.inner.written ++ l.pipe.inner.unsent = l.payloads.flatMap wire ∧
        (∀ data answer, .sent data answer ∈ l.calls →
          answer = .ok data.length ∧ data.length ≤ maxSize ∨ ∃ e, answer = .error e) ∧
        (l.pipe.inner.queue ≠ none → ∃ earlier last begun, l.payloads = earlier ++ [last] ∧
          wire last = begun ++ l.pipe.inner.unsent ∧ l.pipe.inner.unsent ≠ [] ∧
          l.pipe.inner.inner.written = earlier.flatMap wire ++ begun) ∧
        ∀ (data : Bytes) (q : Datagram (Logged P)) (v v' : W),
          Pipe.send data l.pipe v = .ok (.error .wouldBlock, q, v') →
          ∃ below, q = { l.pipe with inner := { l.pipe.inner with inner := below } } ∧
            below.written = l.pipe.inner.inner.written) ∧
    ∀ good : P → W → Prop, Pipe.SendsAnswered good → good inner w →
      (∀ turn ∈ turns, ∀ p v, good p v → good p (turn.meanwhile v)) →
      (∀ turn ∈ turns, turn.use.Outbound) → ∃ x, Pipe.useAll turns new w = .ok x := by
  obtain ⟨hmax, rfl⟩ := eq_of_wrap hwrap
  constructor
  · intro p w' hrun
    have herases : Pipe.Erases W fun l : Logged (Datagram (Logged P)) =>
        l.pipe.rebase Logged.pipe := (erases_rebase Logged.erases).comp Logged.erases
    let start : Logged (Datagram (Logged P)) :=
      .fresh { inner := { inner := .fresh inner }, maxSize }
    obtain ⟨l, hlogged, rfl⟩ := Pipe.useAll_of_erases herases (q := start) hrun
    have hstart : Framed maxSize start := ⟨rfl, rfl, nofun, fun hq => absurd rfl hq⟩
    have hframed : Framed maxSize l := framed_kept.kept.useAll_forall hstart hlogged
    have htidy : (l.pipe.rebase Logged.pipe).inner.QueueConsistent :=
      Atomic.queueConsistent_kept.datagram.useAll_forall (Atomic.queueConsistent_fresh inner) hrun
    refine ⟨l, hlogged, rfl, hframed.stream, hframed.answered, ?_, ?_⟩
    · intro hq
      obtain ⟨earlier, last, hlist, begun, hlast⟩ := hframed.cut hq
      refine ⟨earlier, last, begun, hlist, hlast.symm, htidy.queueing hq, ?_⟩
      have hstream := hframed.stream
      rw [hlist, List.flatMap_append, List.flatMap_singleton, ← hlast, ← List.append_assoc]
        at hstream
      exact List.append_cancel_right hstream
    · exact fun data q v v' hsend => postponed hsend
  · intro good hg hinner hm hu
    apply (sendsAnswered (Atomic.sendsAnswered hg)).useAll
    · exact fun turn hturn p v h => ⟨hm turn hturn p.inner.inner v h.1, h.2⟩
    · exact hu
    · exact ⟨hinner, rfl⟩

/-- A pipe that takes a byte of the first frame, and two more bytes only later. -/
def haltingPipe : Scripted where
  name := "T"
  sends := [.atMost 1, .block, .atMost 2]

/-- Two datagrams are to go out, the second one of which is turned away until the first is gone. -/
def haltingTurns : List (PipeTurn (Host Session.Testbed Unit) Unit) :=
  [.send [5, 6], .send [7], .react { writable := true }, .react { writable := true },
    .send [7]].map fun use => { meanwhile := id, use }

theorem haltingTurns_outcome :
    (Pipe.useAll haltingTurns
      (.fresh { inner := { inner := .fresh haltingPipe }, maxSize := 4 } :
        Logged (Datagram (Logged Scripted)))
      { net := {}, reactor := {} }).toOption.map (fun x => (x.1.payloads, x.1.calls.length)) =
        some ([[5, 6], [7]], 5) := by
  decide +kernel

theorem frames_stay_whole_halting :
    ∃ (p : Datagram Scripted) (w : Host Session.Testbed Unit)
      (l : Logged (Datagram (Logged Scripted))),
      Pipe.useAll haltingTurns { inner := { inner := haltingPipe }, maxSize := 4 }
        { net := {}, reactor := {} } = .ok (p, w) ∧
      l.pipe.rebase Logged.pipe = p ∧ l.payloads = [[5, 6], [7]] ∧
      l.pipe.inner.inner.written ++ l.pipe.inner.unsent = [2, 5, 6, 1, 7] := by
  have hwrap : wrap haltingPipe 4 = .ok { inner := { inner := haltingPipe }, maxSize := 4 } := rfl
  have hstay := frames_stay_whole hwrap haltingTurns { net := {}, reactor := {} }
  have hresult := hstay.2 _ Scripted.sendsAnswered rfl
    (by
      intro turn hturn p v h
      obtain ⟨use, _, rfl⟩ := List.mem_map.mp hturn
      exact h)
    (by
      intro turn hturn
      obtain ⟨use, huse, rfl⟩ := List.mem_map.mp hturn
      simp only [List.mem_cons, List.not_mem_nil, or_false] at huse
      rcases huse with rfl | rfl | rfl | rfl | rfl <;> trivial)
  obtain ⟨⟨p, w⟩, hrun⟩ := hresult
  obtain ⟨l, hlogged, hpipe, hstream, _⟩ := hstay.1 p w hrun
  have houtcome := haltingTurns_outcome
  simp only [hlogged, Except.toOption, Option.map_some, Option.some.injEq, Prod.mk.injEq]
    at houtcome
  refine ⟨p, w, l, hrun, hpipe, houtcome.1, ?_⟩
  rw [hstream, houtcome.1]
  decide +kernel

end Datagram

end DuplexRelay
