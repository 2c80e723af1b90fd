import DuplexRelay.Proofs.Bridge.LinkExactness
import DuplexRelay.Proofs.Pipe.Answering
import DuplexRelay.Proofs.Pipe.Breaking
import DuplexRelay.Proofs.Pipe.Uses

/-! What a pipe that has broken down answers. Receives always tell, and nothing is reported any
more. Sends and requests to close the way out tell by the pipe that broke down, but the layers above
it look at their queue, at the size of the data and at whether they are writable first. -/

namespace DuplexRelay

namespace Pipe

variable {P W C : Type} [Pipe P W C] {shape closing : P → Prop} {turns : List (PipeTurn W C)}
  {p p' : P} {w w' : W}

/-- No request to close the way out is granted while a pipe is used like this. -/
def Unclosed (turns : List (PipeTurn W C)) (p : P) (w : W) : Prop :=
  ∀ (l : Logged P) (w' : W), useAll turns (.fresh p) w = .ok (l, w') →
    ∀ status, PipeCall.closed (.ok status) ∉ l.calls

/-- A way out that is closing has a granted request in the log. -/
structure Requested (shape closing : P → Prop) (l : Logged P) : Prop where
  shape : shape l.pipe
  granted : closing l.pipe → ∃ status, PipeCall.closed (.ok status) ∈ l.calls

theorem Requested.noted {l : Logged P} {call : PipeCall} (h : Requested shape closing l)
    (hs : shape p') (hc : closing p' → closing l.pipe ∨ ∃ status, call = .closed (.ok status)) :
    Requested shape closing (l.note call p') := by
  refine ⟨hs, fun hclosing => ?_⟩
  rcases hc hclosing with hbefore | ⟨status, rfl⟩
  · obtain ⟨status, hmem⟩ := h.granted hbefore
    exact ⟨status, List.mem_append_left _ hmem⟩
  · exact ⟨status, List.mem_append_right _ List.mem_cons_self⟩

theorem Disciplined.requested_kept (hd : Disciplined W shape closing) :
    KeepsNotes fun (l : Logged P) (_ : W) => Requested shape closing l where
  attach h hcall := by
    obtain ⟨hs, hc⟩ := hd.attached h.shape hcall
    exact h.noted hs fun hclosing => .inl (hc hclosing)
  recv h hcall := by
    obtain ⟨hs, hc⟩ := hd.received h.shape hcall
    exact h.noted hs fun hclosing => .inl (hc hclosing)
  send h hcall := by
    obtain ⟨hs, hc, _⟩ := hd.sent h.shape hcall
    exact h.noted hs fun hclosing => .inl (hc hclosing)
  sendFin h hcall := by
    obtain ⟨hs, hc⟩ := hd.closed h.shape hcall
    refine h.noted hs fun hclosing => (hc hclosing).imp_right ?_
    rintro ⟨status, rfl⟩
    exact ⟨status, rfl⟩
  react h hcall := by
    obtain ⟨hs, hc⟩ := hd.reacted h.shape hcall
    exact h.noted hs fun hclosing => .inl (hc hclosing)
  reschedule h := h

/-- The way out stays open as long as no request to close it is granted. -/
theorem Disciplined.unclosed (hd : Disciplined W shape closing) (hs : shape p) (hc : ¬closing p)
    (hu : Unclosed turns p w) (hrun : useAll turns p w = .ok (p', w')) :
    shape p' ∧ ¬closing p' := by
  let start : Logged P := .fresh p
  obtain ⟨l, hlogged, rfl⟩ := useAll_of_erases Logged.erases (q := start) hrun
  have hstart : Requested shape closing start := ⟨hs, fun hclosing => absurd hclosing hc⟩
  have hend : Requested shape closing l :=
    hd.requested_kept.kept.useAll_forall hstart hlogged
  refine ⟨hend.shape, fun hclosing => ?_⟩
  obtain ⟨status, hmem⟩ := hend.granted hclosing
  exact hu l w' hlogged status hmem

theorem Disciplined.shape_kept (hd : Disciplined W shape closing) :
    Keeps fun (p : P) (_ : W) => shape p where
  attach h hcall := (hd.attached h hcall).1
  recv h hcall := (hd.received h hcall).1
  send h hcall := (hd.sent h hcall).1
  sendFin h hcall := (hd.closed h hcall).1
  react h hcall := (hd.reacted h hcall).1
  reschedule h := h

theorem Latching.final (hl : Latching P W) (hb : (state p).broken = true)
    (hrun : useAll turns p w = .ok (p', w')) : (state p').broken = true := by
  have hkeeps : Keeps (fun (p : P) (_ : W) => (state p).broken = true) := by
    constructor
    · exact fun h hcall => (hl.attached hcall).broken h
    · exact fun h hcall => (hl.received hcall).broken h
    · exact fun h hcall => (hl.sent hcall).broken h
    · exact fun h hcall => (hl.closed hcall).broken h
    · exact fun h hcall => (hl.reacted hcall).broken h
    · exact id
  exact hkeeps.useAll_forall hb hrun

/-- The pipe has broken down. It tells so to whoever receives, and sends and requests to close the
way out are answered with `sends` and `closes`. -/
structure BrokenDown {P : Type} (N C : Type) [Pipe P (Host N C) C] (base : P → Tcp) (p : P)
    (sends : Bytes → PipeResult Nat) (closes : PipeResult FinStatus) : Prop where
  recv : ∀ (n : Nat) (w : Host N C), Pipe.recv n p w = .ok (.error .broken, p, w)
  send : ∀ (data : Bytes) (w : Host N C), ∃ p', Pipe.send data p w = .ok (sends data, p', w)
  sendFin : ∀ w : Host N C, ∃ p', Pipe.sendFin p w = .ok (closes, p', w)
  react : ∀ (events : SocketEvents) (w : Host N C), (base p).Listed w.reactor →
    ∃ p' w', Pipe.react events p w = .ok (.none, p', w')
  silent : ∀ {events : SocketEvents} {p' : P} {w w' : Host N C} {report},
    Pipe.react events p w = .ok (report, p', w') → report = .none
  final : ∀ {turns : List (PipeTurn (Host N C) C)} {p' : P} {w w' : Host N C},
    useAll turns p w = .ok (p', w') → (state p').broken = true

end Pipe

namespace Tcp

variable {N C : Type} [Sockets N]

theorem brokenDown {p : Tcp} (hb : (state p).broken = true) (hf : ¬p.Shut) :
    Pipe.BrokenDown N C id p (fun _ => .error .broken) (.error .broken) := by
  have hb : p.bits.broken = true := hb
  have hf : p.bits.finSent = false := (Bool.not_eq_true _).mp hf
  have hreact (events : SocketEvents) (w : Host N C) :
      Pipe.react events p w = .ok (.none, p, w) := by
    simp [Pipe.react, notice, hb]
  refine ⟨?_, ?_, ?_, fun events w _ => ⟨p, w, hreact events w⟩, ?_, latching.final hb⟩
  · intro n w
    simp [Pipe.recv, receive, hb]
  · intro data w
    exact ⟨p, by simp [Pipe.send, transmit, hb, hf]⟩
  · intro w
    exact ⟨p, by simp [Pipe.sendFin, shutDown, hb, hf]⟩
  · intro events p' w w' report h
    rw [hreact events w] at h
    cases h
    rfl

end Tcp

namespace Atomic

variable {P N C : Type} [Pipe P (Host N C) C] {base : P → Tcp} {p : Atomic P}

/-- While something is queued, the pipe below is not asked. -/
theorem brokenDown (hl : Pipe.Latching P (Host N C)) (hb : (state p.inner).broken = true)
    (h : Pipe.BrokenDown N C base p.inner (fun _ => .error .broken) (.error .broken))
    (hf : p.finWanted = false) :
    Pipe.BrokenDown N C (fun p => base p.inner) p
      (fun _ => .error (if p.queue.isSome then .wouldBlock else .broken))
      (if p.queue.isSome then .ok .pending else .error .broken) := by
  refine ⟨?_, ?_, ?_, ?_, ?_, (latching hl).final ((state_broken p).trans hb)⟩
  · intro n w
    change (Pipe.recv n p.inner w >>= _) = _
    rw [h.recv n w]
    rfl
  · intro data w
    obtain ⟨inner, hsend⟩ := h.send data w
    change ∃ p', sendWhole data p w = .ok (_, p', w)
    unfold sendWhole
    cases hq : p.queue.isSome with
    | true => exact ⟨p, by simp [hf]⟩
    | false => exact ⟨{ p with inner }, by simp [hf, hsend]⟩
  · intro w
    obtain ⟨inner, hclose⟩ := h.sendFin w
    change ∃ p', closeBehind p w = .ok (_, p', w)
    unfold closeBehind
    cases hq : p.queue.isSome with
    | true => exact ⟨{ p with finWanted := true }, by simp [hf]⟩
    | false => exact ⟨{ p with inner }, by simp [hf, hclose]⟩
  · intro events w hlisted
    obtain ⟨inner, w', hreact⟩ := h.react events w hlisted
    refine ⟨{ p with inner }, w', ?_⟩
    change reactFlushing events p w = _
    unfold reactFlushing
    rw [hreact]
    rfl
  · intro events p' w w' report hreact
    cases reacted hreact with
    | passed hr => exact h.silent hr
    | flushing hr hw =>
      rw [h.silent hr] at hw
      cases hw

end Atomic

namespace Datagram

variable {P N C : Type} [Pipe P (Host N C) C] {base : Atomic P → Tcp} {p : Datagram P}

/-- Once the framing is violated, nothing else is looked at. -/
theorem brokenDown_of_broken [Sockets N] {shape closing : Atomic P → Prop} {fits : Nat → Prop}
    (hl : Pipe.Latching (Atomic P) (Host N C))
    (h : Pipe.Answers (N := N) (C := C) base shape closing fits) (hs : shape p.inner)
    (hb : p.broken = true) :
    Pipe.BrokenDown N C (fun p => base p.inner) p (fun _ => .error .broken) (.error .broken) := by
  have hreact (events : SocketEvents) (w : Host N C) :
      Pipe.react events p w = (Pipe.react events p.inner w).map fun x =>
        (.none, { p with inner := x.2.1 }, x.2.2) := by
    change (Pipe.react events p.inner w >>= _) = _
    simp only [hb, if_true]
    cases Pipe.react events p.inner w <;> rfl
  refine ⟨?_, ?_, ?_, ?_, ?_, (latching hl).final (broken_state hb)⟩
  · intro n w
    simp [Pipe.recv, recvDatagram, hb]
  · intro data w
    exact ⟨p, by simp [Pipe.send, sendDatagram, hb]⟩
  · intro w
    exact ⟨p, by simp [Pipe.sendFin, hb]⟩
  · intro events w hlisted
    obtain ⟨⟨report, inner, w'⟩, hx⟩ := h.react events hs hlisted
    refine ⟨{ p with inner }, w', ?_⟩
    rw [hreact, hx]
    rfl
  · intro events p' w w' report hcall
    rw [hreact] at hcall
    obtain ⟨x, _, heq⟩ := Checked.map_eq_ok_iff.mp hcall
    cases heq
    rfl

/-- A pipe below that broke down is not writable, which is what a send goes by. -/
theorem brokenDown {sends : Bytes → PipeResult Nat} {closes : PipeResult FinStatus}
    (hl : Pipe.Latching (Atomic P) (Host N C)) (hi : (state p.inner).broken = true)
    (h : Pipe.BrokenDown N C base p.inner sends closes) (hb : p.broken = false) :
    Pipe.BrokenDown N C (fun p => base p.inner) p
      (fun data => .error (if p.maxSize < data.length then
        .protocol (exceedsMaximum data.length p.maxSize) else .wouldBlock)) closes := by
  have hfinal : (state p).broken = true := by
    rw [state_eq, View.broken_shown]
    exact Bool.or_eq_true_iff.mpr (.inl hi)
  refine ⟨?_, ?_, ?_, ?_, ?_, (latching hl).final hfinal⟩
  · intro n w
    simp [Pipe.recv, recvDatagram, hi]
  · intro data w
    change ∃ p', sendDatagram data p w = .ok (_, p', w)
    unfold sendDatagram
    by_cases hsize : p.maxSize < data.length
    · exact ⟨(p.fail (exceedsMaximum data.length p.maxSize)).2, by simp [hb, hsize, fail]⟩
    · exact ⟨p, by simp [hb, hsize, PipeState.isWritable_of_broken hi]⟩
  · intro w
    obtain ⟨inner, hclose⟩ := h.sendFin w
    refine ⟨{ p with inner }, ?_⟩
    change (if p.broken then _ else Pipe.sendFin p.inner w >>= _) = _
    rw [if_neg (by simp [hb]), hclose]
    rfl
  · intro events w hlisted
    obtain ⟨inner, w', hreact⟩ := h.react events w hlisted
    refine ⟨{ p with inner }, w', ?_⟩
    change (Pipe.react events p.inner w >>= _) = _
    rw [hreact]
    exact congrArg (fun report => Except.ok (report, _, w')) (ite_self _)
  · intro events p' w w' report hreact
    obtain ⟨⟨report, inner, _⟩, hr, heq⟩ := Checked.bind_eq_ok_iff.mp hreact
    cases heq
    rw [if_neg (by simp [hb])]
    exact h.silent hr

end Datagram

open Pipe (Unclosed useAll BrokenDown)

variable {N C : Type} [Sockets N] [LawfulSockets N] {fd : Fd} {w w' : Host N C}

/-- A pipe that has broken down, in whatever way it was used since it was new, tells so to whoever
receives, reports nothing and stays broken. Sends and requests to close the way out are answered by
what is looked at first. -/
theorem answers_of_broken {start : Tcp} {turns : List (PipeTurn (Host N C) C)}
    (hstart : start = .connecting fd ∨ start = .connected fd) :
    (∀ p : Tcp, useAll turns start w = .ok (p, w') → Unclosed turns start w →
      (state p).broken = true →
      BrokenDown N C id p (fun _ => .error .broken) (.error .broken)) ∧
    (∀ p : Atomic Tcp, useAll turns { inner := start } w = .ok (p, w') →
      Unclosed turns ({ inner := start } : Atomic Tcp) w → (state p).broken = true →
      BrokenDown N C (fun p => p.inner) p
        (fun _ => .error (if p.queue.isSome then .wouldBlock else .broken))
        (if p.queue.isSome then .ok .pending else .error .broken)) ∧
    ∀ (maxSize : Nat) (new p : Datagram Tcp), Datagram.wrap start maxSize = .ok new →
      useAll turns new w = .ok (p, w') → Unclosed turns new w → (state p).broken = true →
      BrokenDown N C (fun p => p.inner.inner) p
        (fun data => .error (
          if p.broken then .broken
          else if p.maxSize < data.length then
            .protocol (Datagram.exceedsMaximum data.length p.maxSize)
          else .wouldBlock))
        (if !p.broken && p.inner.queue.isSome then .ok .pending else .error .broken) := by
  have hopen : ¬start.Shut := by
    rcases hstart with rfl | rfl <;> exact Bool.false_ne_true
  have htcp := Tcp.disciplined (N := N) (C := C)
  have hatomic := Atomic.disciplined htcp
  have hlatching := Tcp.latching (N := N) (C := C)
  have hnew : Atomic.Shaped (fun _ => True) Tcp.Shut { inner := start } ∧
      ¬Atomic.Shut Tcp.Shut { inner := start } := by
    constructor
    · exact ⟨trivial, fun _ => hopen⟩
    · rintro (hwanted | hshut)
      · cases hwanted
      · exact hopen hshut
  have hdown {p : Atomic Tcp} (hb : (state p).broken = true) (hu : ¬p.Shut Tcp.Shut) :
      BrokenDown N C (fun p => p.inner) p
        (fun _ => .error (if p.queue.isSome then .wouldBlock else .broken))
        (if p.queue.isSome then .ok .pending else .error .broken) := by
    rw [Atomic.state_broken] at hb
    have hwanted : p.finWanted = false := (Bool.not_eq_true _).mp fun hf => hu (.inl hf)
    exact Atomic.brokenDown hlatching hb (Tcp.brokenDown hb fun hf => hu (.inr hf)) hwanted
  refine ⟨?_, ?_, ?_⟩
  · intro p hrun hu hb
    obtain ⟨_, hp⟩ := htcp.unclosed trivial hopen hu hrun
    exact Tcp.brokenDown hb hp
  · intro p hrun hu hb
    obtain ⟨_, hp⟩ := hatomic.unclosed hnew.1 hnew.2 hu hrun
    exact hdown hb hp
  · intro maxSize new p hwrap hrun hu hb
    have hinner : new.inner = { inner := start } := by
      unfold Datagram.wrap at hwrap
      split at hwrap
      · cases hwrap
        rfl
      · cases hwrap
    have hdatagram := Datagram.disciplined hatomic
    rw [← hinner] at hnew
    obtain ⟨hs, hp⟩ := hdatagram.unclosed hnew.1 hnew.2 hu hrun
    cases hown : p.broken with
    | true =>
      have hanswers := Atomic.answers (Tcp.answers (N := N) (C := C) fun _ => True)
      exact Datagram.brokenDown_of_broken (Atomic.latching hlatching) hanswers hs hown
    | false =>
      have hi : (state p.inner).broken = true := by
        rw [Datagram.state_eq, Datagram.View.broken_shown] at hb
        exact (Bool.or_eq_true_iff.mp hb).resolve_right fun hown' =>
          Bool.false_ne_true (hown.symm.trans hown')
      exact Datagram.brokenDown (Atomic.latching hlatching) hi (hdown hi hp) hown

/-- A connection over which datagrams of up to two bytes are to be sent could not be made. -/
def failedConnect : List (PipeTurn (Host SocketPairs Side) Side) :=
  [{ meanwhile := id, use := .react { error := true } }]

theorem failedConnect_outcome :
    (useAll failedConnect { inner := { inner := .connecting 3 }, maxSize := 2 }
      Bridge.pairedHost).toOption.map (fun x : Datagram Tcp × _ =>
        (x.1.broken, x.1.maxSize, (state x.1).broken)) = some (false, 2, true) := by
  decide +kernel

theorem failedConnect_unclosed (p : Datagram Tcp) (w : Host SocketPairs Side) :
    Unclosed failedConnect p w := by
  intro l w' hrun status hmem
  obtain ⟨⟨l₁, w₁⟩, hcall, hend⟩ := Checked.bind_eq_ok_iff.mp hrun
  cases hend
  obtain ⟨⟨report, _, _⟩, hreact, heq⟩ := Checked.map_eq_ok_iff.mp hcall
  cases heq
  rw [Logged.calls_react hreact] at hmem
  cases hmem with
  | tail _ hmem => cases hmem

/-- After a failed connect, a small datagram is to be sent again later, and a large one violates the
framing as well. -/
theorem answers_of_failed_connect :
    ∃ (p : Datagram Tcp) (w : Host SocketPairs Side),
      useAll failedConnect { inner := { inner := .connecting 3 }, maxSize := 2 } Bridge.pairedHost =
        .ok (p, w) ∧
      (state p).broken = true ∧ Pipe.recv 16 p w = .ok (.error .broken, p, w) ∧
      (∃ p', Pipe.send [1] p w = .ok (.error .wouldBlock, p', w)) ∧
      ∃ p', Pipe.send [1, 2, 3] p w =
        .ok (.error (.protocol "datagram of 3 bytes exceeds the maximum of 2 bytes"), p', w) := by
  have houtcome := failedConnect_outcome
  cases hrun : useAll failedConnect ({ inner := { inner := .connecting 3 }, maxSize := 2 } :
      Datagram Tcp) Bridge.pairedHost with
  | error v => simp [hrun, Except.toOption] at houtcome
  | ok x =>
    obtain ⟨p, w⟩ := x
    simp only [hrun, Except.toOption, Option.map_some, Option.some.injEq, Prod.mk.injEq] at houtcome
    obtain ⟨hown, hmax, hb⟩ := houtcome
    have hstart : Tcp.connecting 3 = .connecting 3 ∨ Tcp.connecting 3 = .connected 3 := .inl rfl
    have hdown := (answers_of_broken hstart).2.2 2 _ p rfl hrun (failedConnect_unclosed _ _) hb
    simp only [hown, hmax] at hdown
    exact ⟨p, w, rfl, hb, hdown.recv 16 w, hdown.send [1] w, hdown.send [1, 2, 3] w⟩

end DuplexRelay
