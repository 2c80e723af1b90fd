import DuplexRelay.Proofs.Pipe.Erasure
import DuplexRelay.Proofs.Pipe.Ledger
import DuplexRelay.Proofs.Pipe.Uses
import DuplexRelay.Session.Testbed

/-! The stream that the sends of an atomic pipe make up. Whatever the pipe below takes, refuses or
fails at, and in whatever order the calls come, it was given the buffers of the sends that
succeeded, one behind the other, and the queue has what is missing. Unlike the ledgers, this account
goes on after failures. -/

namespace DuplexRelay

namespace PipeCall

/-- The buffer of a send that succeeded. -/
def granted : PipeCall → Bytes
  | sent data (.ok _) => data
  | _ => []

def Whole : PipeCall → Prop
  | sent data (.ok n) => n = data.length
  | _ => True

end PipeCall

namespace Logged

variable {P W C : Type}

/-- All that a pipe took so far. -/
def written (l : Logged P) : Bytes := l.calls.flatMap PipeCall.written

theorem written_note (l : Logged P) (call : PipeCall) (pipe : P) :
    (l.note call pipe).written = l.written ++ call.written := by
  simp [written, note]

theorem written_of_calls {l l' : Logged P} {call : PipeCall} (h : l'.calls = l.calls ++ [call]) :
    l'.written = l.written ++ call.written := by
  simp [written, h]

variable [Pipe P W C] {l l' : Logged P} {w w' : W}

theorem written_recv {n : Nat} {r : PipeResult Recv} (h : Pipe.recv n l w = .ok (r, l', w')) :
    l'.written = l.written := by
  rw [written_of_calls (calls_recv h)]
  exact List.append_nil _

theorem written_send {data : Bytes} {r : PipeResult Nat}
    (h : Pipe.send data l w = .ok (r, l', w')) :
    l'.written = l.written ++ (takenOf data r).flatten :=
  written_of_calls (calls_send h)

theorem written_sendFin {r : PipeResult FinStatus} (h : Pipe.sendFin l w = .ok (r, l', w')) :
    l'.written = l.written := by
  rw [written_of_calls (calls_sendFin h)]
  exact List.append_nil _

theorem written_react {events : SocketEvents} {r : PipeEvents}
    (h : Pipe.react events l w = .ok (r, l', w')) : l'.written = l.written := by
  rw [written_of_calls (calls_react h)]
  exact List.append_nil _

end Logged

namespace Atomic

variable {P W C : Type} [Pipe P W C]

/-- The bytes that the pipe below took, and behind them those that it did not take yet. -/
def stream (p : Atomic (Logged P)) : Bytes := p.inner.written ++ p.unsent

def Queueing (p : Atomic P) : Prop := p.queue ≠ none → p.unsent ≠ []

theorem stream_of_inner {p : Atomic (Logged P)} {inner : Logged P}
    (h : inner.written = p.inner.written) :
    ({ p with inner } : Atomic (Logged P)).stream = p.stream :=
  congrArg (· ++ p.unsent) h

section Queues

variable {p p' : Atomic P} {w w' : W}

theorem queueing_sentWhole {data : Bytes} {result : PipeResult Nat} (hp : p.Queueing)
    (h : SentWhole data p w result p' w') : p'.Queueing := by
  cases h with
  | waiting => exact hp
  | refused _ hq | all _ hq => exact fun hqueue => absurd hq hqueue
  | @part n inner _ _ _ _ hn =>
    intro _ hempty
    have hrest : data.drop n = [] := hempty
    rw [List.drop_eq_nil_iff] at hrest
    omega

theorem queueing_closedBehind {result : PipeResult FinStatus} (hp : p.Queueing)
    (h : ClosedBehind p w result p' w') : p'.Queueing := by
  cases h with
  | waiting | passed => exact hp

theorem queueing_queueFlushed {events report : PipeEvents} (hp : p.Queueing)
    (h : QueueFlushed events p w report p' w') : p'.Queueing := by
  cases h with
  | idle => exact hp
  | refused hq =>
    intro _
    simpa [unsent, hq] using hp (by simp [hq])
  | @part queue rest n inner _ hq hs hn hr =>
    intro _ hempty
    obtain ⟨after, hafter, hlive⟩ := ByteBuffer.consume_eq_ok (Nat.le_of_lt hn)
    rw [hr] at hafter
    cases hafter
    have hrest : queue.live.drop n = [] := hlive.symm.trans hempty
    rw [List.drop_eq_nil_iff] at hrest
    exact absurd hn (Nat.not_lt.mpr hrest)
  | all => exact fun hqueue => absurd rfl hqueue

theorem queueing_finFlushed {events report : PipeEvents} (hp : p.Queueing)
    (h : FinFlushed events p w report p' w') : p'.Queueing := by
  cases h with
  | skipped | closed => exact hp

theorem queueing_reacted {events : SocketEvents} {report : PipeEvents} (hp : p.Queueing)
    (h : Reacted events p w report p' w') : p'.Queueing := by
  cases h with
  | passed => exact hp
  | @flushing _ _ _ inner _ _ _ _ _ _ _ hq hf =>
    have hnotice : ({ p with inner } : Atomic P).Queueing := hp
    exact queueing_finFlushed (queueing_queueFlushed hnotice hq) hf

/-- There is no queue without bytes in it, and only behind one the closing of the way out waits. -/
structure QueueConsistent (p : Atomic P) : Prop where
  queueing : p.Queueing
  wanted : p.finWanted = true → p.queue ≠ none

theorem queueConsistent_fresh (inner : P) : ({ inner } : Atomic P).QueueConsistent :=
  ⟨fun hq => absurd rfl hq, nofun⟩

theorem queueConsistent_kept : Pipe.Keeps fun (p : Atomic P) (_ : W) => p.QueueConsistent where
  attach := by
    intro callback p p' w w' result h hattach
    obtain ⟨_, _, heq⟩ := Checked.bind_eq_ok_iff.mp hattach
    cases heq
    exact ⟨h.queueing, h.wanted⟩
  recv := by
    intro n p p' w w' result h hrecv
    obtain ⟨_, _, heq⟩ := Checked.bind_eq_ok_iff.mp hrecv
    cases heq
    exact ⟨h.queueing, h.wanted⟩
  send := by
    intro data p p' w w' result h hsend
    have hs := sentWhole hsend
    refine ⟨queueing_sentWhole h.queueing hs, ?_⟩
    cases hs with
    | waiting hf | refused hf | all hf | part hf =>
      intro hwanted
      exact absurd (hf.symm.trans hwanted) Bool.false_ne_true
  sendFin := by
    intro p p' w w' result h hclose
    have hc := closedBehind hclose
    refine ⟨queueing_closedBehind h.queueing hc, ?_⟩
    cases hc with
    | waiting _ hq => exact fun _ => hq
    | passed => exact h.wanted
  react := by
    intro events p p' w w' report h hreact
    have hr := reacted hreact
    refine ⟨queueing_reacted h.queueing hr, ?_⟩
    cases hr with
    | passed => exact h.wanted
    | flushing _ _ _ hf =>
      cases hf with
      | skipped hidle =>
        intro hwanted hq
        exact absurd ((hidle hq).symm.trans hwanted) Bool.false_ne_true
      | closed => nofun
  reschedule h := h

end Queues

variable {p p' : Atomic (Logged P)} {w w' : W}

/-- A send that succeeds adds its whole buffer to the stream. -/
theorem stream_sentWhole {data : Bytes} {result : PipeResult Nat}
    (h : SentWhole data p w result p' w') :
    p'.stream = p.stream ++ (PipeCall.sent data result).granted := by
  cases h with
  | waiting => exact (List.append_nil _).symm
  | refused _ _ hs =>
    have hwritten := Logged.written_send hs
    rw [takenOf_error, List.flatten_nil, List.append_nil] at hwritten
    rw [stream_of_inner hwritten]
    exact (List.append_nil _).symm
  | @all n inner _ _ hq hs hn =>
    have hall : data.take n = data := List.take_of_length_le hn
    have hwritten := Logged.written_send hs
    simp [stream, unsent, hq, hwritten, takenOf, hall, PipeCall.granted]
  | @part n inner _ _ hq hs =>
    have hwritten := Logged.written_send hs
    simp [stream, unsent, hq, hwritten, takenOf, PipeCall.granted]

/-- A send that fails leaves both parts of the stream as they are. -/
theorem failed_sentWhole {data : Bytes} {e : PipeError}
    (h : SentWhole data p w (.error e) p' w') :
    p'.inner.written = p.inner.written ∧ p'.queue = p.queue := by
  cases h with
  | waiting => exact ⟨rfl, rfl⟩
  | refused _ _ hs =>
    have hwritten := Logged.written_send hs
    rw [takenOf_error, List.flatten_nil, List.append_nil] at hwritten
    exact ⟨hwritten, rfl⟩

theorem whole_sentWhole {data : Bytes} {result : PipeResult Nat}
    (h : SentWhole data p w result p' w') : (PipeCall.sent data result).Whole := by
  cases h with
  | waiting | refused => trivial
  | all | part => exact rfl

theorem stream_closedBehind {result : PipeResult FinStatus} (h : ClosedBehind p w result p' w') :
    p'.stream = p.stream := by
  cases h with
  | waiting => rfl
  | passed _ _ hc => exact stream_of_inner (Logged.written_sendFin hc)

/-- Flushing moves bytes from the front of the queue to the pipe below. -/
theorem stream_queueFlushed {events report : PipeEvents}
    (h : QueueFlushed events p w report p' w') : p'.stream = p.stream := by
  cases h with
  | idle => rfl
  | refused hq hs =>
    have hwritten := Logged.written_send hs
    rw [takenOf_error, List.flatten_nil, List.append_nil] at hwritten
    simp [stream, unsent, hq, hwritten]
  | @part queue rest n inner _ hq hs hn hr =>
    obtain ⟨after, hafter, hlive⟩ := ByteBuffer.consume_eq_ok (Nat.le_of_lt hn)
    rw [hr] at hafter
    cases hafter
    have hwritten := Logged.written_send hs
    simp [stream, unsent, hq, hwritten, takenOf, hlive]
  | @all queue n inner _ hq hs hn =>
    have hall : queue.live.take n = queue.live := List.take_of_length_le hn
    have hwritten := Logged.written_send hs
    simp [stream, unsent, hq, hwritten, takenOf, hall]

theorem stream_finFlushed {events report : PipeEvents}
    (h : FinFlushed events p w report p' w') : p'.stream = p.stream := by
  cases h with
  | skipped => rfl
  | closed _ _ hc => exact stream_of_inner (Logged.written_sendFin hc)

theorem stream_reacted {events : SocketEvents} {report : PipeEvents}
    (h : Reacted events p w report p' w') : p'.stream = p.stream := by
  cases h with
  | passed hr => exact stream_of_inner (Logged.written_react hr)
  | flushing hr _ hq hf =>
    rw [stream_finFlushed hf, stream_queueFlushed hq]
    exact stream_of_inner (Logged.written_react hr)

/-- The answers that an atomic pipe gave agree with what went to the pipe below. -/
structure AgreesWithBelow (l : Logged (Atomic (Logged P))) : Prop where
  stream : l.pipe.stream = l.calls.flatMap PipeCall.granted
  whole : ∀ call ∈ l.calls, call.Whole
  queueing : l.pipe.Queueing

theorem AgreesWithBelow.noted {l : Logged (Atomic (Logged P))} {call : PipeCall}
    (h : AgreesWithBelow l)
    (hs : p'.stream = l.pipe.stream ++ call.granted) (hw : call.Whole) (hq : p'.Queueing) :
    AgreesWithBelow (l.note call p') := by
  refine ⟨?_, ?_, hq⟩
  · change p'.stream = (l.calls ++ [call]).flatMap PipeCall.granted
    rw [hs, h.stream, List.flatMap_append, List.flatMap_singleton]
  · intro c hc
    rcases List.mem_append.mp hc with hc | hc
    · exact h.whole c hc
    · rw [List.mem_singleton.mp hc]
      exact hw

theorem agreesWithBelow_noted :
    Pipe.KeepsNotes fun (l : Logged (Atomic (Logged P))) (_ : W) => AgreesWithBelow l where
  attach h hcall := by
    obtain ⟨⟨_, inner, _⟩, hinner, heq⟩ := Checked.bind_eq_ok_iff.mp hcall
    cases heq
    obtain ⟨_, _, heq⟩ := Checked.map_eq_ok_iff.mp hinner
    cases heq
    refine h.noted ?_ trivial h.queueing
    rw [stream_of_inner]
    · exact (List.append_nil _).symm
    · rw [Logged.written_note]
      exact List.append_nil _
  recv h hcall := by
    obtain ⟨⟨_, inner, _⟩, hinner, heq⟩ := Checked.bind_eq_ok_iff.mp hcall
    cases heq
    refine h.noted ?_ trivial h.queueing
    rw [stream_of_inner (Logged.written_recv hinner)]
    exact (List.append_nil _).symm
  send h hcall := by
    have hs := sentWhole hcall
    exact h.noted (stream_sentWhole hs) (whole_sentWhole hs) (queueing_sentWhole h.queueing hs)
  sendFin h hcall := by
    have hc := closedBehind hcall
    refine h.noted ?_ trivial (queueing_closedBehind h.queueing hc)
    rw [stream_closedBehind hc]
    exact (List.append_nil _).symm
  react h hcall := by
    have hr := reacted hcall
    refine h.noted ?_ trivial (queueing_reacted h.queueing hr)
    rw [stream_reacted hr]
    exact (List.append_nil _).symm
  reschedule h := h

theorem agreesWithBelow_kept :
    Pipe.Keeps fun (l : Logged (Atomic (Logged P))) (_ : W) => AgreesWithBelow l :=
  agreesWithBelow_noted.kept

/-- While something is queued, a send is turned away without a call of the pipe below. -/
theorem send_of_queue {p : Atomic P} (hq : p.queue ≠ none) (data : Bytes) (w : W) :
    Pipe.send data p w =
      if p.finWanted then .error .atomicSendAfterFin else .ok (.error .wouldBlock, p, w) := by
  change p.sendWhole data w = _
  have hsome : p.queue.isSome = true := Option.isSome_iff_ne_none.mpr hq
  unfold sendWhole
  cases hf : p.finWanted <;> simp [hsome]

/-- An atomic pipe over any other pipe, in the hands of any owner. The bytes that the pipe below
accepted, and behind them the queue, are the buffers of the sends that succeeded. -/
theorem sends_form_one_stream {inner : P} {turns : List (PipeTurn W C)} {p : Atomic P} {w w' : W}
    (h : Pipe.useAll turns ({ inner } : Atomic P) w = .ok (p, w')) :
    ∃ l : Logged (Atomic (Logged P)),
      Pipe.useAll turns (.fresh { inner := .fresh inner }) w = .ok (l, w') ∧
      l.pipe.rebase Logged.pipe = p ∧
      l.pipe.inner.calls.flatMap PipeCall.written ++ l.pipe.unsent =
        l.calls.flatMap PipeCall.granted ∧
      (∀ data answer, .sent data answer ∈ l.calls →
        answer = .ok data.length ∨ ∃ e, answer = .error e) ∧
      (∀ (data : Bytes) e q (v v' : W), Pipe.send data l.pipe v = .ok (.error e, q, v') →
        q.inner.calls.flatMap PipeCall.written = l.pipe.inner.calls.flatMap PipeCall.written ∧
          q.queue = l.pipe.queue) ∧
      (l.pipe.queue ≠ none → l.pipe.unsent ≠ [] ∧ (state p).writable = false ∧
        ∀ (data : Bytes) (v : W), Pipe.send data l.pipe v =
          if p.finWanted then .error .atomicSendAfterFin
          else .ok (.error .wouldBlock, l.pipe, v)) := by
  have herases : Pipe.Erases W fun l : Logged (Atomic (Logged P)) => l.pipe.rebase Logged.pipe :=
    (erases_rebase Logged.erases).comp Logged.erases
  let start : Logged (Atomic (Logged P)) := .fresh { inner := .fresh inner }
  obtain ⟨l, hrun, rfl⟩ := Pipe.useAll_of_erases herases (q := start) h
  have hstart : AgreesWithBelow start := ⟨rfl, nofun, fun hq => absurd rfl hq⟩
  have hexact : AgreesWithBelow l :=
    agreesWithBelow_kept.useAll (Pipe.accompanied_of_forall (fun _ _ _ _ h => h) _ _) hstart hrun
  refine ⟨l, hrun, rfl, hexact.stream, ?_, ?_, ?_⟩
  · intro data answer hmem
    cases answer with
    | ok n => exact .inl (congrArg Except.ok (hexact.whole _ hmem))
    | error e => exact .inr ⟨e, rfl⟩
  · intro data e q v v' hsend
    exact failed_sentWhole (sentWhole hsend)
  · intro hq
    refine ⟨hexact.queueing hq, ?_, fun data v => send_of_queue hq data v⟩
    have hsome : l.pipe.queue.isSome = true := Option.isSome_iff_ne_none.mpr hq
    rw [state_rebase (Logged.erases (P := P) (W := W)).state]
    change (if l.pipe.queue.isSome then _ else _ : PipeState).writable = false
    rw [if_pos hsome]

/-- A pipe that takes some bytes now and then, and fails at last. -/
def tricklingPipe : Scripted where
  name := "T"
  sends := [.atMost 1, .block, .atMost 1, .fail]

/-- One buffer goes out bit by bit, while others are turned away. -/
def tricklingTurns : List (PipeTurn (Host Session.Testbed Unit) Unit) :=
  [.send [1, 2, 3], .send [9], .react { writable := true }, .recv 5, .react { writable := true },
    .react { writable := true }, .send [7]].map fun use => { meanwhile := id, use }

theorem tricklingTurns_queue :
    (Pipe.useAll tricklingTurns ({ inner := tricklingPipe } : Atomic Scripted)
      { net := {}, reactor := {} }).toOption.map (fun x => (x.1.unsent, (state x.1).broken)) =
        some ([3], true) := by
  decide +kernel

theorem one_stream_trickling :
    ∃ (p : Atomic Scripted) (w : Host Session.Testbed Unit) (l : Logged (Atomic (Logged Scripted))),
      Pipe.useAll tricklingTurns ({ inner := tricklingPipe } : Atomic Scripted)
        { net := {}, reactor := {} } = .ok (p, w) ∧
      l.pipe.rebase Logged.pipe = p ∧ (state p).broken = true ∧ p.unsent = [3] ∧
      l.pipe.inner.calls.flatMap PipeCall.written ++ [3] = l.calls.flatMap PipeCall.granted := by
  have hqueue := tricklingTurns_queue
  cases hrun : Pipe.useAll tricklingTurns ({ inner := tricklingPipe } : Atomic Scripted)
      { net := {}, reactor := {} } with
  | error v => simp [hrun, Except.toOption] at hqueue
  | ok x =>
    obtain ⟨p, w⟩ := x
    simp only [hrun, Except.toOption, Option.map_some, Option.some.injEq, Prod.mk.injEq] at hqueue
    obtain ⟨l, _, rfl, hstream, _⟩ := sends_form_one_stream hrun
    have hunsent : l.pipe.unsent = [3] := hqueue.1
    rw [hunsent] at hstream
    exact ⟨_, w, l, rfl, rfl, hqueue.2, hqueue.1, hstream⟩

end Atomic

end DuplexRelay
