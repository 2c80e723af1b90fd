import DuplexRelay.Proofs.Bridge.Moves
import DuplexRelay.Proofs.Bridge.Recorded

/-! The calls that a bridge makes of its pipes. A bridge over pipes that keep a log of their answers
runs as the bridge over the pipes themselves, and an operation of it fails exactly if there is an
answer among the new ones that a bridge does not go on after. -/

namespace DuplexRelay

@[simp] theorem PipeResult.isOk_error {α : Type} (e : PipeError) :
    (.error e : PipeResult α).isOk = false := rfl

@[simp] theorem PipeResult.isOk_ok {α : Type} (a : α) : (.ok a : PipeResult α).isOk = true := rfl

@[simp] theorem PipeResult.isOk_map {α β : Type} (r : PipeResult α) (f : α → β) :
    (r.map f).isOk = r.isOk := by
  cases r <;> rfl

/-- A call of a pipe, by what it was answered. -/
inductive PipeCall where
  | attached (answer : Except Failure Unit)
  | received (answer : PipeResult Recv)
  | sent (data : Bytes) (answer : PipeResult Nat)
  | closed (answer : PipeResult FinStatus)
  | noticed (report : PipeEvents)

namespace PipeCall

/-- The pipe is of no further use after this. -/
def fatal : PipeCall → Bool
  | received (.error e) => e.isFatal
  | sent _ (.error e) => e.isFatal
  | closed (.error e) => e.isFatal
  | noticed report => report.broken
  | _ => false

/-- The way out could not be closed, even if the pipe is not to blame. -/
def unclosed : PipeCall → Bool
  | closed (.error _) => true
  | _ => false

/-- A bridge does not go on after this. -/
def ends (c : PipeCall) : Bool := c.fatal || c.unclosed

@[simp] theorem ends_received (answer : Recv) : (received (.ok answer)).ends = false := rfl

@[simp] theorem ends_sent (data : Bytes) (n : Nat) : (sent data (.ok n)).ends = false := rfl

@[simp] theorem ends_received_wouldBlock : (received (.error .wouldBlock)).ends = false := rfl

@[simp] theorem ends_sent_wouldBlock (data : Bytes) :
    (sent data (.error .wouldBlock)).ends = false := rfl

theorem ends_received_error {e : PipeError} (he : e ≠ .wouldBlock) :
    (received (.error e)).ends = true := by
  cases e <;> simp_all [ends, fatal, PipeError.isFatal]

theorem ends_sent_error {e : PipeError} (he : e ≠ .wouldBlock) (data : Bytes) :
    (sent data (.error e)).ends = true := by
  cases e <;> simp_all [ends, fatal, PipeError.isFatal]

theorem ends_sent_of_took {result : PipeResult Nat} {n : Nat} (h : Bridge.Took result n)
    (data : Bytes) : (sent data result).ends = false := by
  rcases h with rfl | ⟨rfl, _⟩
  · rfl
  · rfl

@[simp] theorem ends_closed (answer : PipeResult FinStatus) :
    (closed answer).ends = !answer.isOk := by
  cases answer with
  | ok status => rfl
  | error e => simp [ends, unclosed]

@[simp] theorem ends_noticed (report : PipeEvents) : (noticed report).ends = report.broken := by
  simp [ends, fatal, unclosed]

end PipeCall

/-- A pipe together with the calls of it that were answered, the first one first. -/
structure Logged (P : Type) where
  pipe : P
  calls : List PipeCall := []

namespace Logged

variable {P W C : Type}

def fresh (pipe : P) : Logged P := { pipe }

/-- Adds a call that left the pipe as it is given here. -/
def note (l : Logged P) (call : PipeCall) (pipe : P) : Logged P where
  pipe
  calls := l.calls ++ [call]

instance [HasPipeState P] : HasPipeState (Logged P) where
  state l := state l.pipe

instance [Pipe P W C] : Pipe (Logged P) W C where
  attach callback l w :=
    (Pipe.attach callback l.pipe w).map fun (r, pipe, w) => (r, l.note (.attached r) pipe, w)
  recv n l w := (Pipe.recv n l.pipe w).map fun (r, pipe, w) => (r, l.note (.received r) pipe, w)
  send data l w :=
    (Pipe.send data l.pipe w).map fun (r, pipe, w) => (r, l.note (.sent data r) pipe, w)
  sendFin l w := (Pipe.sendFin l.pipe w).map fun (r, pipe, w) => (r, l.note (.closed r) pipe, w)
  react events l w :=
    (Pipe.react events l.pipe w).map fun (r, pipe, w) => (r, l.note (.noticed r) pipe, w)
  rescheduleRead l w := Pipe.rescheduleRead l.pipe w
  release l w := Pipe.release l.pipe w
  backlog l w := Pipe.backlog l.pipe w

theorem erases [Pipe P W C] : Pipe.Erases W (Logged.pipe : Logged P → P) := by
  refine ⟨fun _ => rfl, ?_, ?_, ?_, ?_, ?_, fun _ _ => rfl, fun _ _ => rfl⟩
  · intro c l w
    cases h : Pipe.attach c l.pipe w <;> simp [Pipe.attach, h, Except.map, note]
  · intro n l w
    cases h : Pipe.recv n l.pipe w <;> simp [Pipe.recv, h, Except.map, note]
  · intro d l w
    cases h : Pipe.send d l.pipe w <;> simp [Pipe.send, h, Except.map, note]
  · intro l w
    cases h : Pipe.sendFin l.pipe w <;> simp [Pipe.sendFin, h, Except.map, note]
  · intro e l w
    cases h : Pipe.react e l.pipe w <;> simp [Pipe.react, h, Except.map, note]

variable [Pipe P W C] {l l' : Logged P} {w w' : W}

theorem calls_attach {callback : C} {r : Except Failure Unit}
    (h : Pipe.attach callback l w = .ok (r, l', w')) : l'.calls = l.calls ++ [.attached r] := by
  obtain ⟨_, _, heq⟩ := Checked.map_eq_ok_iff.mp h
  cases heq
  rfl

theorem calls_recv {n : Nat} {r : PipeResult Recv} (h : Pipe.recv n l w = .ok (r, l', w')) :
    l'.calls = l.calls ++ [.received r] := by
  obtain ⟨_, _, heq⟩ := Checked.map_eq_ok_iff.mp h
  cases heq
  rfl

theorem calls_send {data : Bytes} {r : PipeResult Nat}
    (h : Pipe.send data l w = .ok (r, l', w')) : l'.calls = l.calls ++ [.sent data r] := by
  obtain ⟨_, _, heq⟩ := Checked.map_eq_ok_iff.mp h
  cases heq
  rfl

theorem calls_sendFin {r : PipeResult FinStatus} (h : Pipe.sendFin l w = .ok (r, l', w')) :
    l'.calls = l.calls ++ [.closed r] := by
  obtain ⟨_, _, heq⟩ := Checked.map_eq_ok_iff.mp h
  cases heq
  rfl

theorem calls_react {events : SocketEvents} {r : PipeEvents}
    (h : Pipe.react events l w = .ok (r, l', w')) : l'.calls = l.calls ++ [.noticed r] := by
  obtain ⟨_, _, heq⟩ := Checked.map_eq_ok_iff.mp h
  cases heq
  rfl

end Logged

namespace Bridge

variable {P W C : Type}

def calls (b : Bridge (Logged P)) (s : Side) : List PipeCall := (b.side s).pipe.calls

/-- Both pipes were called some more times, and `failed` tells whether there is an answer among the
new ones that a bridge does not go on after. The bridge was not ended meanwhile. -/
structure Traced (failed : Bool) (b b' : Bridge (Logged P)) : Prop where
  calls : ∃ left right : List PipeCall, b'.calls .left = b.calls .left ++ left ∧
    b'.calls .right = b.calls .right ++ right ∧ (left ++ right).any PipeCall.ends = failed
  dead : b'.dead = b.dead
  finalStats : b'.finalStats = b.finalStats

namespace Traced

variable {b b₁ b' : Bridge (Logged P)} {f g : Bool}

theorem refl (b : Bridge (Logged P)) : Traced false b b :=
  ⟨⟨[], [], by simp, by simp, rfl⟩, rfl, rfl⟩

theorem trans (h : Traced f b b₁) (t : Traced g b₁ b') : Traced (f || g) b b' := by
  obtain ⟨l, r, hl, hr, rfl⟩ := h.calls
  obtain ⟨l', r', hl', hr', rfl⟩ := t.calls
  refine ⟨⟨l ++ l', r ++ r', ?_, ?_, ?_⟩, t.dead.trans h.dead, t.finalStats.trans h.finalStats⟩
  · rw [hl', hl, List.append_assoc]
  · rw [hr', hr, List.append_assoc]
  · simp only [List.any_append]
    ac_rfl

theorem setSide {s : Side} {new : BridgeSide (Logged P)} {more : List PipeCall}
    (h : new.pipe.calls = (b.side s).pipe.calls ++ more) (hf : more.any PipeCall.ends = f) :
    Traced f b (b.setSide s new) := by
  subst hf
  refine ⟨?_, by simp, by simp⟩
  cases s with
  | left => exact ⟨more, [], h, (List.append_nil _).symm, by simp⟩
  | right => exact ⟨[], more, (List.append_nil _).symm, h, rfl⟩

theorem setSides {s : Side} {new other : BridgeSide (Logged P)} {more others : List PipeCall}
    (h : new.pipe.calls = (b.side s).pipe.calls ++ more)
    (h' : other.pipe.calls = (b.side s.peer).pipe.calls ++ others)
    (hf : (more ++ others).any PipeCall.ends = f) :
    Traced f b ((b.setSide s new).setSide s.peer other) := by
  rw [List.any_append] at hf
  subst hf
  refine (setSide h rfl).trans (setSide ?_ rfl)
  rw [side_setSide_peer, h']

end Traced

variable [Pipe P W C] {b b' : Bridge (Logged P)} {w w' : W}

theorem traced_of_flushed {dst : Side} {result : PipeResult Unit}
    (h : Flushed dst b w result b' w') : Traced (!result.isOk) b b' := by
  cases h with
  | idle => exact .refl b
  | refused hq hs => exact .setSide (Logged.calls_send hs) rfl
  | failed hq hs he => exact .setSide (Logged.calls_send hs) (by simp [PipeCall.ends_sent_error he])
  | partly hq hs => exact .setSide (Logged.calls_send hs) rfl
  | done hq hs => exact .setSide (Logged.calls_send hs) rfl
  | @closed queue n pipe pipe' w₁ w' r hq hs hn hrcvd hsent hc =>
    have hcalls : pipe'.calls =
        (b.side dst).pipe.calls ++ [.sent queue.live (.ok n), .closed r] := by
      rw [Logged.calls_sendFin hc, Logged.calls_send hs, List.append_assoc]
      rfl
    exact .setSide hcalls (by simp)

theorem traced_of_transferred {src : Side} {result : PipeResult Nat}
    (h : Transferred src b w result b' w') : Traced (!result.isOk) b b' := by
  cases h with
  | dry hp hr => exact .setSide (Logged.calls_recv hr) rfl
  | failed hp hr he =>
    exact .setSide (Logged.calls_recv hr) (by simp [PipeCall.ends_received_error he])
  | ended hp hr hc =>
    exact .setSides (Logged.calls_recv hr) (Logged.calls_sendFin hc) (by simp)
  | undeliverable hp hr hs he =>
    refine .setSides (Logged.calls_recv hr) (Logged.calls_send hs) ?_
    simp [PipeCall.ends_sent_error he]
  | relayed hp hr hs ht =>
    refine .setSides (Logged.calls_recv hr) (Logged.calls_send hs) ?_
    simp [PipeCall.ends_sent_of_took ht]
  | congested hp hr hs ht =>
    refine .setSides (Logged.calls_recv hr) (Logged.calls_send hs) ?_
    simp [PipeCall.ends_sent_of_took ht]

theorem traced_of_relayed {src : Side} {n : Nat} {result : PipeResult Unit}
    (h : Relayed src n b w result b' w') : Traced (!result.isOk) b b' := by
  induction h with
  | stopped => exact .refl _
  | yielded => exact .refl _
  | failed hv ht => exact traced_of_transferred (transferred ht)
  | more hv ht hr ih => exact (traced_of_transferred (transferred ht)).trans ih

theorem traced_of_writePhase {s : Side} {report : PipeEvents} {result : PipeResult Unit}
    (h : WritePhase s report b w result b' w') : Traced (!result.isOk) b b' := by
  cases h with
  | skipped => exact .refl b
  | failed hw hf => exact traced_of_flushed (flushed hf)
  | full hw hf => exact traced_of_flushed (flushed hf)
  | relayed hw hf hs hr => exact (traced_of_flushed (flushed hf)).trans (traced_of_relayed hr)

theorem traced_of_readPhase {s : Side} {report : PipeEvents} {result : PipeResult Unit}
    (h : ReadPhase s report b w result b' w') : Traced (!result.isOk) b b' := by
  cases h with
  | skipped => exact .refl b
  | relayed hr hs hrel => exact traced_of_relayed hrel

theorem traced_of_handled {s : Side} {report : PipeEvents} {result : PipeResult Unit}
    (h : Handled s report b w result b' w') :
    ∃ failed, Traced failed b b' ∧ (report.broken || failed) = !result.isOk := by
  cases h with
  | broken hb =>
    refine ⟨false, .refl b, ?_⟩
    rw [hb]
    rfl
  | failed hb hw =>
    refine ⟨true, traced_of_writePhase hw, ?_⟩
    rw [hb]
    rfl
  | done hb hw hr =>
    refine ⟨_, (traced_of_writePhase hw).trans (traced_of_readPhase hr), ?_⟩
    rw [hb]
    rfl

theorem traced_of_notice {s : Side} {events : SocketEvents} {report : PipeEvents}
    {pipe : Logged P} {result : PipeResult Unit} {w₁ : W}
    (hr : Pipe.react events (b.side s).pipe w = .ok (report, pipe, w₁))
    (hh : Handled s report (b.setSide s { b.side s with pipe }) w₁ result b' w') :
    Traced (!result.isOk) b b' := by
  obtain ⟨failed, htraced, hfailed⟩ := traced_of_handled hh
  have hnotice : Traced report.broken b (b.setSide s { b.side s with pipe }) :=
    .setSide (Logged.calls_react hr) (by simp)
  rw [← hfailed]
  exact hnotice.trans htraced

end Bridge

end DuplexRelay
