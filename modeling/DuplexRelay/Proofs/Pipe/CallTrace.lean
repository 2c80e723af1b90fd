import DuplexRelay.Proofs.Pipe.WholeSends

/-! Calls of an atomic pipe, each together with the calls of the pipe below that it made. A run that
keeps these traces is the run without them. -/

namespace DuplexRelay

section FirstCalls

variable {Q W C : Type} [Pipe Q W C]

/-- What a single call comes to where nothing was logged before. -/
inductive Logged.FirstCall (q : Q) (w : W) : PipeUse C → Logged Q → W → Prop
  | attached {callback : C} {q' : Q} {w' : W} {result : Except Failure Unit}
      (h : Pipe.attach callback q w = .ok (result, q', w')) :
      FirstCall q w (.attach callback) ⟨q', [.attached result]⟩ w'
  | received {n : Nat} {q' : Q} {w' : W} {result : PipeResult Recv}
      (h : Pipe.recv n q w = .ok (result, q', w')) :
      FirstCall q w (.recv n) ⟨q', [.received result]⟩ w'
  | sent {data : Bytes} {q' : Q} {w' : W} {result : PipeResult Nat}
      (h : Pipe.send data q w = .ok (result, q', w')) :
      FirstCall q w (.send data) ⟨q', [.sent data result]⟩ w'
  | closed {q' : Q} {w' : W} {result : PipeResult FinStatus}
      (h : Pipe.sendFin q w = .ok (result, q', w')) :
      FirstCall q w .sendFin ⟨q', [.closed result]⟩ w'
  | noticed {events : SocketEvents} {q' : Q} {w' : W} {report : PipeEvents}
      (h : Pipe.react events q w = .ok (report, q', w')) :
      FirstCall q w (.react events) ⟨q', [.noticed report]⟩ w'
  | rescheduled : FirstCall q w .reschedule (fresh q) (Pipe.rescheduleRead q w)

theorem Logged.firstCall {q : Q} {w w' : W} {use : PipeUse C} {l : Logged Q}
    (h : Pipe.perform (fresh q) w use = .ok (l, w')) : FirstCall q w use l w' := by
  have hcall {α : Type} {x : Checked (α × Q × W)} {f : α → PipeCall}
      (h : (x.map fun y => (y.1, (fresh q).note (f y.1) y.2.1, y.2.2)).map Prod.snd =
        .ok (l, w')) : ∃ a q', x = .ok (a, q', w') ∧ l = ⟨q', [f a]⟩ := by
    obtain ⟨_, hmap, heq⟩ := Checked.map_eq_ok_iff.mp h
    obtain ⟨⟨a, q', _⟩, hx, rfl⟩ := Checked.map_eq_ok_iff.mp hmap
    cases heq
    exact ⟨a, q', hx, rfl⟩
  cases use with
  | attach callback =>
    obtain ⟨_, _, hx, rfl⟩ := hcall h
    exact .attached hx
  | recv n =>
    obtain ⟨_, _, hx, rfl⟩ := hcall h
    exact .received hx
  | send data =>
    obtain ⟨_, _, hx, rfl⟩ := hcall (f := .sent data) h
    exact .sent hx
  | sendFin =>
    obtain ⟨_, _, hx, rfl⟩ := hcall h
    exact .closed hx
  | react events =>
    obtain ⟨_, _, hx, rfl⟩ := hcall h
    exact .noticed hx
  | reschedule =>
    cases h
    exact .rescheduled

end FirstCalls

/-- A call of a pipe and its answer, and the calls of the pipe below that it made. -/
structure CallTrace where
  above : List PipeCall
  below : List PipeCall

/-- What the pipe below took. -/
def CallTrace.written (e : CallTrace) : Bytes := e.below.flatMap PipeCall.written

namespace Atomic

variable {P W C : Type}

def traceOf (l : Logged (Atomic (Logged P))) : CallTrace := ⟨l.calls, l.pipe.inner.calls⟩

variable [Pipe P W C]

/-- Calls an atomic pipe and traces the call. -/
def trace (p : Atomic P) (w : W) (use : PipeUse C) : Checked (CallTrace × Atomic P × W) :=
  (Pipe.perform (Logged.fresh (p.rebase Logged.fresh)) w use).map fun (l, w) =>
    (traceOf l, l.pipe.rebase Logged.pipe, w)

def traceAll : List (PipeTurn W C) → Atomic P → W → Checked (List CallTrace × Atomic P × W)
  | [], p, w => .ok ([], p, w)
  | turn :: rest, p, w => do
    let (first, p, w) ← trace p (turn.meanwhile w) turn.use
    let (others, p, w) ← traceAll rest p w
    return (first :: others, p, w)

theorem useAll_eq_traceAll (turns : List (PipeTurn W C)) (p : Atomic P) (w : W) :
    Pipe.useAll turns p w = (traceAll turns p w).map Prod.snd := by
  have herases : Pipe.Erases W fun l : Logged (Atomic (Logged P)) => l.pipe.rebase Logged.pipe :=
    (erases_rebase Logged.erases).comp Logged.erases
  induction turns generalizing p w with
  | nil => rfl
  | cons turn rest ih =>
    have hstep : Pipe.perform p (turn.meanwhile w) turn.use =
        (trace p (turn.meanwhile w) turn.use).map Prod.snd := by
      have hcall := Pipe.perform_erases herases (Logged.fresh (p.rebase Logged.fresh))
        (turn.meanwhile w) turn.use
      unfold trace
      cases hlogged : Pipe.perform (Logged.fresh (p.rebase Logged.fresh)) (turn.meanwhile w)
          turn.use <;> rw [hlogged] at hcall <;> exact hcall
    unfold Pipe.useAll traceAll
    rw [hstep, Checked.bind_map, Checked.map_bind]
    refine bind_congr fun x => ?_
    dsimp only
    rw [ih, Checked.map_bind]
    cases traceAll rest x.2.1 x.2.2 <;> rfl

theorem trace_eq_ok {p p' : Atomic P} {w w' : W} {e : CallTrace} {use : PipeUse C}
    (h : trace p w use = .ok (e, p', w')) :
    ∃ l, Logged.FirstCall (p.rebase Logged.fresh) w use l w' ∧ e = traceOf l ∧
      p' = l.pipe.rebase Logged.pipe := by
  obtain ⟨⟨l, _⟩, hcall, heq⟩ := Checked.map_eq_ok_iff.mp h
  cases heq
  exact ⟨l, Logged.firstCall hcall, rfl, rfl⟩

theorem traceAll_cons {turn : PipeTurn W C} {rest : List (PipeTurn W C)} {p p' : Atomic P} {w w' : W}
    {es : List CallTrace} (h : traceAll (turn :: rest) p w = .ok (es, p', w')) :
    ∃ l w₁ others, Logged.FirstCall (p.rebase Logged.fresh) (turn.meanwhile w) turn.use l w₁ ∧
      traceAll rest (l.pipe.rebase Logged.pipe) w₁ = .ok (others, p', w') ∧
      es = traceOf l :: others := by
  obtain ⟨⟨e, p₁, w₁⟩, hfirst, h⟩ := Checked.bind_eq_ok_iff.mp h
  obtain ⟨⟨others, p₂, w₂⟩, hrest, heq⟩ := Checked.bind_eq_ok_iff.mp h
  cases heq
  obtain ⟨l, hcall, rfl, rfl⟩ := trace_eq_ok hfirst
  exact ⟨l, w₁, others, hcall, hrest, rfl⟩

theorem exists_traceAll {turns : List (PipeTurn W C)} {p p' : Atomic P} {w w' : W}
    (h : Pipe.useAll turns p w = .ok (p', w')) : ∃ es, traceAll turns p w = .ok (es, p', w') := by
  rw [useAll_eq_traceAll] at h
  obtain ⟨⟨es, _, _⟩, htraces, heq⟩ := Checked.map_eq_ok_iff.mp h
  cases heq
  exact ⟨es, htraces⟩

end Atomic

end DuplexRelay
