import DuplexRelay.Pipe.Atomic
import DuplexRelay.Proofs.Checked

/-! What each operation of an atomic pipe can come to. Receives and registrations go straight to the
pipe below, so only sends, closings and the notice of readiness have outcomes of their own. -/

namespace DuplexRelay.Atomic

variable {P W C : Type} [Pipe P W C] {p p' : Atomic P} {w w' : W}

inductive SentWhole (data : Bytes) (p : Atomic P) (w : W) : PipeResult Nat → Atomic P → W → Prop
  | waiting (hf : p.finWanted = false) (hq : p.queue ≠ none) :
      SentWhole data p w (.error .wouldBlock) p w
  | refused {e : PipeError} {inner : P} {w' : W} (hf : p.finWanted = false) (hq : p.queue = none)
      (hs : Pipe.send data p.inner w = .ok (.error e, inner, w')) :
      SentWhole data p w (.error e) { p with inner } w'
  | all {n : Nat} {inner : P} {w' : W} (hf : p.finWanted = false) (hq : p.queue = none)
      (hs : Pipe.send data p.inner w = .ok (.ok n, inner, w')) (hn : data.length ≤ n) :
      SentWhole data p w (.ok data.length) { p with inner } w'
  | part {n : Nat} {inner : P} {w' : W} (hf : p.finWanted = false) (hq : p.queue = none)
      (hs : Pipe.send data p.inner w = .ok (.ok n, inner, w')) (hn : n < data.length) :
      SentWhole data p w (.ok data.length)
        { p with inner, queue := some (.copyOf (data.drop n)) } w'

theorem sentWhole {data : Bytes} {result : PipeResult Nat}
    (h : Pipe.send data p w = .ok (result, p', w')) : SentWhole data p w result p' w' := by
  replace h : sendWhole data p w = .ok (result, p', w') := h
  have hf : p.finWanted = false := by
    cases hf : p.finWanted with
    | false => rfl
    | true => simp [sendWhole, hf] at h
  unfold sendWhole at h
  dsimp only at h
  rw [if_neg (show ¬p.finWanted = true by simp [hf])] at h
  by_cases hq : p.queue = none
  · rw [if_neg (by simp [hq])] at h
    simp only [Checked.bind_eq_ok_iff] at h
    obtain ⟨⟨r, inner, w₁⟩, hs, h⟩ := h
    cases r with
    | error e =>
      cases h
      exact .refused hf hq hs
    | ok n =>
      dsimp only at h
      split at h
      · rename_i hn
        cases h
        exact .part hf hq hs hn
      · rename_i hn
        cases h
        exact .all hf hq hs (by omega)
  · rw [if_pos (by simpa [Option.isSome_iff_ne_none] using hq)] at h
    cases h
    exact .waiting hf hq

/-- What a request to close the way out can come to. -/
inductive ClosedBehind (p : Atomic P) (w : W) : PipeResult FinStatus → Atomic P → W → Prop
  | waiting (hf : p.finWanted = false) (hq : p.queue ≠ none) :
      ClosedBehind p w (.ok .pending) { p with finWanted := true } w
  | passed {result : PipeResult FinStatus} {inner : P} {w' : W} (hf : p.finWanted = false)
      (hq : p.queue = none) (hc : Pipe.sendFin p.inner w = .ok (result, inner, w')) :
      ClosedBehind p w result { p with inner } w'

theorem closedBehind {result : PipeResult FinStatus}
    (h : Pipe.sendFin p w = .ok (result, p', w')) : ClosedBehind p w result p' w' := by
  replace h : closeBehind p w = .ok (result, p', w') := h
  have hf : p.finWanted = false := by
    cases hf : p.finWanted with
    | false => rfl
    | true => simp [closeBehind, hf] at h
  unfold closeBehind at h
  dsimp only at h
  rw [if_neg (show ¬p.finWanted = true by simp [hf])] at h
  by_cases hq : p.queue = none
  · rw [if_neg (by simp [hq])] at h
    simp only [Checked.bind_eq_ok_iff] at h
    obtain ⟨⟨r, inner, w₁⟩, hc, h⟩ := h
    cases h
    exact .passed hf hq hc
  · rw [if_pos (by simpa [Option.isSome_iff_ne_none] using hq)] at h
    cases h
    exact .waiting hf hq

/-- What offering the queue to the pipe below can come to. -/
inductive QueueFlushed (events : PipeEvents) (p : Atomic P) (w : W) :
    PipeEvents → Atomic P → W → Prop
  | idle (hq : p.queue = none) : QueueFlushed events p w events p w
  | refused {queue : ByteBuffer} {e : PipeError} {inner : P} {w' : W} (hq : p.queue = some queue)
      (hs : Pipe.send queue.live p.inner w = .ok (.error e, inner, w')) :
      QueueFlushed events p w
        { events with broken := events.broken || e.isFatal, writable := false }
        { p with inner, queue := some queue } w'
  | part {queue rest : ByteBuffer} {n : Nat} {inner : P} {w' : W} (hq : p.queue = some queue)
      (hs : Pipe.send queue.live p.inner w = .ok (.ok n, inner, w')) (hn : n < queue.size)
      (hr : queue.consume n = .ok rest) :
      QueueFlushed events p w { events with writable := false }
        { p with inner, queue := some rest } w'
  | all {queue : ByteBuffer} {n : Nat} {inner : P} {w' : W} (hq : p.queue = some queue)
      (hs : Pipe.send queue.live p.inner w = .ok (.ok n, inner, w')) (hn : queue.size ≤ n) :
      QueueFlushed events p w
        { events with writable := events.writable && (state inner).isWritable }
        { p with inner, queue := none } w'

theorem queueFlushed {events report : PipeEvents}
    (h : flushQueue events p w = .ok (report, p', w')) :
    QueueFlushed events p w report p' w' := by
  unfold flushQueue at h
  cases hq : p.queue with
  | none =>
    simp only [hq] at h
    cases h
    exact .idle hq
  | some queue =>
    simp only [hq, Checked.bind_eq_ok_iff] at h
    obtain ⟨⟨r, inner, w₁⟩, hs, h⟩ := h
    cases r with
    | error e =>
      cases h
      exact .refused hq hs
    | ok n =>
      dsimp only at h
      split at h
      · rename_i hn
        simp only [Checked.bind_eq_ok_iff] at h
        obtain ⟨rest, hr, h⟩ := h
        cases h
        exact .part hq hs hn hr
      · rename_i hn
        cases h
        exact .all hq hs (by omega)

/-- What is reported when the way out was to be closed. -/
def closingReport (events : PipeEvents) : PipeResult FinStatus → PipeEvents
  | .ok .sent => { events with writable := false, finSent := true }
  | .ok .pending => { events with writable := false }
  | .error e => { events with writable := false, broken := events.broken || e.isFatal }

inductive FinFlushed (events : PipeEvents) (p : Atomic P) (w : W) :
    PipeEvents → Atomic P → W → Prop
  | skipped (hf : p.queue = none → p.finWanted = false) : FinFlushed events p w events p w
  | closed {result : PipeResult FinStatus} {inner : P} {w' : W} (hq : p.queue = none)
      (hf : p.finWanted = true) (hc : Pipe.sendFin p.inner w = .ok (result, inner, w')) :
      FinFlushed events p w (closingReport events result)
        { p with inner, finWanted := false } w'

theorem finFlushed {events report : PipeEvents}
    (h : flushFin events p w = .ok (report, p', w')) : FinFlushed events p w report p' w' := by
  unfold flushFin at h
  split at h
  · rename_i hf
    simp only [Bool.and_eq_true, Option.isNone_iff_eq_none] at hf
    simp only [Checked.bind_eq_ok_iff] at h
    obtain ⟨⟨r, inner, w₁⟩, hc, h⟩ := h
    have hclosed : FinFlushed events p w (closingReport events r)
        { p with inner, finWanted := false } w₁ := .closed hf.1 hf.2 hc
    match r with
    | .ok .sent =>
      cases h
      exact hclosed
    | .ok .pending =>
      cases h
      exact hclosed
    | .error e =>
      cases h
      exact hclosed
  · rename_i hf
    cases h
    refine .skipped ?_
    intro hq
    simpa [hq] using hf

inductive Reacted (events : SocketEvents) (p : Atomic P) (w : W) :
    PipeEvents → Atomic P → W → Prop
  | passed {report : PipeEvents} {inner : P} {w' : W}
      (hr : Pipe.react events p.inner w = .ok (report, inner, w'))
      (hs : report.writable = true → p.queue = none ∧ p.finWanted = false) :
      Reacted events p w report { p with inner } w'
  | flushing {report report₁ report' : PipeEvents} {inner : P} {p₁ p' : Atomic P} {w₁ w₂ w' : W}
      (hr : Pipe.react events p.inner w = .ok (report, inner, w₁)) (hw : report.writable = true)
      (hq : QueueFlushed report { p with inner } w₁ report₁ p₁ w₂)
      (hf : FinFlushed report₁ p₁ w₂ report' p' w') : Reacted events p w report' p' w'

theorem reacted {events : SocketEvents} {report : PipeEvents}
    (h : Pipe.react events p w = .ok (report, p', w')) : Reacted events p w report p' w' := by
  replace h : reactFlushing events p w = .ok (report, p', w') := h
  unfold reactFlushing at h
  simp only [Checked.bind_eq_ok_iff] at h
  obtain ⟨⟨r, inner, w₁⟩, hr, h⟩ := h
  dsimp only at h
  split at h
  · rename_i hs
    simp only [Bool.and_eq_true] at hs
    simp only [Checked.bind_eq_ok_iff] at h
    obtain ⟨⟨report₁, p₁, w₂⟩, hq, hf⟩ := h
    exact .flushing hr hs.1 (queueFlushed hq) (finFlushed hf)
  · rename_i hs
    cases h
    refine .passed hr ?_
    intro hw
    simpa [hw] using hs

end DuplexRelay.Atomic
