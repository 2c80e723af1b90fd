import DuplexRelay.Bridge.Basic
import DuplexRelay.Proofs.Checked

/-! What moving bytes from one side of a bridge to the other can come to: writing what is queued,
one transfer, and the transfers that one activity makes in a direction. -/

namespace DuplexRelay

theorem Side.eq_or_eq_peer (s t : Side) : t = s ∨ t = s.peer := by
  cases s <;> cases t <;> simp [Side.peer]

theorem Side.forall_of {Q : Side → Prop} (s : Side) (h : Q s) (h' : Q s.peer) (d : Side) : Q d := by
  rcases Side.eq_or_eq_peer s d with rfl | rfl
  · exact h
  · exact h'

@[simp] theorem Side.peer_peer (s : Side) : s.peer.peer = s := by
  cases s <;> rfl

@[simp] theorem Side.peer_ne (s : Side) : s.peer ≠ s := by
  cases s <;> simp [Side.peer]

@[simp] theorem Side.ne_peer (s : Side) : s ≠ s.peer := by
  cases s <;> simp [Side.peer]

namespace Bridge

variable {P W C : Type}

@[simp] theorem side_setSide_of_peer (b : Bridge P) (s : Side) (new : BridgeSide P) :
    (b.setSide s.peer new).side s = b.side s := by
  cases s <;> rfl

@[simp] theorem setSide_setSide (b : Bridge P) (s : Side) (old new : BridgeSide P) :
    (b.setSide s old).setSide s new = b.setSide s new := by
  cases s <;> rfl

theorem setSide_eq_both (b : Bridge P) (s : Side) (new : BridgeSide P) :
    b.setSide s new = (b.setSide s new).setSide s.peer (b.side s.peer) := by
  cases s <;> rfl

theorem setPipe_eq (b : Bridge P) (s : Side) (pipe : P) :
    b.setPipe s pipe = b.setSide s { b.side s with pipe } := rfl

@[simp] theorem dead_setSide (b : Bridge P) (s : Side) (new : BridgeSide P) :
    (b.setSide s new).dead = b.dead := by
  cases s <;> rfl

@[simp] theorem finalStats_setSide (b : Bridge P) (s : Side) (new : BridgeSide P) :
    (b.setSide s new).finalStats = b.finalStats := by
  cases s <;> rfl

@[simp] theorem budget_setSide (b : Bridge P) (s : Side) (new : BridgeSide P) :
    (b.setSide s new).budget = b.budget := by
  cases s <;> rfl

theorem between_eq_ok {left right : P} {config : BridgeConfig} {b : Bridge P}
    (h : between left right config = .ok (.ok b)) :
    b = {
      left := { pipe := left, recvSize := config.leftRecvSize }
      right := { pipe := right, recvSize := config.rightRecvSize }
      budget := config.maxRelayPerEvent } := by
  unfold between at h
  cases hv : config.validate with
  | error e => simp [hv] at h
  | ok =>
    simp only [hv, Checked.bind_eq_ok_iff] at h
    obtain ⟨buffer, _, h⟩ := h
    cases h
    rfl

/-- The number of bytes that a send took, where a refusal takes none. -/
def Took (result : PipeResult Nat) (n : Nat) : Prop :=
  result = .ok n ∨ result = .error .wouldBlock ∧ n = 0

def afterSend (t : Traffic) (n : Nat) : Traffic := { t with sent := t.sent + n }

def afterRecv (t : Traffic) (n : Nat) : Traffic := { t with received := t.received + n }

/-- The figures after a chunk had to be queued of which `n` bytes were sent. -/
def afterQueueing (t : Traffic) (n : Nat) : Traffic :=
  { t with sent := t.sent + n, congestions := t.congestions + 1 }

variable [Pipe P W C]

inductive Flushed (dst : Side) (b : Bridge P) (w : W) : PipeResult Unit → Bridge P → W → Prop
  | idle (hq : (b.side dst).pending = none) : Flushed dst b w (.ok ()) b w
  | refused {queue : ByteBuffer} {pipe : P} {w' : W} (hq : (b.side dst).pending = some queue)
      (hs : Pipe.send queue.live (b.side dst).pipe w = .ok (.error .wouldBlock, pipe, w')) :
      Flushed dst b w (.ok ()) (b.setSide dst { b.side dst with pipe }) w'
  | failed {queue : ByteBuffer} {e : PipeError} {pipe : P} {w' : W}
      (hq : (b.side dst).pending = some queue)
      (hs : Pipe.send queue.live (b.side dst).pipe w = .ok (.error e, pipe, w'))
      (he : e ≠ .wouldBlock) :
      Flushed dst b w (.error e) (b.setSide dst { b.side dst with pipe }) w'
  | partly {queue rest : ByteBuffer} {n : Nat} {pipe : P} {w' : W}
      (hq : (b.side dst).pending = some queue)
      (hs : Pipe.send queue.live (b.side dst).pipe w = .ok (.ok n, pipe, w'))
      (hn : n < queue.size) (hr : queue.consume n = .ok rest) :
      Flushed dst b w (.ok ()) (b.setSide dst { b.side dst with
        pipe, pending := some rest, traffic := afterSend (b.side dst).traffic n }) w'
  | done {queue : ByteBuffer} {n : Nat} {pipe : P} {w' : W}
      (hq : (b.side dst).pending = some queue)
      (hs : Pipe.send queue.live (b.side dst).pipe w = .ok (.ok n, pipe, w'))
      (hn : queue.size ≤ n)
      (hf : ¬((state (b.side dst.peer).pipe).finRcvd = true ∧ (state pipe).finSent = false)) :
      Flushed dst b w (.ok ()) (b.setSide dst { b.side dst with
        pipe, pending := none, traffic := afterSend (b.side dst).traffic n }) w'
  | closed {queue : ByteBuffer} {n : Nat} {pipe pipe' : P} {w₁ w' : W}
      {result : PipeResult FinStatus} (hq : (b.side dst).pending = some queue)
      (hs : Pipe.send queue.live (b.side dst).pipe w = .ok (.ok n, pipe, w₁))
      (hn : queue.size ≤ n) (hrcvd : (state (b.side dst.peer).pipe).finRcvd = true)
      (hsent : (state pipe).finSent = false)
      (hc : Pipe.sendFin pipe w₁ = .ok (result, pipe', w')) :
      Flushed dst b w (result.map fun _ => ()) (b.setSide dst { b.side dst with
        pipe := pipe', pending := none, traffic := afterSend (b.side dst).traffic n }) w'

theorem flushed {dst : Side} {b b' : Bridge P} {w w' : W} {result : PipeResult Unit}
    (h : b.flush dst w = .ok (result, b', w')) : Flushed dst b w result b' w' := by
  unfold flush at h
  dsimp only at h
  cases hq : (b.side dst).pending with
  | none =>
    simp only [hq, Checked.pure_eq_ok, Except.ok.injEq, Prod.mk.injEq] at h
    obtain ⟨rfl, rfl, rfl⟩ := h
    exact .idle hq
  | some queue =>
    simp only [hq, Checked.bind_eq_ok_iff] at h
    obtain ⟨⟨r, pipe, w₁⟩, hs, h⟩ := h
    match r with
    | .error .wouldBlock =>
      simp only [Checked.pure_eq_ok, Except.ok.injEq, Prod.mk.injEq] at h
      obtain ⟨rfl, rfl, rfl⟩ := h
      exact .refused hq hs
    | .error (.io e) =>
      simp only [Checked.pure_eq_ok, Except.ok.injEq, Prod.mk.injEq] at h
      obtain ⟨rfl, rfl, rfl⟩ := h
      exact .failed hq hs (by simp)
    | .error (.protocol reason) =>
      simp only [Checked.pure_eq_ok, Except.ok.injEq, Prod.mk.injEq] at h
      obtain ⟨rfl, rfl, rfl⟩ := h
      exact .failed hq hs (by simp)
    | .error .broken =>
      simp only [Checked.pure_eq_ok, Except.ok.injEq, Prod.mk.injEq] at h
      obtain ⟨rfl, rfl, rfl⟩ := h
      exact .failed hq hs (by simp)
    | .ok n =>
      dsimp only at h
      split at h
      · rename_i hn
        simp only [Checked.bind_eq_ok_iff, Checked.pure_eq_ok, Except.ok.injEq,
          Prod.mk.injEq] at h
        obtain ⟨rest, hr, rfl, rfl, rfl⟩ := h
        exact .partly hq hs hn hr
      · rename_i hn
        simp only [side_setSide_peer] at h
        split at h
        · rename_i hf
          simp only [Checked.bind_eq_ok_iff, Checked.pure_eq_ok, Except.ok.injEq] at h
          obtain ⟨⟨r, pipe', w₂⟩, hc, h⟩ := h
          simp only [Prod.mk.injEq] at h
          obtain ⟨rfl, rfl, rfl⟩ := h
          simp only [Bool.and_eq_true, Bool.not_eq_true'] at hf
          have hclosed := Flushed.closed hq hs (by omega) hf.1 hf.2 hc
          simpa only [setPipe_eq, side_setSide, setSide_setSide, afterSend] using hclosed
        · rename_i hf
          simp only [Checked.pure_eq_ok, Except.ok.injEq, Prod.mk.injEq] at h
          obtain ⟨rfl, rfl, rfl⟩ := h
          refine .done hq hs (by omega) ?_
          simpa using hf

inductive Transferred (src : Side) (b : Bridge P) (w : W) : PipeResult Nat → Bridge P → W → Prop
  | dry {pipe : P} {w' : W} (hp : (b.side src.peer).pending = none)
      (hr : Pipe.recv (b.side src).recvSize (b.side src).pipe w =
        .ok (.error .wouldBlock, pipe, w')) :
      Transferred src b w (.ok 0) (b.setSide src { b.side src with pipe }) w'
  | failed {e : PipeError} {pipe : P} {w' : W} (hp : (b.side src.peer).pending = none)
      (hr : Pipe.recv (b.side src).recvSize (b.side src).pipe w = .ok (.error e, pipe, w'))
      (he : e ≠ .wouldBlock) :
      Transferred src b w (.error e) (b.setSide src { b.side src with pipe }) w'
  | ended {pipe pipe' : P} {w₁ w' : W} {result : PipeResult FinStatus}
      (hp : (b.side src.peer).pending = none)
      (hr : Pipe.recv (b.side src).recvSize (b.side src).pipe w = .ok (.ok .fin, pipe, w₁))
      (hc : Pipe.sendFin (b.side src.peer).pipe w₁ = .ok (result, pipe', w')) :
      Transferred src b w (result.map fun _ => 0) ((b.setSide src { b.side src with pipe }).setSide
        src.peer { b.side src.peer with pipe := pipe' }) w'
  | undeliverable {chunk : Bytes} {e : PipeError} {pipe pipe' : P} {w₁ w' : W}
      (hp : (b.side src.peer).pending = none)
      (hr : Pipe.recv (b.side src).recvSize (b.side src).pipe w =
        .ok (.ok (.data chunk), pipe, w₁))
      (hs : Pipe.send chunk (b.side src.peer).pipe w₁ = .ok (.error e, pipe', w'))
      (he : e ≠ .wouldBlock) :
      Transferred src b w (.error e) ((b.setSide src { b.side src with
        pipe, traffic := afterRecv (b.side src).traffic chunk.length }).setSide
        src.peer { b.side src.peer with pipe := pipe' }) w'
  | relayed {chunk : Bytes} {r : PipeResult Nat} {n : Nat} {pipe pipe' : P} {w₁ w' : W}
      (hp : (b.side src.peer).pending = none)
      (hr : Pipe.recv (b.side src).recvSize (b.side src).pipe w =
        .ok (.ok (.data chunk), pipe, w₁))
      (hs : Pipe.send chunk (b.side src.peer).pipe w₁ = .ok (r, pipe', w')) (ht : Took r n)
      (hn : chunk.length ≤ n) :
      Transferred src b w (.ok chunk.length) ((b.setSide src { b.side src with
        pipe, traffic := afterRecv (b.side src).traffic chunk.length }).setSide
        src.peer { b.side src.peer with
          pipe := pipe', traffic := afterSend (b.side src.peer).traffic n }) w'
  | congested {chunk : Bytes} {r : PipeResult Nat} {n : Nat} {pipe pipe' : P} {w₁ w' : W}
      (hp : (b.side src.peer).pending = none)
      (hr : Pipe.recv (b.side src).recvSize (b.side src).pipe w =
        .ok (.ok (.data chunk), pipe, w₁))
      (hs : Pipe.send chunk (b.side src.peer).pipe w₁ = .ok (r, pipe', w')) (ht : Took r n)
      (hn : n < chunk.length) :
      Transferred src b w (.ok chunk.length) ((b.setSide src { b.side src with
        pipe, traffic := afterRecv (b.side src).traffic chunk.length }).setSide
        src.peer { b.side src.peer with
          pipe := pipe', pending := some (.copyOf (chunk.drop n)),
          traffic := afterQueueing (b.side src.peer).traffic n }) w'

inductive Delivered (dst : Side) (chunk : Bytes) (b : Bridge P) (w : W) :
    PipeResult Unit → Bridge P → W → Prop
  | failed {e : PipeError} {pipe : P} {w' : W}
      (hs : Pipe.send chunk (b.side dst).pipe w = .ok (.error e, pipe, w'))
      (he : e ≠ .wouldBlock) :
      Delivered dst chunk b w (.error e) (b.setSide dst { b.side dst with pipe }) w'
  | all {r : PipeResult Nat} {n : Nat} {pipe : P} {w' : W}
      (hs : Pipe.send chunk (b.side dst).pipe w = .ok (r, pipe, w')) (ht : Took r n)
      (hn : chunk.length ≤ n) :
      Delivered dst chunk b w (.ok ()) (b.setSide dst { b.side dst with
        pipe, traffic := afterSend (b.side dst).traffic n }) w'
  | part {r : PipeResult Nat} {n : Nat} {pipe : P} {w' : W}
      (hs : Pipe.send chunk (b.side dst).pipe w = .ok (r, pipe, w')) (ht : Took r n)
      (hn : n < chunk.length) :
      Delivered dst chunk b w (.ok ()) (b.setSide dst { b.side dst with
        pipe, pending := some (.copyOf (chunk.drop n)),
        traffic := afterQueueing (b.side dst).traffic n }) w'

theorem delivered {dst : Side} {chunk : Bytes} {b b' : Bridge P} {w w' : W}
    {result : PipeResult Unit} (h : b.deliver dst chunk w = .ok (result, b', w')) :
    Delivered dst chunk b w result b' w' := by
  unfold deliver at h
  simp only [Checked.bind_eq_ok_iff] at h
  obtain ⟨⟨r, pipe, w₁⟩, hs, h⟩ := h
  have htook : ∀ n, Took r n → (if n < chunk.length then
      (pure (.ok (), b.setSide dst { b.side dst with
        pipe, pending := some (.copyOf (chunk.drop n)),
        traffic := afterQueueing (b.side dst).traffic n }, w₁) : Checked _)
      else pure (.ok (), b.setSide dst { b.side dst with
        pipe, traffic := afterSend (b.side dst).traffic n }, w₁)) = .ok (result, b', w') →
      Delivered dst chunk b w result b' w' := by
    intro n ht h
    split at h
    · rename_i hn
      simp only [Checked.pure_eq_ok, Except.ok.injEq, Prod.mk.injEq] at h
      obtain ⟨rfl, rfl, rfl⟩ := h
      exact .part hs ht hn
    · rename_i hn
      simp only [Checked.pure_eq_ok, Except.ok.injEq, Prod.mk.injEq] at h
      obtain ⟨rfl, rfl, rfl⟩ := h
      exact .all hs ht (by omega)
  match r with
  | .ok n => exact htook n (.inl rfl) h
  | .error .wouldBlock => exact htook 0 (.inr ⟨rfl, rfl⟩) h
  | .error (.io e) =>
    simp only [Checked.pure_eq_ok, Except.ok.injEq, Prod.mk.injEq] at h
    obtain ⟨rfl, rfl, rfl⟩ := h
    exact .failed hs (by simp)
  | .error (.protocol reason) =>
    simp only [Checked.pure_eq_ok, Except.ok.injEq, Prod.mk.injEq] at h
    obtain ⟨rfl, rfl, rfl⟩ := h
    exact .failed hs (by simp)
  | .error .broken =>
    simp only [Checked.pure_eq_ok, Except.ok.injEq, Prod.mk.injEq] at h
    obtain ⟨rfl, rfl, rfl⟩ := h
    exact .failed hs (by simp)

theorem transferred {src : Side} {b b' : Bridge P} {w w' : W} {result : PipeResult Nat}
    (h : b.transfer src w = .ok (result, b', w')) : Transferred src b w result b' w' := by
  unfold transfer at h
  split at h
  · simp at h
  rename_i hp
  have hp : (b.side src.peer).pending = none := by simpa using hp
  simp only [Checked.bind_eq_ok_iff] at h
  obtain ⟨⟨r, pipe, w₁⟩, hr, h⟩ := h
  match r with
  | .error .wouldBlock =>
    simp only [Checked.pure_eq_ok, Except.ok.injEq, Prod.mk.injEq] at h
    obtain ⟨rfl, rfl, rfl⟩ := h
    exact .dry hp hr
  | .error (.io e) =>
    simp only [Checked.pure_eq_ok, Except.ok.injEq, Prod.mk.injEq] at h
    obtain ⟨rfl, rfl, rfl⟩ := h
    exact .failed hp hr (by simp)
  | .error (.protocol reason) =>
    simp only [Checked.pure_eq_ok, Except.ok.injEq, Prod.mk.injEq] at h
    obtain ⟨rfl, rfl, rfl⟩ := h
    exact .failed hp hr (by simp)
  | .error .broken =>
    simp only [Checked.pure_eq_ok, Except.ok.injEq, Prod.mk.injEq] at h
    obtain ⟨rfl, rfl, rfl⟩ := h
    exact .failed hp hr (by simp)
  | .ok .fin =>
    simp only [Checked.bind_eq_ok_iff, Checked.pure_eq_ok, Except.ok.injEq, setPipe_eq,
      side_setSide_peer] at h
    obtain ⟨⟨r, pipe', w₂⟩, hc, h⟩ := h
    simp only [Prod.mk.injEq] at h
    obtain ⟨rfl, rfl, rfl⟩ := h
    exact .ended hp hr hc
  | .ok (.data chunk) =>
    simp only [Checked.bind_eq_ok_iff, Checked.pure_eq_ok, Except.ok.injEq, setPipe_eq,
      side_setSide, setSide_setSide] at h
    obtain ⟨⟨r, b₂, w₂⟩, hd, h⟩ := h
    simp only [Prod.mk.injEq] at h
    obtain ⟨rfl, rfl, rfl⟩ := h
    cases delivered hd with
    | failed hs he =>
      simp only [side_setSide_peer] at hs ⊢
      exact .undeliverable hp hr hs he
    | all hs ht hn =>
      simp only [side_setSide_peer] at hs ⊢
      exact .relayed hp hr hs ht hn
    | part hs ht hn =>
      simp only [side_setSide_peer] at hs ⊢
      exact .congested hp hr hs ht hn

/-- What relaying can come to, where `n` bytes were relayed before. -/
inductive Relayed (src : Side) :
    (n : Nat) → Bridge P → W → PipeResult Unit → Bridge P → W → Prop
  | stopped {n : Nat} {b : Bridge P} {w : W} (hv : b.verdict src n = .stop) :
      Relayed src n b w (.ok ()) b w
  | yielded {n : Nat} {b : Bridge P} {w : W} (hv : b.verdict src n = .yield) :
      Relayed src n b w (.ok ()) b (Pipe.rescheduleRead (b.side src).pipe w)
  | failed {n : Nat} {b b' : Bridge P} {w w' : W} {e : PipeError} (hv : b.verdict src n = .go)
      (ht : b.transfer src w = .ok (.error e, b', w')) : Relayed src n b w (.error e) b' w'
  | more {n k : Nat} {b b₁ b' : Bridge P} {w w₁ w' : W} {result : PipeResult Unit}
      (hv : b.verdict src n = .go) (ht : b.transfer src w = .ok (.ok k, b₁, w₁))
      (hr : Relayed src (n + k) b₁ w₁ result b' w') : Relayed src n b w result b' w'

theorem relayed_within {src : Side} {fuel n : Nat} {b b' : Bridge P} {w w' : W}
    {result : PipeResult Unit} (h : relayWithin src fuel n b w = .ok (result, b', w')) :
    Relayed src n b w result b' w' := by
  -- the receives that are allowed for leave no trace in the outcome, so any number of them will do
  induction fuel generalizing n b w with
  | zero =>
    unfold relayWithin at h
    cases hv : b.verdict src n with
    | stop =>
      simp only [hv, Except.ok.injEq, Prod.mk.injEq] at h
      obtain ⟨rfl, rfl, rfl⟩ := h
      exact .stopped hv
    | yield =>
      simp only [hv, Except.ok.injEq, Prod.mk.injEq] at h
      obtain ⟨rfl, rfl, rfl⟩ := h
      exact .yielded hv
    | go => simp [hv] at h
  | succ fuel ih =>
    unfold relayWithin at h
    cases hv : b.verdict src n with
    | stop =>
      simp only [hv, Except.ok.injEq, Prod.mk.injEq] at h
      obtain ⟨rfl, rfl, rfl⟩ := h
      exact .stopped hv
    | yield =>
      simp only [hv, Except.ok.injEq, Prod.mk.injEq] at h
      obtain ⟨rfl, rfl, rfl⟩ := h
      exact .yielded hv
    | go =>
      simp only [hv, Checked.bind_eq_ok_iff] at h
      obtain ⟨⟨r, b₁, w₁⟩, ht, h⟩ := h
      cases r with
      | error e =>
        simp only [Checked.pure_eq_ok, Except.ok.injEq, Prod.mk.injEq] at h
        obtain ⟨rfl, rfl, rfl⟩ := h
        exact .failed hv ht
      | ok k => exact .more hv ht (ih h)

theorem relayed {src : Side} {b b' : Bridge P} {w w' : W} {result : PipeResult Unit}
    (h : b.relay src w = .ok (result, b', w')) : Relayed src 0 b w result b' w' :=
  relayed_within h

end Bridge

end DuplexRelay
