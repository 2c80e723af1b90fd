import DuplexRelay.Pipe.Datagram
import DuplexRelay.Proofs.Checked

/-! What each operation of a datagram pipe can come to. A receive looks into the reassembly buffer
first, and only where no complete datagram is in it goes to the pipe below. How the buffer is laid
out does not matter, so outcomes are told by a view that knows its bytes only. -/

namespace DuplexRelay.Datagram

/-- The first datagram in a byte string and what follows it, where no datagram may have more bytes
than `limit`. There is none yet if the bytes end before the datagram does. -/
def firstFrame (limit : Nat) (bytes : Bytes) : Except Unit (Option (Bytes × Bytes)) :=
  match Varint.parse bytes with
  | .error _ => .error ()
  | .ok none => .ok none
  | .ok (some header) =>
    if limit < header.size then .error ()
    else if bytes.length < header.length + header.size then .ok none
    else .ok (some ((bytes.drop header.length).take header.size,
      bytes.drop (header.length + header.size)))

/-- A datagram pipe without the layout of its reassembly buffer. -/
structure View (P : Type) where
  inner : Atomic P
  maxSize : Nat
  /-- what was received and not returned yet -/
  assembled : Bytes
  broken : Bool

variable {P W C : Type} {p p' : Datagram P} {w w' : W}

/-- What was received and not returned yet. -/
def assembled (p : Datagram P) : Bytes := (p.assembly.map (·.live)).getD []

/-- The pipe without the layout of its reassembly buffer. -/
def view (p : Datagram P) : View P where
  inner := p.inner
  maxSize := p.maxSize
  assembled := p.assembled
  broken := p.broken

theorem eq_of_wrap {inner : P} {maxSize : Nat} (h : wrap inner maxSize = .ok p) :
    maxSize ≤ Varint.maxValue ∧ p = { inner := { inner }, maxSize } := by
  unfold wrap at h
  split at h
  · rename_i hmax
    cases h
    exact ⟨hmax, rfl⟩
  · cases h

def View.failed (v : View P) : View P := { v with assembled := [], broken := true }

@[simp] theorem view_fail (reason : String) (p : Datagram P) :
    (p.fail reason).2.view = p.view.failed := rfl

@[simp] theorem view_releaseEmpty (p : Datagram P) : p.releaseEmpty.view = p.view := by
  unfold releaseEmpty
  cases ha : p.assembly with
  | none => rfl
  | some assembly =>
    dsimp only
    split
    · rename_i he
      simp only [ByteBuffer.isEmpty, List.isEmpty_iff] at he
      simp [view, assembled, ha, he]
    · rfl

/-- A look into the reassembly buffer finds what is first in its bytes. -/
theorem extracted {room : Nat} {result : PipeResult (Option Bytes)}
    (h : extract room p = .ok (result, p')) :
    firstFrame (min p.maxSize room) p.assembled = .error () ∧
        (∃ reason, result = .error (.protocol reason)) ∧ p'.view = p.view.failed ∨
      firstFrame (min p.maxSize room) p.assembled = .ok none ∧ result = .ok none ∧ p' = p ∨
      ∃ payload rest, firstFrame (min p.maxSize room) p.assembled = .ok (some (payload, rest)) ∧
        result = .ok (some payload) ∧ p'.view = { p.view with assembled := rest } := by
  unfold extract at h
  unfold firstFrame
  cases ha : p.assembly with
  | none =>
    simp only [ha] at h
    cases h
    have hempty : Varint.parse p.assembled = .ok none := by
      simp only [assembled, ha]
      rfl
    simp [hempty]
  | some assembly =>
    have hl : p.assembled = assembly.live := by simp [assembled, ha]
    simp only [ha] at h
    rw [← hl] at h
    cases hp : Varint.parse p.assembled with
    | error e =>
      simp only [hp] at h
      cases h
      exact .inl ⟨rfl, ⟨_, rfl⟩, rfl⟩
    | ok found =>
      cases found with
      | none =>
        simp only [hp] at h
        cases h
        exact .inr (.inl ⟨rfl, rfl, rfl⟩)
      | some header =>
        simp only [hp] at h
        split at h
        · rename_i hm
          cases h
          exact .inl ⟨if_pos (by omega), ⟨_, rfl⟩, rfl⟩
        rename_i hm
        split at h
        · rename_i hr
          cases h
          exact .inl ⟨if_pos (by omega), ⟨_, rfl⟩, rfl⟩
        rename_i hr
        dsimp only
        rw [if_neg (show ¬min p.maxSize room < header.size by omega)]
        split at h
        · rename_i hs
          cases h
          exact .inr (.inl ⟨if_pos (by rw [hl]; exact hs), rfl, rfl⟩)
        · rename_i hs
          have hle : header.length + header.size ≤ assembly.size := by omega
          obtain ⟨rest, hrest, hlive⟩ := ByteBuffer.consume_eq_ok hle
          simp only [hrest, Checked.ok_bind] at h
          cases h
          refine .inr (.inr ⟨_, _, if_neg (by rw [hl]; exact hs), rfl, ?_⟩)
          simp [view, assembled, hlive, ha]

theorem live_prepare {room : Nat} {held : Option ByteBuffer} {buffer : ByteBuffer}
    (h : prepare room held = .ok buffer) : buffer.live = (held.map (·.live)).getD [] := by
  unfold prepare at h
  cases held with
  | none =>
    simp only [ByteBuffer.alloc, ByteBuffer.seeded] at h
    split at h
    · simp at h
    split at h
    · simp at h
    cases h
    rfl
  | some held =>
    dsimp only at h
    split at h
    · simp only [ByteBuffer.regrow, ByteBuffer.seeded] at h
      split at h
      · simp at h
      split at h
      · simp at h
      cases h
      rfl
    · cases h
      simp

variable [Pipe P W C]

inductive Received (room : Nat) (v : View P) (w : W) : PipeResult Recv → View P → W → Prop
  | broken (hb : v.broken = true ∨ (state v.inner).broken = true) :
      Received room v w (.error .broken) v w
  | found {payload rest : Bytes} (hb : v.broken = false) (hi : (state v.inner).broken = false)
      (hf : firstFrame (min v.maxSize room) v.assembled = .ok (some (payload, rest))) :
      Received room v w (.ok (.data payload)) { v with assembled := rest } w
  | violated {reason : String} (hb : v.broken = false) (hi : (state v.inner).broken = false)
      (hf : firstFrame (min v.maxSize room) v.assembled = .error ()) :
      Received room v w (.error (.protocol reason)) v.failed w
  | refused {n : Nat} {e : PipeError} {inner : Atomic P} {w' : W} (hb : v.broken = false)
      (hi : (state v.inner).broken = false)
      (hf : firstFrame (min v.maxSize room) v.assembled = .ok none)
      (hr : Pipe.recv n v.inner w = .ok (.error e, inner, w')) :
      Received room v w (.error e) { v with inner } w'
  | incomplete {n : Nat} {chunk : Bytes} {inner : Atomic P} {w' : W} (hb : v.broken = false)
      (hi : (state v.inner).broken = false)
      (hf : firstFrame (min v.maxSize room) v.assembled = .ok none)
      (hr : Pipe.recv n v.inner w = .ok (.ok (.data chunk), inner, w'))
      (hn : firstFrame (min v.maxSize room) (v.assembled ++ chunk) = .ok none) :
      Received room v w (.error .wouldBlock)
        { v with inner, assembled := v.assembled ++ chunk } w'
  | completed {n : Nat} {chunk payload rest : Bytes} {inner : Atomic P} {w' : W}
      (hb : v.broken = false) (hi : (state v.inner).broken = false)
      (hf : firstFrame (min v.maxSize room) v.assembled = .ok none)
      (hr : Pipe.recv n v.inner w = .ok (.ok (.data chunk), inner, w'))
      (hn : firstFrame (min v.maxSize room) (v.assembled ++ chunk) =
        .ok (some (payload, rest))) :
      Received room v w (.ok (.data payload)) { v with inner, assembled := rest } w'
  | corrupted {n : Nat} {chunk : Bytes} {reason : String} {inner : Atomic P} {w' : W}
      (hb : v.broken = false) (hi : (state v.inner).broken = false)
      (hf : firstFrame (min v.maxSize room) v.assembled = .ok none)
      (hr : Pipe.recv n v.inner w = .ok (.ok (.data chunk), inner, w'))
      (hn : firstFrame (min v.maxSize room) (v.assembled ++ chunk) = .error ()) :
      Received room v w (.error (.protocol reason)) { v with inner }.failed w'
  | ended {n : Nat} {inner : Atomic P} {w' : W} (hb : v.broken = false)
      (hi : (state v.inner).broken = false) (hf : v.assembled = [])
      (hr : Pipe.recv n v.inner w = .ok (.ok .fin, inner, w')) :
      Received room v w (.ok .fin) { v with inner } w'
  | cut {n : Nat} {reason : String} {inner : Atomic P} {w' : W} (hb : v.broken = false)
      (hi : (state v.inner).broken = false)
      (hf : firstFrame (min v.maxSize room) v.assembled = .ok none) (ha : v.assembled ≠ [])
      (hr : Pipe.recv n v.inner w = .ok (.ok .fin, inner, w')) :
      Received room v w (.error (.protocol reason)) { v with inner }.failed w'

theorem gathered {room : Nat} {result : PipeResult Recv} (hb : p.broken = false)
    (hi : (state p.inner).broken = false)
    (hf : firstFrame (min p.maxSize room) p.assembled = .ok none)
    (h : gather room p w = .ok (result, p', w')) : Received room p.view w result p'.view w' := by
  unfold gather at h
  simp only [Checked.bind_eq_ok_iff] at h
  obtain ⟨buffer, hprep, ⟨r, inner, w₁⟩, hr, h⟩ := h
  have hlive : buffer.live = p.assembled := live_prepare hprep
  have hview : ({ p with inner, assembly := some buffer } : Datagram P).view =
      { p.view with inner } := by
    simp [view, assembled, hlive]
  match r with
  | .error e =>
    cases h
    rw [hview]
    exact .refused hb hi hf hr
  | .ok .fin =>
    dsimp only at h
    split at h
    · rename_i he
      cases h
      rw [hview]
      have hnothing : p.assembled = [] := by simpa [ByteBuffer.isEmpty, hlive] using he
      exact .ended hb hi hnothing hr
    · rename_i he
      cases h
      rw [view_fail, hview]
      have hsome : p.assembled ≠ [] := by simpa [ByteBuffer.isEmpty, hlive] using he
      exact .cut hb hi hf hsome hr
  | .ok (.data chunk) =>
    simp only [Checked.bind_eq_ok_iff] at h
    obtain ⟨filled, happend, ⟨found, q⟩, hx, h⟩ := h
    -- a chunk that did not fit would have stopped the receive
    have hfilled : filled.live = p.assembled ++ chunk := by
      by_cases hroom : chunk.length ≤ buffer.tailRoom
      · obtain ⟨after, hafter, hl⟩ := ByteBuffer.append_eq_ok hroom
        rw [happend] at hafter
        cases hafter
        rw [hl, hlive]
      · simp [ByteBuffer.append, hroom] at happend
    have hassembled : ({ p with inner, assembly := some filled } : Datagram P).assembled =
        p.assembled ++ chunk := by
      simp [assembled, hfilled]
    rcases extracted hx with ⟨hn, ⟨reason, rfl⟩, hq⟩ | ⟨hn, rfl, rfl⟩ | ⟨payload, rest, hn, rfl, hq⟩
    · cases h
      rw [hassembled] at hn
      rw [hq]
      exact .corrupted hb hi hf hr hn
    · cases h
      rw [hassembled] at hn
      have hincomplete : Received room p.view w (.error .wouldBlock)
          { p.view with inner, assembled := p.assembled ++ chunk } w' :=
        .incomplete hb hi hf hr hn
      rwa [← hassembled] at hincomplete
    · cases h
      rw [hassembled] at hn
      rw [hq]
      exact .completed hb hi hf hr hn

theorem received {room : Nat} {result : PipeResult Recv}
    (h : Pipe.recv room p w = .ok (result, p', w')) :
    Received room p.view w result p'.view w' := by
  replace h : recvDatagram room p w = .ok (result, p', w') := h
  unfold recvDatagram at h
  split at h
  · rename_i hb
    cases h
    exact .broken (by simpa [view] using hb)
  rename_i hb
  simp only [Bool.or_eq_true, not_or, Bool.not_eq_true] at hb
  simp only [Checked.bind_eq_ok_iff] at h
  obtain ⟨⟨found, q⟩, hx, h⟩ := h
  rcases extracted hx with ⟨hf, ⟨reason, rfl⟩, hq⟩ | ⟨hf, rfl, rfl⟩ | ⟨payload, rest, hf, rfl, hq⟩
  · cases h
    rw [view_releaseEmpty, hq]
    exact .violated hb.1 hb.2 hf
  · simp only [Checked.bind_eq_ok_iff] at h
    obtain ⟨⟨r, q', w₁⟩, hg, h⟩ := h
    cases h
    rw [view_releaseEmpty]
    exact gathered hb.1 hb.2 hf hg
  · cases h
    rw [view_releaseEmpty, hq]
    exact .found hb.1 hb.2 hf

inductive Sent (data : Bytes) (p : Datagram P) (w : W) : PipeResult Nat → Datagram P → W → Prop
  | broken (hb : p.broken = true) : Sent data p w (.error .broken) p w
  | excessive {reason : String} (hb : p.broken = false) (hs : p.maxSize < data.length) :
      Sent data p w (.error (.protocol reason)) (p.fail reason).2 w
  | waiting (hb : p.broken = false) (hs : data.length ≤ p.maxSize)
      (hw : (state p.inner).isWritable = false) : Sent data p w (.error .wouldBlock) p w
  | unframed {e : Varint.Error} {reason : String} (hb : p.broken = false)
      (hs : data.length ≤ p.maxSize) (hf : frame data = .error e) :
      Sent data p w (.error (.protocol reason)) (p.fail reason).2 w
  | passed {framed : Bytes} {result : PipeResult Nat} {inner : Atomic P} {w' : W}
      (hb : p.broken = false) (hs : data.length ≤ p.maxSize)
      (hw : (state p.inner).isWritable = true) (hf : frame data = .ok framed)
      (hr : Pipe.send framed p.inner w = .ok (result, inner, w')) :
      Sent data p w (result.map fun _ => data.length) { p with inner } w'

theorem sent {data : Bytes} {result : PipeResult Nat}
    (h : Pipe.send data p w = .ok (result, p', w')) : Sent data p w result p' w' := by
  replace h : sendDatagram data p w = .ok (result, p', w') := h
  unfold sendDatagram at h
  by_cases hb : p.broken = true
  · rw [if_pos hb] at h
    cases h
    exact .broken hb
  rw [if_neg hb] at h
  have hb : p.broken = false := by simpa using hb
  by_cases hs : p.maxSize < data.length
  · rw [if_pos hs] at h
    cases h
    exact .excessive hb hs
  rw [if_neg hs] at h
  by_cases hw : (state p.inner).isWritable = true
  · rw [if_neg (by simp [hw])] at h
    cases hf : frame data with
    | error e =>
      simp only [hf] at h
      cases h
      exact .unframed hb (by omega) hf
    | ok framed =>
      simp only [hf, Checked.bind_eq_ok_iff] at h
      obtain ⟨⟨r, inner, w₁⟩, hr, h⟩ := h
      cases h
      exact .passed hb (by omega) hw hf hr
  · rw [if_pos (by simpa using hw)] at h
    cases h
    exact .waiting hb (by omega) (by simpa using hw)

theorem closed {p p' : Datagram P} {w w' : W} {result : PipeResult FinStatus}
    (h : Pipe.sendFin p w = .ok (result, p', w')) :
    p.broken = true ∧ result = .error .broken ∧ p' = p ∧ w' = w ∨
      p.broken = false ∧ ∃ inner, Pipe.sendFin p.inner w = .ok (result, inner, w') ∧
        p' = { p with inner } := by
  change (if p.broken then _ else Pipe.sendFin p.inner w >>= _) = _ at h
  by_cases hb : p.broken = true
  · rw [if_pos hb] at h
    cases h
    exact .inl ⟨hb, rfl, rfl, rfl⟩
  · rw [if_neg hb] at h
    obtain ⟨⟨_, inner, _⟩, hc, heq⟩ := Checked.bind_eq_ok_iff.mp h
    cases heq
    exact .inr ⟨by simpa using hb, inner, hc, rfl⟩

end DuplexRelay.Datagram
