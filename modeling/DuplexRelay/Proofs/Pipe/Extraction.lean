import DuplexRelay.Proofs.ByteBuffer
import DuplexRelay.Proofs.Pipe.Framing

/-! Receives of a datagram pipe forwards: given what the pipe below answers, each of them comes to a
result, and to which one is told by the bytes at hand alone, down to the wording of an error. -/

namespace DuplexRelay

namespace Datagram

variable {P W C : Type} {p : Datagram P} {maxSize room : Nat} {bytes payload rest : Bytes}
  {reason : String}

/-- What is called for by the bytes at hand: a datagram and the bytes behind it, nothing yet, or an
error with its wording. -/
def front (maxSize room : Nat) (bytes : Bytes) : Except String (Option (Bytes × Bytes)) :=
  match Varint.parse bytes with
  | .error e => .error (badHeader e)
  | .ok none => .ok none
  | .ok (some header) =>
    if maxSize < header.size then .error (exceedsMaximum header.size maxSize)
    else if room < header.size then .error (exceedsRoom header.size room)
    else if bytes.length < header.length + header.size then .ok none
    else .ok (some ((bytes.drop header.length).take header.size,
      bytes.drop (header.length + header.size)))

/-- But for the wording, the two limits are one. -/
theorem firstFrame_eq (maxSize room : Nat) (bytes : Bytes) :
    firstFrame (min maxSize room) bytes = (front maxSize room bytes).mapError fun _ => () := by
  unfold firstFrame front
  cases Varint.parse bytes with
  | error e => rfl
  | ok found =>
    cases found with
    | none => rfl
    | some header =>
      dsimp only
      by_cases hm : maxSize < header.size
      · rw [if_pos (by omega), if_pos hm]
        rfl
      · rw [if_neg hm]
        by_cases hr : room < header.size
        · rw [if_pos (by omega), if_pos hr]
          rfl
        · rw [if_neg (by omega), if_neg hr]
          split <;> rfl

theorem front_eq_some_iff : front maxSize room bytes = .ok (some (payload, rest)) ↔
    firstFrame (min maxSize room) bytes = .ok (some (payload, rest)) := by
  rw [firstFrame_eq]
  cases front maxSize room bytes <;> simp [Except.mapError]

theorem front_append_of_error (h : front maxSize room bytes = .error reason) (tail : Bytes) :
    front maxSize room (bytes ++ tail) = .error reason := by
  unfold front at h ⊢
  have hparse : Varint.parse bytes ≠ .ok none := by
    intro hnone
    simp [hnone] at h
  rw [Varint.parse_append hparse]
  cases hp : Varint.parse bytes with
  | error e => simpa [hp] using h
  | ok found =>
    cases found with
    | none => exact absurd hp hparse
    | some header =>
      simp only [hp] at h ⊢
      split at h
      · rename_i hlarge
        rw [if_pos hlarge]
        exact h
      · rename_i hlarge
        rw [if_neg hlarge]
        split at h
        · rename_i hunfit
          rw [if_pos hunfit]
          exact h
        · split at h <;> cases h

/-- A frame that is there is taken in the same way whatever follows. -/
theorem front_append_of_some (h : front maxSize room bytes = .ok (some (payload, rest)))
    (tail : Bytes) : front maxSize room (bytes ++ tail) = .ok (some (payload, rest ++ tail)) := by
  have hparse : Varint.parse bytes ≠ .ok none := by
    intro hnone
    simp [front, hnone] at h
  unfold front at h ⊢
  rw [Varint.parse_append hparse]
  cases hp : Varint.parse bytes with
  | error e => simp [hp] at h
  | ok found =>
    cases found with
    | none => exact absurd hp hparse
    | some header =>
      simp only [hp] at h ⊢
      split at h
      · cases h
      rename_i hlarge
      split at h
      · cases h
      rename_i hunfit
      split at h
      · cases h
      rename_i hlong
      cases h
      rw [if_neg hlarge, if_neg hunfit, if_neg (by rw [List.length_append]; omega),
        List.drop_append_of_le_length (by omega), List.drop_append_of_le_length (by omega),
        List.take_append_of_le_length (by rw [List.length_drop]; omega)]

/-- Bytes that are the beginning of a frame are fewer than the longest frame that fits. -/
theorem length_lt_of_front (h : front maxSize room bytes = .ok none) :
    bytes.length < Varint.maxLength + room := by
  unfold front at h
  cases hp : Varint.parse bytes with
  | error e => simp [hp] at h
  | ok found =>
    cases found with
    | none =>
      have hshort := (Varint.begun_of_parse hp).1
      omega
    | some header =>
      have hbound := (Varint.bounds_of_parse hp).1
      simp only [hp] at h
      split at h
      · cases h
      split at h
      · cases h
      split at h
      · omega
      · cases h

/-- A look into the reassembly buffer finds what its bytes call for. -/
theorem extract_eq (room : Nat) (p : Datagram P) :
    match front p.maxSize room p.assembled with
    | .error reason => extract room p = .ok (.error (.protocol reason), (p.fail reason).2)
    | .ok none => extract room p = .ok (.ok none, p)
    | .ok (some (payload, rest)) => ∃ p', extract room p = .ok (.ok (some payload), p') ∧
        p'.view = { p.view with assembled := rest } := by
  unfold extract front
  cases ha : p.assembly with
  | none =>
    have hempty : Varint.parse p.assembled = .ok none := by
      simp only [assembled, ha]
      rfl
    simp [hempty]
  | some assembly =>
    have hl : assembly.live = p.assembled := by simp [assembled, ha]
    have hs : assembly.size = p.assembled.length := by rw [ByteBuffer.size, hl]
    dsimp only
    rw [hl, hs]
    cases hp : Varint.parse p.assembled with
    | error e => rfl
    | ok found =>
      cases found with
      | none => rfl
      | some header =>
        dsimp only
        by_cases hm : p.maxSize < header.size
        · rw [if_pos hm, if_pos hm]
          rfl
        rw [if_neg hm, if_neg hm]
        by_cases hr : room < header.size
        · rw [if_pos hr, if_pos hr]
          rfl
        rw [if_neg hr, if_neg hr]
        by_cases hlong : p.assembled.length < header.length + header.size
        · rw [if_pos hlong, if_pos hlong]
          rfl
        rw [if_neg hlong, if_neg hlong]
        have hle : header.length + header.size ≤ assembly.size := by omega
        obtain ⟨left, hleft, hlive⟩ := ByteBuffer.consume_eq_ok hle
        refine ⟨{ p with assembly := some left }, ?_, ?_⟩
        · rw [hleft]
          rfl
        · simp [view, assembled, hlive, ha]

theorem seeded_cases {capacity : Nat} {data : Bytes} (h : data.length ≤ capacity) :
    ByteBuffer.seeded capacity data = .ok ⟨[], data, [], capacity - data.length⟩ ∨
      ByteBuffer.seeded capacity data = .error .capacityExceeded ∧
        ByteBuffer.maxCapacity < capacity := by
  by_cases hmax : capacity ≤ ByteBuffer.maxCapacity
  · exact .inl (ByteBuffer.seeded_eq_ok h hmax)
  · refine .inr ⟨?_, by omega⟩
    rw [ByteBuffer.seeded, if_neg (by omega), if_pos (by omega)]

/-- What is gathered so far leaves room in a reassembly buffer as long as it is only the beginning
of a frame. There is such a buffer unless it would be larger than any store. -/
theorem prepared (p : Datagram P) (hshort : p.assembled.length < Varint.maxLength + room) :
    (∃ buffer, prepare room p.assembly = .ok buffer ∧ buffer.live = p.assembled ∧
      0 < buffer.tailRoom) ∨
    prepare room p.assembly = .error .capacityExceeded ∧
      ByteBuffer.maxCapacity < Varint.maxLength + room := by
  unfold prepare
  cases ha : p.assembly with
  | none =>
    have hfits : ([] : Bytes).length ≤ Varint.maxLength + room := Nat.zero_le _
    rcases seeded_cases hfits with hnew | hnew
    · refine .inl ⟨_, hnew, ?_, ?_⟩
      · simp [assembled, ha]
      · simp only [ByteBuffer.tailRoom, List.length_nil, Varint.maxLength]
        omega
    · exact .inr hnew
  | some held =>
    have hl : held.live = p.assembled := by simp [assembled, ha]
    have hs : held.size = p.assembled.length := by rw [ByteBuffer.size, hl]
    dsimp only
    split
    · have hmax : max (Varint.maxLength + room) held.size = Varint.maxLength + room := by omega
      have hfits : held.live.length ≤ Varint.maxLength + room := by
        rw [hl]
        omega
      unfold ByteBuffer.regrow
      rw [hmax]
      rcases seeded_cases hfits with hgrown | hgrown
      · refine .inl ⟨_, hgrown, hl, ?_⟩
        simp only [ByteBuffer.tailRoom, List.length_nil, hl]
        omega
      · exact .inr hgrown
    · refine .inl ⟨held.compact, rfl, ?_, ?_⟩
      · rw [ByteBuffer.live_compact, hl]
      · rw [ByteBuffer.tailRoom_compact]
        omega

variable [Pipe P W C] {w w' : W} {inner : Atomic P}

/-- A datagram that was received before is returned without a look at the pipe below. -/
theorem recv_found (hb : p.broken = false) (hi : (state p.inner).broken = false)
    (h : front p.maxSize room p.assembled = .ok (some (payload, rest))) :
    ∃ p', Pipe.recv room p w = .ok (.ok (.data payload), p', w) ∧
      p'.view = { p.view with assembled := rest } := by
  have hextract := extract_eq room p
  rw [h] at hextract
  obtain ⟨q, hq, hview⟩ := hextract
  refine ⟨q.releaseEmpty, ?_, by rw [view_releaseEmpty, hview]⟩
  change recvDatagram room p w = _
  simp [recvDatagram, hb, hi, hq]

theorem recv_violated (hb : p.broken = false) (hi : (state p.inner).broken = false)
    (h : front p.maxSize room p.assembled = .error reason) :
    ∃ p', Pipe.recv room p w = .ok (.error (.protocol reason), p', w) := by
  have hextract := extract_eq room p
  rw [h] at hextract
  change ∃ p', recvDatagram room p w = _
  simp only [recvDatagram, hb, hi, hextract]
  exact ⟨_, rfl⟩

section Gather

variable {buffer filled : ByteBuffer} {n : Nat}

theorem gather_refused {e : PipeError} (hp : prepare room p.assembly = .ok buffer)
    (hr : Pipe.recv buffer.tailRoom p.inner w = .ok (.error e, inner, w')) :
    gather room p w = .ok (.error e, { p with inner, assembly := some buffer }, w') := by
  simp only [gather, hp, hr, Checked.ok_bind, Checked.pure_eq_ok]

theorem gather_ended (hp : prepare room p.assembly = .ok buffer) (he : buffer.isEmpty = true)
    (hr : Pipe.recv buffer.tailRoom p.inner w = .ok (.ok .fin, inner, w')) :
    gather room p w = .ok (.ok .fin, { p with inner, assembly := some buffer }, w') := by
  simp only [gather, hp, hr, he, if_true, Checked.ok_bind, Checked.pure_eq_ok]

theorem gather_cut (hp : prepare room p.assembly = .ok buffer) (he : buffer.isEmpty = false)
    (hr : Pipe.recv buffer.tailRoom p.inner w = .ok (.ok .fin, inner, w')) :
    gather room p w = .ok (.error (.protocol (cutShort buffer.size)),
      (({ p with inner, assembly := some buffer } : Datagram P).fail (cutShort buffer.size)).2,
      w') := by
  simp only [gather, hp, hr, he, Bool.false_eq_true, if_false, Checked.ok_bind, Checked.pure_eq_ok]
  rfl

theorem gather_extracted {chunk : Bytes} {found : PipeResult (Option Bytes)} {q : Datagram P}
    (hp : prepare room p.assembly = .ok buffer) (ha : buffer.append chunk = .ok filled)
    (hr : Pipe.recv buffer.tailRoom p.inner w = .ok (.ok (.data chunk), inner, w'))
    (hx : extract room { p with inner, assembly := some filled } = .ok (found, q)) :
    gather room p w = .ok (match found with
      | .error e => .error e
      | .ok none => .error .wouldBlock
      | .ok (some payload) => .ok (.data payload), q, w') := by
  simp only [gather, hp, hr, ha, hx, Checked.ok_bind]
  cases found with
  | error e => rfl
  | ok found => cases found <;> rfl

/-- Where no datagram is at hand, a receive is one from the pipe below. -/
theorem recv_eq_gather (hb : p.broken = false) (hi : (state p.inner).broken = false)
    (h : front p.maxSize room p.assembled = .ok none) :
    Pipe.recv room p w = (gather room p w).map fun (r, p, w) => (r, p.releaseEmpty, w) := by
  have hextract := extract_eq room p
  rw [h] at hextract
  change recvDatagram room p w = _
  simp only [recvDatagram, hb, hi, hextract, Bool.or_self, Bool.false_eq_true, if_false,
    Checked.ok_bind]
  cases gather room p w <;> rfl

end Gather

/-- What comes of a receive that asks the pipe below, by what that one answers. -/
inductive Gathers (room : Nat) (v : View P) (inner : Atomic P) :
    PipeResult Recv → PipeResult Recv → View P → Prop
  | refused {e : PipeError} : Gathers room v inner (.error e) (.error e) { v with inner }
  | ended (ha : v.assembled = []) : Gathers room v inner (.ok .fin) (.ok .fin) { v with inner }
  | cut {v' : View P} (ha : v.assembled ≠ []) : Gathers room v inner (.ok .fin)
      (.error (.protocol (cutShort v.assembled.length))) v'
  | violated {chunk : Bytes} {reason : String} {v' : View P}
      (hf : front v.maxSize room (v.assembled ++ chunk) = .error reason) :
      Gathers room v inner (.ok (.data chunk)) (.error (.protocol reason)) v'
  | incomplete {chunk : Bytes} (hf : front v.maxSize room (v.assembled ++ chunk) = .ok none) :
      Gathers room v inner (.ok (.data chunk)) (.error .wouldBlock)
        { v with inner, assembled := v.assembled ++ chunk }
  | completed {chunk payload rest : Bytes}
      (hf : front v.maxSize room (v.assembled ++ chunk) = .ok (some (payload, rest))) :
      Gathers room v inner (.ok (.data chunk)) (.ok (.data payload))
        { v with inner, assembled := rest }

section Answers

variable {buffer : ByteBuffer} (hp : prepare room p.assembly = .ok buffer)
  (hlive : buffer.live = p.assembled)
include hp hlive

theorem gathers_refused {e : PipeError}
    (hr : Pipe.recv buffer.tailRoom p.inner w = .ok (.error e, inner, w')) :
    ∃ result q, gather room p w = .ok (result, q, w') ∧
      Gathers room p.view inner (.error e) result q.releaseEmpty.view := by
  have hview : ({ p with inner, assembly := some buffer } : Datagram P).view =
      { p.view with inner } := by
    simp [view, assembled, hlive]
  refine ⟨_, _, gather_refused hp hr, ?_⟩
  rw [view_releaseEmpty, hview]
  exact .refused

theorem gathers_fin (hr : Pipe.recv buffer.tailRoom p.inner w = .ok (.ok .fin, inner, w')) :
    ∃ result q, gather room p w = .ok (result, q, w') ∧
      Gathers room p.view inner (.ok .fin) result q.releaseEmpty.view := by
  cases he : buffer.isEmpty with
  | true =>
    have hnothing : p.assembled = [] := by simpa [ByteBuffer.isEmpty, hlive] using he
    have hview : ({ p with inner, assembly := some buffer } : Datagram P).view =
        { p.view with inner } := by
      simp [view, assembled, hlive]
    refine ⟨_, _, gather_ended hp he hr, ?_⟩
    rw [view_releaseEmpty, hview]
    exact .ended hnothing
  | false =>
    have hsome : p.assembled ≠ [] := by simpa [ByteBuffer.isEmpty, hlive] using he
    have hsize : buffer.size = p.assembled.length := by rw [ByteBuffer.size, hlive]
    have hgather := gather_cut hp he hr
    rw [hsize] at hgather
    exact ⟨_, _, hgather, .cut hsome⟩

theorem gathers_data {chunk : Bytes} (hfits : chunk.length ≤ buffer.tailRoom)
    (hr : Pipe.recv buffer.tailRoom p.inner w = .ok (.ok (.data chunk), inner, w')) :
    ∃ result q, gather room p w = .ok (result, q, w') ∧
      Gathers room p.view inner (.ok (.data chunk)) result q.releaseEmpty.view := by
  obtain ⟨filled, happend, hfilled⟩ := ByteBuffer.append_eq_ok hfits
  have hassembled : ({ p with inner, assembly := some filled } : Datagram P).assembled =
      p.assembled ++ chunk := by
    simp [assembled, hfilled, hlive]
  -- what is found depends on what was at hand and on the chunk behind that
  have hextract := extract_eq room ({ p with inner, assembly := some filled } : Datagram P)
  rw [hassembled] at hextract
  cases hf : front p.maxSize room (p.assembled ++ chunk) with
  | error reason =>
    simp only [hf] at hextract
    exact ⟨_, _, gather_extracted hp happend hr hextract, .violated hf⟩
  | ok found =>
    cases found with
    | none =>
      simp only [hf] at hextract
      have hview : ({ p with inner, assembly := some filled } : Datagram P).view =
          { p.view with inner, assembled := p.assembled ++ chunk } := by
        rw [← hassembled]
        rfl
      refine ⟨_, _, gather_extracted hp happend hr hextract, ?_⟩
      rw [view_releaseEmpty, hview]
      exact .incomplete hf
    | some found =>
      simp only [hf] at hextract
      obtain ⟨q, hq, hview⟩ := hextract
      refine ⟨_, _, gather_extracted hp happend hr hq, ?_⟩
      rw [view_releaseEmpty, hview]
      exact .completed hf

end Answers

/-- A receive that finds no datagram at hand asks the pipe below for at least one byte, and comes to
a result whatever part of that the pipe gives. It only needs a buffer. -/
theorem recv_asks (hb : p.broken = false) (hi : (state p.inner).broken = false)
    (h : front p.maxSize room p.assembled = .ok none) :
    (∃ n, 0 < n ∧ (∀ {v}, Pipe.recv n p.inner w = .error v → Pipe.recv room p w = .error v) ∧
      ∀ {answer : PipeResult Recv} {inner : Atomic P} {w' : W},
        Pipe.recv n p.inner w = .ok (answer, inner, w') →
        (∀ chunk, answer = .ok (.data chunk) → chunk.length ≤ n) →
        ∃ result p', Pipe.recv room p w = .ok (result, p', w') ∧
          Gathers room p.view inner answer result p'.view) ∨
    Pipe.recv room p w = .error .capacityExceeded ∧
      ByteBuffer.maxCapacity < Varint.maxLength + room := by
  have hrecv := recv_eq_gather (w := w) hb hi h
  rcases prepared p (length_lt_of_front h) with ⟨buffer, hprepare, hlive, htail⟩ | ⟨hnone, hlarge⟩
  swap
  · refine .inr ⟨?_, hlarge⟩
    rw [hrecv]
    simp only [gather, hnone, Checked.error_bind]
    rfl
  refine .inl ⟨buffer.tailRoom, htail, ?_, ?_⟩
  · intro v hv
    rw [hrecv]
    simp only [gather, hprepare, hv, Checked.ok_bind, Checked.error_bind]
    rfl
  intro answer inner w' hr hfits
  have hgathers : ∃ result q, gather room p w = .ok (result, q, w') ∧
      Gathers room p.view inner answer result q.releaseEmpty.view :=
    match answer with
    | .error _ => gathers_refused hprepare hlive hr
    | .ok .fin => gathers_fin hprepare hlive hr
    | .ok (.data chunk) => gathers_data hprepare hlive (hfits chunk rfl) hr
  obtain ⟨result, q, hgather, hgathered⟩ := hgathers
  rw [hgather] at hrecv
  exact ⟨result, q.releaseEmpty, hrecv, hgathered⟩

theorem recv_gathers (hb : p.broken = false) (hi : (state p.inner).broken = false)
    (hroom : Varint.maxLength + room ≤ ByteBuffer.maxCapacity)
    (h : front p.maxSize room p.assembled = .ok none) :
    ∃ n, 0 < n ∧ ∀ {answer : PipeResult Recv} {inner : Atomic P} {w' : W},
      Pipe.recv n p.inner w = .ok (answer, inner, w') →
      (∀ chunk, answer = .ok (.data chunk) → chunk.length ≤ n) →
      ∃ result p', Pipe.recv room p w = .ok (result, p', w') ∧
        Gathers room p.view inner answer result p'.view := by
  rcases recv_asks (w := w) hb hi h with ⟨n, hn, _, hgathers⟩ | ⟨_, hlarge⟩
  · exact ⟨n, hn, hgathers⟩
  · omega

end Datagram

end DuplexRelay
