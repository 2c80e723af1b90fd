import Mathlib.Data.List.Infix
import DuplexRelay.Proofs.Pipe.Datagram
import DuplexRelay.Proofs.Varint

/-! Frames on a byte stream. A stream of frames can be taken apart in one way only, wherever it was
cut on its way. -/

namespace DuplexRelay.Datagram

variable {bytes rest tail data payload : Bytes} {sent taken : List Bytes} {limit : Nat}

/-- A datagram as it is on the stream: its size and then its bytes. -/
def wire (data : Bytes) : Bytes := Varint.encode data.length ++ data

theorem frame_eq (h : data.length ≤ Varint.maxValue) : frame data = .ok (wire data) := by
  have hroom : Varint.encodedLength data.length ≤ Varint.maxLength := Varint.encodedLength_le _
  have hlength := Varint.length_encode h
  unfold frame Varint.store
  rw [if_neg (by omega), if_neg (by rw [List.length_replicate]; omega)]
  change Except.ok (List.take _ _ ++ data) = _
  rw [List.take_left' hlength]
  rfl

theorem eq_wire_of_frame {framed : Bytes} (h : frame data = .ok framed) : framed = wire data := by
  by_cases hmax : data.length ≤ Varint.maxValue
  · rw [frame_eq hmax] at h
    cases h
    rfl
  · unfold frame Varint.store at h
    rw [if_pos (by omega)] at h
    cases h

theorem wire_ne_nil (data : Bytes) : wire data ≠ [] := by
  obtain ⟨leading, last, hencode, _⟩ := Varint.encode_eq data.length
  simp [wire, hencode]

theorem firstFrame_wire (h : data.length ≤ limit) (hmax : data.length ≤ Varint.maxValue)
    (rest : Bytes) : firstFrame limit (wire data ++ rest) = .ok (some (data, rest)) := by
  have hparse := Varint.parse_encode hmax (data ++ rest)
  have hlong : (Varint.encode data.length).length + data.length =
      (Varint.encode data.length ++ data).length := by rw [List.length_append]
  unfold firstFrame wire
  rw [List.append_assoc, hparse]
  dsimp only
  rw [if_neg (by omega), if_neg (by simp only [List.length_append]; omega), List.drop_left,
    List.take_left, hlong, ← List.append_assoc, List.drop_left]

/-- What is taken off the front was a frame. -/
theorem eq_wire_of_firstFrame (h : firstFrame limit bytes = .ok (some (payload, rest))) :
    bytes = wire payload ++ rest ∧ payload.length ≤ limit := by
  unfold firstFrame at h
  cases hp : Varint.parse bytes with
  | error e => simp [hp] at h
  | ok found =>
    cases found with
    | none => simp [hp] at h
    | some header =>
      simp only [hp] at h
      split at h
      · cases h
      split at h
      · cases h
      simp only [Except.ok.injEq, Option.some.injEq, Prod.mk.injEq] at h
      obtain ⟨rfl, rfl⟩ := h
      have hsize : ((bytes.drop header.length).take header.size).length = header.size := by
        rw [List.length_take, List.length_drop]
        omega
      refine ⟨?_, by omega⟩
      unfold wire
      rw [hsize, ← (Varint.eq_encode_of_parse hp).1, List.append_assoc, ← List.drop_drop,
        List.take_append_drop, List.take_append_drop]

/-- What breaks the framing does so whatever follows. -/
theorem firstFrame_error_append (h : firstFrame limit bytes = .error ()) (tail : Bytes) :
    firstFrame limit (bytes ++ tail) = .error () := by
  unfold firstFrame at h ⊢
  have hparse : Varint.parse bytes ≠ .ok none := by
    intro hnone
    simp [hnone] at h
  rw [Varint.parse_append hparse]
  cases hp : Varint.parse bytes with
  | error e => rfl
  | ok found =>
    cases found with
    | none => exact absurd hp hparse
    | some header =>
      simp only [hp] at h ⊢
      split at h
      · rename_i hlarge
        rw [if_pos hlarge]
      · split at h <;> cases h

/-- All that was taken off a part of a stream of frames is what the stream began with, and what is
left of that part is the beginning of the others. -/
theorem exists_of_wires (htaken : ∀ d ∈ taken, d.length ≤ Varint.maxValue)
    (hsent : ∀ d ∈ sent, d.length ≤ Varint.maxValue)
    (h : taken.flatMap wire ++ rest <+: sent.flatMap wire) :
    ∃ others, sent = taken ++ others ∧ rest <+: others.flatMap wire := by
  induction taken generalizing sent with
  | nil => exact ⟨sent, rfl, h⟩
  | cons d taken ih =>
    obtain ⟨tail, htail⟩ := h
    rw [List.flatMap_cons, List.append_assoc, List.append_assoc] at htail
    cases sent with
    | nil =>
      rw [List.flatMap_nil, List.append_eq_nil_iff] at htail
      exact absurd htail.1 (wire_ne_nil d)
    | cons c sent =>
      have hd := htaken d List.mem_cons_self
      have hc := hsent c List.mem_cons_self
      have hfirst := congrArg (firstFrame Varint.maxValue) htail
      rw [List.flatMap_cons, firstFrame_wire hd hd, firstFrame_wire hc hc] at hfirst
      simp only [Except.ok.injEq, Option.some.injEq, Prod.mk.injEq] at hfirst
      obtain ⟨rfl, hrest⟩ := hfirst
      obtain ⟨others, rfl, hothers⟩ := ih (fun e he => htaken e (List.mem_cons_of_mem _ he))
        (fun e he => hsent e (List.mem_cons_of_mem _ he))
        ⟨tail, by rw [List.append_assoc]; exact hrest⟩
      exact ⟨others, rfl, hothers⟩

theorem firstFrame_ne_error (hsent : ∀ d ∈ sent, d.length ≤ limit)
    (hmax : limit ≤ Varint.maxValue) (h : rest <+: sent.flatMap wire) :
    firstFrame limit rest ≠ .error () := by
  obtain ⟨tail, htail⟩ := h
  intro herror
  have hwhole := firstFrame_error_append herror tail
  rw [htail] at hwhole
  cases sent with
  | nil => cases hwhole
  | cons c sent =>
    have hc := hsent c List.mem_cons_self
    rw [List.flatMap_cons, firstFrame_wire hc (by omega)] at hwhole
    cases hwhole

theorem eq_nil_of_firstFrame_none (hsent : ∀ d ∈ sent, d.length ≤ limit)
    (hmax : limit ≤ Varint.maxValue) (h : firstFrame limit (sent.flatMap wire) = .ok none) :
    sent = [] := by
  cases sent with
  | nil => rfl
  | cons c sent =>
    have hc := hsent c List.mem_cons_self
    rw [List.flatMap_cons, firstFrame_wire hc (by omega)] at h
    cases h

end DuplexRelay.Datagram
