import Mathlib.Algebra.Group.Nat.Defs
import Mathlib.Data.List.TakeWhile
import DuplexRelay.Varint

/-! The written forms of sizes. What is read at the front of a byte string is what was written
there, each size has one written form, and what follows a written form has no say in how it is
read. -/

namespace DuplexRelay.Varint

variable {bytes rest : Bytes} {n : Nat}

theorem continues_iff {byte : UInt8} : continues byte = true ↔ 0x80 ≤ byte.toNat := by
  simp [continues, UInt8.le_iff_toNat_le]

theorem toNat_ofNat_of_lt {n : Nat} (h : n < 0x100) : (UInt8.ofNat n).toNat = n := by
  rw [UInt8.toNat_ofNat']
  exact Nat.mod_eq_of_lt h

/-- Bytes that announce another one each, and then one that does not. -/
structure Group (leading : Bytes) (last : UInt8) : Prop where
  leading : ∀ byte ∈ leading, continues byte = true
  last : continues last = false

theorem Group.takeWhile {leading : Bytes} {last : UInt8} (h : Group leading last) :
    (leading ++ last :: rest).takeWhile continues = leading := by
  rw [List.takeWhile_append_of_pos h.leading]
  simp [h.last]

theorem Group.dropWhile {leading : Bytes} {last : UInt8} (h : Group leading last) :
    (leading ++ last :: rest).dropWhile continues = last :: rest := by
  rw [List.dropWhile_append_of_pos h.leading]
  simp [h.last]

/-- A byte string begins with a group, or else too few of its bytes matter to tell. -/
theorem group_or_continues (bytes : Bytes) :
    (∃ leading last rest, bytes = leading ++ last :: rest ∧ Group leading last ∧
      leading.length < maxLength) ∨ ∀ byte ∈ bytes.take maxLength, continues byte = true := by
  have hsplit := List.takeWhile_append_dropWhile (p := continues) (l := bytes.take maxLength)
  have hleading : ∀ byte ∈ (bytes.take maxLength).takeWhile continues, continues byte = true :=
    fun byte hb => List.mem_takeWhile_imp hb
  cases hd : (bytes.take maxLength).dropWhile continues with
  | nil =>
    rw [hd, List.append_nil] at hsplit
    rw [hsplit] at hleading
    exact .inr hleading
  | cons last tail =>
    have hlast : continues last = false := by
      have hhead := List.head_dropWhile_not continues (l := bytes.take maxLength) (by simp [hd])
      simpa [hd] using hhead
    refine .inl ⟨_, last, tail ++ bytes.drop maxLength, ?_, ⟨hleading, hlast⟩, ?_⟩
    · rw [hd] at hsplit
      rw [← List.cons_append, ← List.append_assoc, hsplit, List.take_append_drop]
    · have hlength := congrArg List.length hsplit
      rw [hd, List.length_append, List.length_cons, List.length_take] at hlength
      omega

theorem parse_of_group {leading : Bytes} {last : UInt8} (h : Group leading last)
    (hl : leading.length < maxLength) :
    parse (leading ++ last :: rest) =
      if last = 0 ∧ leading ≠ [] then .error .malformed
      else .ok (some ⟨leading.length + 1, groupValue (leading ++ [last])⟩) := by
  have hwindow : (leading ++ last :: rest).take maxLength =
      leading ++ last :: rest.take (maxLength - (leading.length + 1)) := by
    rw [List.take_append, List.take_of_length_le (Nat.le_of_lt hl)]
    have hroom : maxLength - leading.length = maxLength - (leading.length + 1) + 1 := by omega
    rw [hroom, List.take_succ_cons]
  unfold parse
  simp only [hwindow, h.takeWhile, h.dropWhile]

theorem parse_of_continues (h : ∀ byte ∈ bytes.take maxLength, continues byte = true) :
    parse bytes = if maxLength ≤ bytes.length then .error .malformed else .ok none := by
  have hall : (bytes.take maxLength).takeWhile continues = bytes.take maxLength :=
    List.takeWhile_eq_self_iff.mpr h
  have hnone : (bytes.take maxLength).dropWhile continues = [] :=
    List.dropWhile_eq_nil_iff.mpr h
  unfold parse
  have hmin : min maxLength bytes.length = maxLength ↔ maxLength ≤ bytes.length := by omega
  simp only [hall, hnone, List.length_take, hmin]

/-- What was read once stays so, whatever follows. -/
theorem parse_append (h : parse bytes ≠ .ok none) (rest : Bytes) :
    parse (bytes ++ rest) = parse bytes := by
  rcases group_or_continues bytes with ⟨leading, last, tail, rfl, hgroup, hl⟩ | hall
  · rw [List.append_assoc, List.cons_append, parse_of_group hgroup hl, parse_of_group hgroup hl]
  · have hlong : maxLength ≤ bytes.length := by
      refine Nat.le_of_not_lt fun hshort => h ?_
      rw [parse_of_continues hall, if_neg (by omega)]
    have hsame : (bytes ++ rest).take maxLength = bytes.take maxLength :=
      List.take_append_of_le_length hlong
    rw [parse_of_continues hall, parse_of_continues (by rwa [hsame]), if_pos hlong, if_pos]
    rw [List.length_append]
    omega

/-- The written form of a size is a group that stands for it, without a needless zero at its end. -/
theorem encode_eq (n : Nat) : ∃ leading last, encode n = leading ++ [last] ∧
    Group leading last ∧ (leading ≠ [] → last ≠ 0) ∧ groupValue (leading ++ [last]) = n := by
  fun_induction encode n with
  | case1 n h =>
    have hvalue := toNat_ofNat_of_lt (show n < 0x100 by omega)
    refine ⟨[], UInt8.ofNat n, rfl, ⟨by simp, ?_⟩, by simp, ?_⟩
    · rw [Bool.eq_false_iff, ne_eq, continues_iff, hvalue]
      omega
    · rw [List.nil_append, groupValue, groupValue, hvalue]
      omega
  | case2 n h ih =>
    obtain ⟨leading, last, henc, hgroup, hzero, hvalue⟩ := ih
    have hbyte := toNat_ofNat_of_lt (show n % 0x80 + 0x80 < 0x100 by omega)
    refine ⟨UInt8.ofNat (n % 0x80 + 0x80) :: leading, last, by rw [henc, List.cons_append],
      ⟨?_, hgroup.last⟩, ?_, ?_⟩
    · intro byte hb
      rcases List.mem_cons.mp hb with rfl | hb
      · rw [continues_iff, hbyte]
        omega
      · exact hgroup.leading byte hb
    · intro _
      by_cases hleading : leading = []
      · rintro rfl
        rw [hleading] at hvalue
        have hzero : n / 0x80 = 0 := hvalue.symm.trans (by decide)
        omega
      · exact hzero hleading
    · rw [List.cons_append, groupValue, hvalue, hbyte]
      omega

theorem length_encode {n : Nat} (h : n ≤ maxValue) : (encode n).length = encodedLength n := by
  have hstep : ∀ {n : Nat}, 0x80 ≤ n → (encode n).length = (encode (n / 0x80)).length + 1 := by
    intro n hn
    rw [encode, if_neg (by omega), List.length_cons]
  have hone : ∀ {n : Nat}, n < 0x80 → (encode n).length = 1 := by
    intro n hn
    rw [encode, if_pos hn, List.length_singleton]
  unfold maxValue at h
  unfold encodedLength
  split
  · exact hone (by omega)
  rw [hstep (by omega)]
  split
  · rw [hone (by omega)]
  rw [hstep (by omega)]
  split
  · rw [hone (by omega)]
  · rw [hstep (by omega), hone (by omega)]

theorem encodedLength_le (n : Nat) : encodedLength n ≤ maxLength := by
  unfold encodedLength maxLength
  split
  · omega
  split
  · omega
  split <;> omega

/-- A size that was written is read again, whatever follows it. -/
theorem parse_encode (h : n ≤ maxValue) (rest : Bytes) :
    parse (encode n ++ rest) = .ok (some ⟨(encode n).length, n⟩) := by
  obtain ⟨leading, last, henc, hgroup, hzero, hvalue⟩ := encode_eq n
  have hlength := length_encode h
  have hmax := encodedLength_le n
  rw [henc, List.length_append, List.length_singleton] at hlength
  rw [henc, List.append_assoc, List.singleton_append, parse_of_group hgroup (by omega), if_neg,
    hvalue, List.length_append, List.length_singleton]
  rintro ⟨hlast, hleading⟩
  exact hzero hleading hlast

theorem groupValue_pos {leading : Bytes} {last : UInt8} (h : last ≠ 0)
    (hl : continues last = false) : 0 < groupValue (leading ++ [last]) := by
  induction leading with
  | nil =>
    rw [Bool.eq_false_iff, ne_eq, continues_iff] at hl
    have hpos : last.toNat ≠ 0 := fun hzero => h (UInt8.toNat_inj.mp hzero)
    rw [List.nil_append, groupValue, groupValue]
    omega
  | cons byte leading ih =>
    rw [List.cons_append, groupValue]
    omega

/-- No other bytes than the written form of a size stand for it. -/
theorem encode_groupValue {leading : Bytes} {last : UInt8} (h : Group leading last)
    (hzero : leading ≠ [] → last ≠ 0) :
    encode (groupValue (leading ++ [last])) = leading ++ [last] := by
  have hlast := h.last
  rw [Bool.eq_false_iff, ne_eq, continues_iff] at hlast
  induction leading with
  | nil =>
    have hvalue : groupValue [last] = last.toNat := by
      rw [groupValue, groupValue]
      omega
    rw [List.nil_append, hvalue, encode, if_pos (by omega), UInt8.ofNat_toNat]
  | cons byte leading ih =>
    have hbyte := continues_iff.mp (h.leading byte List.mem_cons_self)
    have hpos : 0 < groupValue (leading ++ [last]) := groupValue_pos (hzero (by simp)) h.last
    have hrest := ih ⟨fun b hb => h.leading b (List.mem_cons_of_mem _ hb), h.last⟩
      (fun _ => hzero (by simp))
    have hbound := byte.toNat_lt
    rw [List.cons_append, groupValue, encode, if_neg (by omega)]
    have hmod : (byte.toNat % 0x80 + 0x80 * groupValue (leading ++ [last])) % 0x80 + 0x80 =
        byte.toNat := by omega
    have hdiv : (byte.toNat % 0x80 + 0x80 * groupValue (leading ++ [last])) / 0x80 =
        groupValue (leading ++ [last]) := by omega
    rw [hmod, hdiv, hrest, UInt8.ofNat_toNat]

/-- What is read as a size at the front of a byte string is the written form of that size. -/
theorem eq_encode_of_parse {header : Header} (h : parse bytes = .ok (some header)) :
    bytes.take header.length = encode header.size ∧
    (encode header.size).length = header.length := by
  rcases group_or_continues bytes with ⟨leading, last, tail, rfl, hgroup, hl⟩ | hall
  · rw [parse_of_group hgroup hl] at h
    split at h
    · cases h
    rename_i hzero
    simp only [Except.ok.injEq, Option.some.injEq] at h
    subst h
    have hencode := encode_groupValue hgroup fun hleading hlast => hzero ⟨hlast, hleading⟩
    rw [hencode, List.length_append, List.length_singleton]
    refine ⟨?_, rfl⟩
    have hsplit : leading ++ last :: tail = (leading ++ [last]) ++ tail :=
      List.append_cons leading last tail
    rw [hsplit]
    exact List.take_left' List.length_append
  · rw [parse_of_continues hall] at h
    split at h <;> cases h

theorem groupValue_lt (bytes : Bytes) : groupValue bytes < 0x80 ^ bytes.length := by
  induction bytes with
  | nil => simp [groupValue]
  | cons byte rest ih =>
    rw [groupValue, List.length_cons, Nat.pow_succ]
    omega

/-- No size above the largest one is ever read, and none that takes more bytes than it may. -/
theorem bounds_of_parse {header : Header} (h : parse bytes = .ok (some header)) :
    header.length ≤ maxLength ∧ header.size ≤ maxValue := by
  rcases group_or_continues bytes with ⟨leading, last, tail, rfl, hgroup, hl⟩ | hall
  · rw [parse_of_group hgroup hl] at h
    split at h
    · cases h
    cases h
    have hvalue := groupValue_lt (leading ++ [last])
    have hpow : 0x80 ^ (leading ++ [last]).length ≤ 0x80 ^ maxLength := by
      apply Nat.pow_le_pow_right (by omega)
      rw [List.length_append, List.length_singleton]
      omega
    have hmax : 0x80 ^ maxLength = maxValue + 1 := by decide
    refine ⟨?_, ?_⟩
    · dsimp only
      omega
    · dsimp only
      omega
  · rw [parse_of_continues hall] at h
    split at h <;> cases h

/-- Where nothing can be read yet, few bytes are there, and they are the beginning of a size. -/
theorem begun_of_parse (h : parse bytes = .ok none) :
    bytes.length < maxLength ∧ ∃ size ≤ maxValue, ∃ more ≠ [], encode size = bytes ++ more := by
  rcases group_or_continues bytes with ⟨leading, last, tail, rfl, hgroup, hl⟩ | hall
  · rw [parse_of_group hgroup hl] at h
    split at h <;> cases h
  · rw [parse_of_continues hall] at h
    split at h
    · cases h
    rename_i hshort
    have hlength : bytes.length < maxLength := by omega
    rw [List.take_of_length_le (by omega)] at hall
    have hgroup : Group bytes 1 := ⟨hall, by decide⟩
    have hvalue := groupValue_lt (bytes ++ [1])
    have hpow : 0x80 ^ (bytes ++ [1]).length ≤ 0x80 ^ maxLength := by
      apply Nat.pow_le_pow_right (by omega)
      rw [List.length_append, List.length_singleton]
      omega
    have hmax : 0x80 ^ maxLength = maxValue + 1 := by decide
    refine ⟨hlength, groupValue (bytes ++ [1]), by omega, [1], by simp, ?_⟩
    exact encode_groupValue hgroup fun _ => by decide

/-- What cannot be read neither begins with a size nor is the beginning of one. -/
theorem not_prefix_of_parse_error {e : Error} (h : parse bytes = .error e) (hn : n ≤ maxValue) :
    ¬encode n <+: bytes ∧ ¬bytes <+: encode n := by
  constructor
  · rintro ⟨tail, rfl⟩
    rw [parse_encode hn] at h
    cases h
  · rintro ⟨more, hmore⟩
    have hread := parse_encode hn []
    rw [List.append_nil, ← hmore, parse_append (by rw [h]; nofun), h] at hread
    cases hread

theorem malformed_of_parse {e : Error} (h : parse bytes = .error e) : e = .malformed := by
  rcases group_or_continues bytes with ⟨leading, last, tail, rfl, hgroup, hl⟩ | hall
  · rw [parse_of_group hgroup hl] at h
    split at h <;> cases h
    rfl
  · rw [parse_of_continues hall] at h
    split at h <;> cases h
    rfl

end DuplexRelay.Varint
