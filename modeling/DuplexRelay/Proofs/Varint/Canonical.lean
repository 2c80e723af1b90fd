import DuplexRelay.Proofs.Varint

/-! Reading accepts exactly what writing gives. A byte string begins with the written form of a
size, or is cut off within one, or is malformed, and `parse` tells these three cases apart. -/

namespace DuplexRelay.Varint

variable {bytes code other : Bytes} {n m : Nat}

/-- `code` is what `store` writes for `size`, whatever room it writes to. -/
def Written (size : Nat) (code : Bytes) : Prop :=
  ∃ room count filled, store size room = .ok (count, filled) ∧ code = filled.take count

theorem store_eq_ok {room filled : Bytes} {count : Nat} (h : store n room = .ok (count, filled)) :
    n ≤ maxValue ∧ count = (encode n).length ∧ filled = encode n ++ room.drop count := by
  unfold store at h
  split at h
  · cases h
  rename_i hn
  split at h
  · cases h
  cases h
  have hn : n ≤ maxValue := Nat.le_of_not_lt hn
  exact ⟨hn, (length_encode hn).symm, rfl⟩

theorem written_iff : Written n code ↔ n ≤ maxValue ∧ code = encode n := by
  constructor
  · rintro ⟨room, count, filled, hstore, rfl⟩
    obtain ⟨hn, hcount, hfilled⟩ := store_eq_ok hstore
    refine ⟨hn, ?_⟩
    rw [hfilled, hcount]
    exact List.take_left
  · rintro ⟨hn, rfl⟩
    have hlength := length_encode hn
    refine ⟨List.replicate (encodedLength n) 0, encodedLength n, encode n, ?_, ?_⟩
    · simp [store, Nat.not_lt.mpr hn]
    · rw [← hlength, List.take_length]

theorem Written.parse_append (h : Written n code) (rest : Bytes) :
    parse (code ++ rest) = .ok (some ⟨code.length, n⟩) := by
  obtain ⟨hn, rfl⟩ := written_iff.mp h
  exact parse_encode hn rest

/-- No written form is the beginning of another one. -/
theorem Written.eq_of_prefix (h : Written n code) (h' : Written m other) (hp : code <+: other) :
    code = other := by
  obtain ⟨tail, rfl⟩ := hp
  have hfirst := h.parse_append tail
  have hwhole := h'.parse_append []
  rw [List.append_nil, hfirst] at hwhole
  simp only [Except.ok.injEq, Option.some.injEq, Header.mk.injEq, List.length_append] at hwhole
  have htail : tail = [] := List.eq_nil_of_length_eq_zero (by omega)
  rw [htail, List.append_nil]

/-- The written form of some size stands at the front. -/
def Headed (bytes : Bytes) : Prop :=
  ∃ size code, Written size code ∧ code <+: bytes

/-- The bytes end within the written form of some size. -/
def Truncated (bytes : Bytes) : Prop :=
  ∃ size code, Written size code ∧ bytes <+: code ∧ bytes ≠ code

theorem Headed.not_truncated (h : Headed bytes) : ¬Truncated bytes := by
  rintro ⟨m, other, hother, hbytes, hne⟩
  obtain ⟨n, code, hcode, hp⟩ := h
  have heq := hcode.eq_of_prefix hother (hp.trans hbytes)
  subst heq
  exact hne (hbytes.eq_of_length_le hp.length_le)

theorem written_of_parse {header : Header} (h : parse bytes = .ok (some header)) :
    Written header.size (bytes.take header.length) ∧
      (bytes.take header.length).length = header.length := by
  obtain ⟨hcode, hlength⟩ := eq_encode_of_parse h
  refine ⟨written_iff.mpr ⟨(bounds_of_parse h).2, hcode⟩, ?_⟩
  rw [hcode, hlength]

theorem truncated_of_parse (h : parse bytes = .ok none) : Truncated bytes := by
  obtain ⟨-, size, hsize, more, hmore, hcode⟩ := begun_of_parse h
  refine ⟨size, encode size, written_iff.mpr ⟨hsize, rfl⟩, ⟨more, hcode.symm⟩, ?_⟩
  intro heq
  rw [heq] at hcode
  exact hmore (List.self_eq_append_right.mp hcode)

/-- Whatever the bytes, exactly one of three things holds of them, and `parse` says which: a written
form stands at their front, and its length and value are returned; they are cut off within one, and
nothing is returned yet; or neither, and they are malformed. What was stored is read back whatever
follows it, and what is read is what would be stored. -/
theorem parse_exactly_written (bytes : Bytes) :
    ((∃ size code, Written size code ∧ code <+: bytes ∧ ¬Truncated bytes ∧
        parse bytes = .ok (some ⟨code.length, size⟩)) ∨
      (Truncated bytes ∧ ¬Headed bytes ∧ parse bytes = .ok none) ∨
      (¬Headed bytes ∧ ¬Truncated bytes ∧ parse bytes = .error .malformed)) ∧
    (∀ size room count filled rest, store size room = .ok (count, filled) →
      parse filled = .ok (some ⟨count, size⟩) ∧
      parse (filled.take count ++ rest) = .ok (some ⟨count, size⟩)) ∧
    (∀ header, parse bytes = .ok (some header) →
      ∀ room, header.length ≤ room.length →
        store header.size room =
          .ok (header.length, bytes.take header.length ++ room.drop header.length)) := by
  refine ⟨?_, ?_, ?_⟩
  · rcases hparse : parse bytes with e | _ | header
    · obtain rfl := malformed_of_parse hparse
      refine .inr (.inr ⟨?_, ?_, rfl⟩)
      · rintro ⟨size, code, hcode, hp⟩
        obtain ⟨hsize, rfl⟩ := written_iff.mp hcode
        exact (not_prefix_of_parse_error hparse hsize).1 hp
      · rintro ⟨size, code, hcode, hp, -⟩
        obtain ⟨hsize, rfl⟩ := written_iff.mp hcode
        exact (not_prefix_of_parse_error hparse hsize).2 hp
    · have htruncated := truncated_of_parse hparse
      exact .inr (.inl ⟨htruncated, fun hheaded => hheaded.not_truncated htruncated, rfl⟩)
    · obtain ⟨hcode, hlength⟩ := written_of_parse hparse
      have hp : bytes.take header.length <+: bytes := List.take_prefix _ _
      refine .inl ⟨header.size, bytes.take header.length, hcode, hp, ?_, ?_⟩
      · exact Headed.not_truncated ⟨_, _, hcode, hp⟩
      · rw [hlength]
  · intro size room count filled rest hstore
    obtain ⟨hsize, hcount, hfilled⟩ := store_eq_ok hstore
    have htake : filled.take count = encode size := by
      rw [hfilled, hcount]
      exact List.take_left
    constructor
    · rw [hfilled, parse_encode hsize, ← hcount]
    · rw [htake, parse_encode hsize, ← hcount]
  · intro header hparse room hroom
    obtain ⟨hcode, hlength⟩ := eq_encode_of_parse hparse
    have hsize := (bounds_of_parse hparse).2
    have hcount := length_encode hsize
    rw [store, if_neg (Nat.not_lt.mpr hsize), ← hcount, hlength,
      if_neg (Nat.not_lt.mpr hroom), hcode]

end DuplexRelay.Varint
