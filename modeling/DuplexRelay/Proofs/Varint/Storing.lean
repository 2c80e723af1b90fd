import Mathlib.Order.Bounds.Defs
import DuplexRelay.Proofs.Checked
import DuplexRelay.Proofs.Varint.Canonical

/-! Sizes that are written in place. The groups of a size go over the first bytes of a buffer, for
as long as there is another group, and only the bytes that were set aside for the size may be
written to. These are exactly as many as it has groups. So the writing never leaves them and covers
them all, and no other number of groups would do with fewer. -/

namespace DuplexRelay.Varint

variable {n m size : Nat} {code buffer leading : Bytes} {last : UInt8}

/-- Writes the groups of a size over a stretch of bytes, for as long as there is another group. It
is a violation if the stretch ends before that. -/
def putGroups (size : Nat) : Bytes → Checked Bytes
  | [] => .error .bufferBounds
  | _ :: stretch =>
    if size < 0x80 then .ok (UInt8.ofNat size :: stretch)
    else (putGroups (size / 0x80) stretch).map (UInt8.ofNat (size % 0x80 + 0x80) :: ·)

/-- Writes a size to the front of a buffer in place. Gives the number of bytes written, or why there
are none, and the buffer as it is after that. -/
def storeInPlace (size : Nat) (buffer : Bytes) : Checked (Except Error Nat × Bytes) :=
  if maxValue < size then .ok (.error .tooLarge, buffer)
  else if buffer.length < encodedLength size then .ok (.error .noSpace, buffer)
  else do
    let stretch ← putGroups size (buffer.take (encodedLength size))
    .ok (.ok (encodedLength size), stretch ++ buffer.drop (encodedLength size))

/-- The groups of a size go over as many bytes as there are groups. -/
theorem putGroups_eq {stretch : Bytes} (h : (encode n).length ≤ stretch.length) :
    putGroups n stretch = .ok (encode n ++ stretch.drop (encode n).length) := by
  fun_induction encode n generalizing stretch with
  | case1 n hn =>
    cases stretch with
    | nil => simp at h
    | cons byte stretch => simp [putGroups, hn]
  | case2 n hn ih =>
    cases stretch with
    | nil => simp at h
    | cons byte stretch =>
      have hrest := ih (Nat.le_of_succ_le_succ h)
      rw [putGroups, if_neg hn, hrest]
      rfl

/-- Writing in place comes to the same as making up the bytes anew, and never runs out of the bytes
that were set aside. -/
theorem storeInPlace_eq (size : Nat) (buffer : Bytes) :
    storeInPlace size buffer = .ok (match store size buffer with
      | .error e => (.error e, buffer)
      | .ok (count, after) => (.ok count, after)) := by
  unfold storeInPlace store
  split
  · rfl
  rename_i hsize
  split
  · rfl
  rename_i hroom
  have hlength := length_encode (Nat.le_of_not_lt hsize)
  have hstretch : (buffer.take (encodedLength size)).length = (encode size).length := by
    rw [hlength]
    exact List.length_take_of_le (Nat.le_of_not_lt hroom)
  rw [putGroups_eq (Nat.le_of_eq hstretch.symm), ← hstretch, List.drop_length, List.append_nil]
  rfl

theorem store_eq_error_iff {e : Error} : store n buffer = .error e ↔
    e = .tooLarge ∧ maxValue < n ∨
      e = .noSpace ∧ n ≤ maxValue ∧ buffer.length < encodedLength n := by
  unfold store
  split
  · rename_i hn
    simp only [Except.error.injEq, hn, and_true, Nat.not_le.mpr hn, false_and, and_false, or_false]
    exact eq_comm
  rename_i hn
  split
  · rename_i hroom
    simp only [Except.error.injEq, hn, and_false, Nat.le_of_not_lt hn, hroom, and_true, false_or]
    exact eq_comm
  · rename_i hroom
    simp [hn, hroom]

theorem exists_store_iff : (∃ stored, store n buffer = .ok stored) ↔
    n ≤ maxValue ∧ encodedLength n ≤ buffer.length := by
  cases hstore : store n buffer with
  | ok stored =>
    obtain ⟨hn, -, -⟩ := store_eq_ok hstore
    have hroom : encodedLength n ≤ buffer.length := by
      by_contra hshort
      rw [store_eq_error_iff.mpr (.inr ⟨rfl, hn, Nat.lt_of_not_le hshort⟩)] at hstore
      cases hstore
    exact iff_of_true ⟨_, rfl⟩ ⟨hn, hroom⟩
  | error e =>
    have hwhy := store_eq_error_iff.mp hstore
    exact iff_of_false nofun (by omega)

/-- Groups that say a size: each but the last announces another one, together they stand for the
size, and only that of zero ends in zero. -/
inductive Spelled (size : Nat) : Bytes → Prop
  | intro {leading : Bytes} {last : UInt8} (hgroup : Group leading last)
      (hvalue : groupValue (leading ++ [last]) = size) (hlast : size ≠ 0 → last ≠ 0) :
      Spelled size (leading ++ [last])

theorem spelled_encode (n : Nat) : Spelled n (encode n) := by
  obtain ⟨leading, last, hencode, hgroup, hzero, hvalue⟩ := encode_eq n
  rw [hencode]
  refine .intro hgroup hvalue ?_
  rintro hn rfl
  cases leading with
  | nil => exact hn (hvalue.symm.trans (by decide))
  | cons byte leading => exact hzero (by simp) rfl

/-- So many groups can stand for a size. -/
def FitsIn (size count : Nat) : Prop :=
  ∃ groups : Bytes, groups ≠ [] ∧ groups.length = count ∧ groupValue groups = size

/-- What ends in a group that is not zero is too large for fewer groups. -/
theorem pow_le_groupValue (leading : Bytes) (hlast : last ≠ 0) (h : continues last = false) :
    0x80 ^ leading.length ≤ groupValue (leading ++ [last]) := by
  induction leading with
  | nil =>
    exact groupValue_pos hlast h
  | cons byte leading ih =>
    rw [List.cons_append, groupValue, List.length_cons, Nat.pow_succ]
    omega

/-- No number of groups below that of the written form can stand for a size. -/
theorem Spelled.isLeast (h : Spelled size code) (hsingle : size = 0 → code.length = 1) :
    IsLeast {count | FitsIn size count} code.length := by
  cases h with
  | @intro leading last hgroup hvalue hlast =>
    refine ⟨⟨leading ++ [last], by simp, rfl, hvalue⟩, ?_⟩
    rintro count ⟨groups, hsome, rfl, hgroups⟩
    have hpos := List.length_pos_iff.mpr hsome
    by_cases hzero : size = 0
    · rw [hsingle hzero]
      exact hpos
    · have hlow := pow_le_groupValue leading (hlast hzero) hgroup.last
      have hhigh := groupValue_lt groups
      rw [hvalue] at hlow
      rw [hgroups] at hhigh
      have hshort : leading.length < groups.length :=
        (Nat.pow_lt_pow_iff_right (by decide)).mp (Nat.lt_of_le_of_lt hlow hhigh)
      rw [List.length_append, List.length_singleton]
      exact hshort

theorem isLeast_encode (n : Nat) : IsLeast {count | FitsIn n count} (encode n).length := by
  refine (spelled_encode n).isLeast ?_
  rintro rfl
  exact length_encode (Nat.zero_le _)

theorem Written.size_eq_of_prefix {code' : Bytes} (h : Written n code) (h' : Written m code')
    (hp : code <+: code') : n = m := by
  obtain rfl := h.eq_of_prefix h' hp
  have hn := h.parse_append []
  have hm := h'.parse_append []
  rw [hn] at hm
  simpa using hm

/-- A size is stored exactly if it is below `2 ^ 28` and the buffer has as many bytes as it takes.
Then its groups stand at the front of the buffer, as few as can stand for it, and all other bytes
are as before. Where it is not stored, a size that is too large being told first, the whole buffer
is as before. No form in which a size is stored begins another one. -/
theorem stores_least_groups (size : Nat) (buffer : Bytes) :
    ((∃ stored, store size buffer = .ok stored) ↔
      size < 2 ^ 28 ∧ encodedLength size ≤ buffer.length) ∧
    (∀ count after, store size buffer = .ok (count, after) →
      storeInPlace size buffer = .ok (.ok count, after) ∧
      count = encodedLength size ∧ IsLeast {count | FitsIn size count} count ∧
      (after.take count).length = count ∧ Spelled size (after.take count) ∧
      after.drop count = buffer.drop count) ∧
    (∀ e, store size buffer = .error e →
      storeInPlace size buffer = .ok (.error e, buffer) ∧
      (e = .tooLarge ∧ 2 ^ 28 ≤ size ∨
        e = .noSpace ∧ size < 2 ^ 28 ∧ buffer.length < encodedLength size)) ∧
    ∀ other code code', Written size code → Written other code' → size ≠ other →
      ¬code <+: code' := by
  have hmax : maxValue + 1 = 2 ^ 28 := by decide
  have hinplace := storeInPlace_eq size buffer
  refine ⟨?_, ?_, ?_, ?_⟩
  · rw [← hmax, Nat.lt_succ_iff]
    exact exists_store_iff
  · intro count after hstore
    obtain ⟨hsize, hcount, hafter⟩ := store_eq_ok hstore
    have htake : after.take count = encode size := by
      rw [hafter, hcount]
      exact List.take_left
    rw [hstore] at hinplace
    rw [htake, ← hcount]
    refine ⟨hinplace, hcount.trans (length_encode hsize), hcount ▸ isLeast_encode size, rfl,
      spelled_encode size, ?_⟩
    rw [hafter, hcount]
    exact List.drop_left
  · intro e hstore
    rw [hstore] at hinplace
    refine ⟨hinplace, ?_⟩
    rw [← hmax, Nat.lt_succ_iff]
    exact store_eq_error_iff.mp hstore
  · intro other code code' hcode hcode' hne hp
    exact hne (hcode.size_eq_of_prefix hcode' hp)

example : storeInPlace 300 [0xee, 0xee, 0xee] = .ok (.ok 2, [0xac, 0x02, 0xee]) := by decide

end DuplexRelay.Varint
