import Mathlib.Data.Nat.Digits.Defs
import DuplexRelay.Proofs.Pipe.Extraction
import DuplexRelay.Proofs.Pipe.Tcp

/-! Faults that a receiver finds with a stream of datagrams. With room for the largest datagram, it
finds none but those that the stream has for any receiver. The wordings tell the faults apart. -/

namespace DuplexRelay

/-- Pipes that take what comes in as it is, and find no fault with it. -/
def Pipe.Faultless {C : Type} (P W : Type) [Pipe P W C] : Prop :=
  ∀ {n : Nat} {p p' : P} {w w' : W} {reason : String},
    Pipe.recv n p w ≠ .ok (.error (.protocol reason), p', w')

theorem Tcp.faultless {N C : Type} [Sockets N] : Pipe.Faultless Tcp (Host N C) := by
  intro n p p' w w' reason h
  generalize hresult : (Except.error (.protocol reason) : PipeResult Recv) = result at h
  cases Tcp.received h <;> cases hresult

theorem Atomic.faultless {P W C : Type} [Pipe P W C] (h : Pipe.Faultless P W) :
    Pipe.Faultless (Atomic P) W := by
  intro n p p' w w' reason hr
  obtain ⟨⟨_, inner, _⟩, hrecv, heq⟩ := Checked.bind_eq_ok_iff.mp hr
  cases heq
  exact h hrecv

namespace Datagram

/-- What there is to say against a stream however much room there is. -/
inductive Faulty (maxSize : Nat) : String → Prop
  | malformed (e : Varint.Error) : Faulty maxSize (badHeader e)
  | excessive {size : Nat} (hs : maxSize < size) : Faulty maxSize (exceedsMaximum size maxSize)
  | cut (size : Nat) : Faulty maxSize (cutShort size)

section Wording

theorem append_ne_append {a b : String} (ha : ¬a.toList <+: b.toList) (hb : ¬b.toList <+: a.toList)
    (s t : String) : a ++ s ≠ b ++ t := by
  intro heq
  have hlist : a.toList ++ s.toList = b.toList ++ t.toList := by
    simpa only [String.toList_append] using congrArg String.toList heq
  rcases List.prefix_or_prefix_of_prefix (List.prefix_append a.toList s.toList)
    (hlist ▸ List.prefix_append b.toList t.toList) with hprefix | hprefix
  · exact ha hprefix
  · exact hb hprefix

theorem isDigit_of_mem_toString {n : Nat} {c : Char} (h : c ∈ (toString n).toList) :
    c.isDigit = true := by
  refine Nat.isDigit_of_mem_toDigits (b := 10) (n := n) (by decide) (by decide) ?_
  rwa [← Nat.toList_repr]

theorem dropWhile_numeral {text : List Char} (n : Nat) (h : ∀ c ∈ text.head?, c.isDigit = false) :
    ((toString n).toList ++ text).dropWhile Char.isDigit = text := by
  rw [List.dropWhile_append_of_pos fun _ => isDigit_of_mem_toString]
  cases text with
  | nil => rfl
  | cons c rest =>
    rw [List.dropWhile_cons_of_neg]
    simp [h c rfl]

/-- A number ends where the text behind it begins, which is not with a digit. -/
theorem eq_of_numeral_append {m n : Nat} {a b s t : String} {c d : Char}
    (ha : a.toList.head? = some c) (hc : c.isDigit = false)
    (hb : b.toList.head? = some d) (hd : d.isDigit = false)
    (h : toString m ++ (a ++ s) = toString n ++ (b ++ t)) : a ++ s = b ++ t := by
  have hlist : (toString m).toList ++ (a ++ s).toList = (toString n).toList ++ (b ++ t).toList := by
    simpa only [String.toList_append] using congrArg String.toList h
  have hrest := congrArg (List.dropWhile Char.isDigit) hlist
  rw [dropWhile_numeral m, dropWhile_numeral n] at hrest
  · exact String.toList_inj.mp hrest
  · simpa [String.toList_append, List.head?_append, hb] using hd
  · simpa [String.toList_append, List.head?_append, ha] using hc

theorem badHeader_eq (e : Varint.Error) : badHeader e = "bad datagram header: " ++ e.message := by
  dsimp only [badHeader, toString]

theorem cutShort_eq (size : Nat) : cutShort size =
    "connection closed with " ++ (toString size ++ " bytes of an incomplete datagram") := by
  unfold cutShort
  rw [String.append_assoc]
  rfl

theorem exceedsMaximum_eq (size maxSize : Nat) : exceedsMaximum size maxSize =
    "datagram of " ++ (toString size ++
      (" bytes exceeds the maximum of " ++ (toString maxSize ++ " bytes"))) := by
  unfold exceedsMaximum
  rw [String.append_assoc, String.append_assoc, String.append_assoc]
  rfl

theorem exceedsRoom_eq (size room : Nat) : exceedsRoom size room =
    "datagram of " ++ (toString size ++
      (" bytes does not fit into a buffer of " ++ (toString room ++ " bytes"))) := by
  unfold exceedsRoom
  rw [String.append_assoc, String.append_assoc, String.append_assoc]
  rfl

theorem Faulty.ne_exceedsRoom {maxSize : Nat} {reason : String} (h : Faulty maxSize reason)
    (size room : Nat) : reason ≠ exceedsRoom size room := by
  intro heq
  rw [exceedsRoom_eq] at heq
  cases h with
  | @excessive n =>
    rw [exceedsMaximum_eq] at heq
    have hrest := eq_of_numeral_append (c := ' ') (d := ' ') rfl rfl rfl rfl
      ((String.append_right_inj _).mp heq)
    exact append_ne_append (by decide) (by decide) _ _ hrest
  | malformed e =>
    rw [badHeader_eq] at heq
    exact append_ne_append (by decide) (by decide) _ _ heq
  | cut n =>
    rw [cutShort_eq] at heq
    exact append_ne_append (by decide) (by decide) _ _ heq

end Wording

variable {P W C : Type} {p p' : Datagram P} {w w' : W} {maxSize room : Nat} {bytes : Bytes}
  {reason : String}

theorem faulty_of_front (hroom : maxSize ≤ room) (h : front maxSize room bytes = .error reason) :
    Faulty maxSize reason := by
  unfold front at h
  cases hp : Varint.parse bytes with
  | error e =>
    simp only [hp, Except.error.injEq] at h
    rw [← h]
    exact .malformed e
  | ok found =>
    cases found with
    | none => simp [hp] at h
    | some header =>
      simp only [hp] at h
      split at h
      · rename_i hlarge
        cases h
        exact .excessive hlarge
      rename_i hsmall
      split at h
      · omega
      · split at h <;> cases h

theorem faulty_of_extract (hroom : p.maxSize ≤ room)
    (h : extract room p = .ok (.error (.protocol reason), p')) : Faulty p.maxSize reason := by
  have hextract := extract_eq room p
  cases hf : front p.maxSize room p.assembled with
  | error fault =>
    simp only [hf] at hextract
    rw [h] at hextract
    cases hextract
    exact faulty_of_front hroom hf
  | ok found =>
    cases found with
    | none =>
      simp only [hf] at hextract
      rw [h] at hextract
      cases hextract
    | some found =>
      simp only [hf] at hextract
      obtain ⟨q, hq, _⟩ := hextract
      rw [h] at hq
      cases hq

variable [Pipe P W C]

theorem faulty_of_gather (hinner : Pipe.Faultless P W) (hroom : p.maxSize ≤ room)
    (h : gather room p w = .ok (.error (.protocol reason), p', w')) : Faulty p.maxSize reason := by
  unfold gather at h
  simp only [Checked.bind_eq_ok_iff] at h
  obtain ⟨buffer, _, ⟨answer, inner, w₁⟩, hr, h⟩ := h
  match answer with
  | .error e =>
    cases h
    exact absurd hr (Atomic.faultless hinner)
  | .ok .fin =>
    dsimp only at h
    split at h
    · cases h
    · cases h
      exact .cut buffer.size
  | .ok (.data chunk) =>
    simp only [Checked.bind_eq_ok_iff] at h
    obtain ⟨filled, _, ⟨found, q⟩, hx, h⟩ := h
    match found with
    | .error e =>
      cases h
      exact faulty_of_extract (p := ({ p with inner, assembly := some filled } : Datagram P))
        hroom hx
    | .ok none | .ok (some payload) => cases h

/-- With room for the largest datagram, no receive fails for want of room. -/
theorem faulty_of_recv (hinner : Pipe.Faultless P W) (hroom : p.maxSize ≤ room)
    (h : Pipe.recv room p w = .ok (.error (.protocol reason), p', w')) :
    Faulty p.maxSize reason := by
  replace h : recvDatagram room p w = .ok (.error (.protocol reason), p', w') := h
  unfold recvDatagram at h
  split at h
  · cases h
  simp only [Checked.bind_eq_ok_iff] at h
  obtain ⟨⟨found, q⟩, hx, h⟩ := h
  match found with
  | .error e =>
    cases h
    exact faulty_of_extract hroom hx
  | .ok (some payload) => cases h
  | .ok none =>
    simp only [Checked.bind_eq_ok_iff] at h
    obtain ⟨⟨answer, q', w₁⟩, hg, h⟩ := h
    cases h
    -- where nothing was found, the reassembly buffer is as before
    rcases extracted hx with ⟨_, ⟨_, hbad⟩, _⟩ | ⟨_, _, rfl⟩ | ⟨_, _, _, hbad, _⟩
    · cases hbad
    · exact faulty_of_gather hinner hroom hg
    · cases hbad

end Datagram

end DuplexRelay
