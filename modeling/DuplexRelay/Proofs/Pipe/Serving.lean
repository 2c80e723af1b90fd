import DuplexRelay.Proofs.Pipe.AtomicOutlook
import DuplexRelay.Session.Testbed

/-! A pipe that serves a stream gives its bytes in parts of any size, keeps the receiver waiting a
finite number of times in between and then ends. A scripted pipe serves what is on its script. -/

namespace DuplexRelay

section Serving

/-- What can come of a receive into so many bytes of room while these bytes are still to come. -/
inductive Offers (room : Nat) : Bytes → PipeResult Recv → Prop
  | nothing {bytes : Bytes} : Offers room bytes (.error .wouldBlock)
  | part {chunk rest : Bytes} (hsome : chunk ≠ []) (hfits : chunk.length ≤ room) :
      Offers room (chunk ++ rest) (.ok (.data chunk))
  | fin : Offers room [] (.ok .fin)

variable {P W C : Type} [Pipe P W C]

/-- A pipe that gives these bytes and then the end of the stream, in parts of any size, and keeps a
receiver waiting a finite number of times in between. -/
inductive Serves : Bytes → P → W → Prop
  | intro {bytes : Bytes} {p : P} {w : W} (hsound : (state p).broken = false)
      (hoffers : ∀ n, 0 < n → ∃ answer p' w', Pipe.recv n p w = .ok (answer, p', w') ∧
        Offers n bytes answer)
      (hwaits : ∀ n p' w', 0 < n → Pipe.recv n p w = .ok (.error .wouldBlock, p', w') →
        Serves bytes p' w')
      (hgives : ∀ n chunk rest p' w', 0 < n →
        Pipe.recv n p w = .ok (.ok (.data chunk), p', w') → bytes = chunk ++ rest →
        Serves rest p' w') :
      Serves bytes p w

theorem Atomic.recv_eq_ok_iff {n : Nat} {p p' : Atomic P} {w w' : W} {answer : PipeResult Recv} :
    Pipe.recv n p w = .ok (answer, p', w') ↔
      ∃ inner, Pipe.recv n p.inner w = .ok (answer, inner, w') ∧ p' = { p with inner } := by
  change Pipe.recv n p.inner w >>= _ = _ ↔ _
  rw [Checked.bind_eq_ok_iff]
  constructor
  · rintro ⟨⟨result, inner, w₁⟩, hr, h⟩
    cases h
    exact ⟨inner, hr, rfl⟩
  · rintro ⟨inner, hr, rfl⟩
    exact ⟨_, hr, rfl⟩

/-- Sends that are accepted as a whole do not touch what is received. -/
theorem Atomic.serves {bytes : Bytes} {inner : P} {w : W} (h : Serves bytes inner w) :
    ∀ p : Atomic P, p.inner = inner → Serves bytes p w := by
  induction h with
  | intro hsound hoffers _ _ ihwaits ihgives =>
    rintro p rfl
    refine .intro (by rw [state_broken, hsound]) ?_ ?_ ?_
    · intro n hn
      obtain ⟨answer, inner, w', hr, hoffer⟩ := hoffers n hn
      exact ⟨answer, _, w', recv_eq_ok_iff.mpr ⟨inner, hr, rfl⟩, hoffer⟩
    · intro n p' w' hn hr
      obtain ⟨inner, hinner, rfl⟩ := recv_eq_ok_iff.mp hr
      exact ihwaits n inner w' hn hinner _ rfl
    · intro n chunk rest p' w' hn hr hbytes
      obtain ⟨inner, hinner, rfl⟩ := recv_eq_ok_iff.mp hr
      exact ihgives n chunk rest inner w' hn hinner hbytes _ rfl

/-- Receives one thing after another, at most so often, until the stream ends or an error other than
a wait comes of it. -/
def receiveAll (room : Nat) : Nat → P → W → Checked (List Bytes × Option (PipeResult Unit))
  | 0, _, _ => .ok ([], none)
  | calls + 1, p, w => do
    let (result, p, w) ← Pipe.recv room p w
    match result with
    | .error .wouldBlock => receiveAll room calls p w
    | .error e => return ([], some (.error e))
    | .ok .fin => return ([], some (.ok ()))
    | .ok (.data bytes) =>
      let (others, ending) ← receiveAll room calls p w
      return (bytes :: others, ending)

/-- Receives that are repeated often enough come to this, and stay at it. -/
def Yields (room : Nat) (p : P) (w : W) (payloads : List Bytes) (ending : PipeResult Unit) : Prop :=
  ∃ calls, ∀ more, receiveAll room (calls + more) p w = .ok (payloads, some ending)

variable {room : Nat} {p p' : P} {w w' : W} {payloads : List Bytes} {ending : PipeResult Unit}

theorem yields_of_wait (hr : Pipe.recv room p w = .ok (.error .wouldBlock, p', w'))
    (h : Yields room p' w' payloads ending) : Yields room p w payloads ending := by
  obtain ⟨calls, hcalls⟩ := h
  refine ⟨calls + 1, ?_⟩
  intro more
  rw [Nat.add_right_comm, receiveAll, hr, Checked.ok_bind]
  exact hcalls more

theorem yields_of_data {bytes : Bytes} (hr : Pipe.recv room p w = .ok (.ok (.data bytes), p', w'))
    (h : Yields room p' w' payloads ending) : Yields room p w (bytes :: payloads) ending := by
  obtain ⟨calls, hcalls⟩ := h
  refine ⟨calls + 1, ?_⟩
  intro more
  rw [Nat.add_right_comm, receiveAll, hr, Checked.ok_bind]
  dsimp only
  rw [hcalls more]
  rfl

theorem yields_of_fin (hr : Pipe.recv room p w = .ok (.ok .fin, p', w')) :
    Yields room p w [] (.ok ()) := by
  refine ⟨1, ?_⟩
  intro more
  rw [Nat.add_comm, receiveAll, hr]
  rfl

theorem yields_of_protocol {reason : String}
    (hr : Pipe.recv room p w = .ok (.error (.protocol reason), p', w')) :
    Yields room p w [] (.error (.protocol reason)) := by
  refine ⟨1, ?_⟩
  intro more
  rw [Nat.add_comm, receiveAll, hr]
  rfl

end Serving

namespace Scripted

/-- Answers that stand for a stream: parts of it, waits in between, and its end. -/
inductive Script : Bytes → List RecvItem → Prop
  | fin {others : List RecvItem} : Script [] (.fin :: others)
  | block {bytes : Bytes} {items : List RecvItem} (h : Script bytes items) :
      Script bytes (.block :: items)
  | data {chunk bytes : Bytes} {items : List RecvItem} (hsome : chunk ≠ [])
      (h : Script bytes items) : Script (chunk ++ bytes) (.data chunk :: items)

variable {N C : Type} [CallLog N]

theorem recv_eq_answer (n : Nat) (p : Scripted) (w : Host N C) : Pipe.recv n p w =
    .ok ((p.answerRecv n).1, (p.answerRecv n).2, p.log (.recv n) w) := rfl

section Items

variable {p : Scripted} {w : Host N C} {bytes chunk : Bytes} {items : List RecvItem}

theorem serves_fin (hitems : p.recvs = .fin :: items) (hb : p.bits.broken = false) :
    Serves [] p w := by
  have hanswer : ∀ n, (p.answerRecv n).1 = .ok .fin := by
    intro n
    simp [answerRecv, hb, hitems]
  refine .intro hb ?_ ?_ ?_
  · intro n _
    exact ⟨_, _, _, recv_eq_answer n p w, by rw [hanswer]; exact .fin⟩
  · intro n p' w' _ hr
    rw [recv_eq_answer, hanswer] at hr
    cases hr
  · intro n chunk rest p' w' _ hr _
    rw [recv_eq_answer, hanswer] at hr
    cases hr

theorem serves_block (hitems : p.recvs = .block :: items) (hb : p.bits.broken = false)
    (hbehind : ∀ {p : Scripted} {w : Host N C}, p.recvs = items → p.bits.broken = false →
      Serves bytes p w) : Serves bytes p w := by
  have hanswer : ∀ n, p.answerRecv n = (.error .wouldBlock,
      { p with recvs := items, bits := { p.bits with readable := false } }) := by
    intro n
    simp [answerRecv, hb, hitems]
  refine .intro hb ?_ ?_ ?_
  · intro n _
    exact ⟨_, _, _, recv_eq_answer n p w, by rw [hanswer]; exact .nothing⟩
  · intro n p' w' _ hr
    rw [recv_eq_answer, hanswer] at hr
    cases hr
    exact hbehind rfl hb
  · intro n chunk rest p' w' _ hr _
    rw [recv_eq_answer, hanswer] at hr
    cases hr

theorem serves_data (hsome : chunk ≠ []) (hitems : p.recvs = .data chunk :: items)
    (hb : p.bits.broken = false)
    (hbehind : ∀ {p : Scripted} {w : Host N C}, p.recvs = items → p.bits.broken = false →
      Serves bytes p w) : Serves (chunk ++ bytes) p w := by
  -- a part that does not fit leaves a shorter one at the head of the script
  induction hlength : chunk.length using Nat.strongRecOn generalizing chunk p w with
  | _ length ih =>
    have hanswer : ∀ n, p.answerRecv n = (.ok (.data (chunk.take n)), { p with
        recvs := if (chunk.drop n).isEmpty then items else (.data (chunk.drop n)) :: items }) := by
      intro n
      simp [answerRecv, hb, hitems]
    refine .intro hb ?_ ?_ ?_
    · intro n hn
      refine ⟨_, _, _, recv_eq_answer n p w, ?_⟩
      rw [hanswer]
      have hpart : chunk.take n ≠ [] := by
        rw [ne_eq, List.take_eq_nil_iff]
        rintro (h | h)
        · omega
        · exact hsome h
      have hoffer : Offers n (chunk.take n ++ (chunk.drop n ++ bytes)) _ :=
        .part hpart (List.length_take_le n chunk)
      rw [← List.append_assoc, List.take_append_drop] at hoffer
      exact hoffer
    · intro n p' w' _ hr
      rw [recv_eq_answer, hanswer] at hr
      cases hr
    · intro n part rest p' w' hn hr hsplit
      rw [recv_eq_answer, hanswer] at hr
      cases hr
      have hrest : rest = chunk.drop n ++ bytes := by
        rw [← List.take_append_drop n chunk, List.append_assoc] at hsplit
        simpa using hsplit.symm
      subst hrest
      by_cases hleft : chunk.drop n = []
      · rw [hleft, List.nil_append]
        exact hbehind (by simp) hb
      · have hpos := List.length_pos_iff.mpr hsome
        exact ih (chunk.drop n).length (by rw [List.length_drop]; omega) hleft
          (by simp [hleft]) hb rfl

end Items

theorem serves_of_script {bytes : Bytes} {items : List RecvItem} (h : Script bytes items) :
    ∀ {p : Scripted} {w : Host N C}, p.recvs = items → p.bits.broken = false →
      Serves bytes p w := by
  induction h with
  | fin =>
    intro p w hitems hb
    exact serves_fin hitems hb
  | block _ ih =>
    intro p w hitems hb
    exact serves_block hitems hb ih
  | data hsome _ ih =>
    intro p w hitems hb
    exact serves_data hsome hitems hb ih

end Scripted

end DuplexRelay
