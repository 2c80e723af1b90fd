import DuplexRelay.Proofs.Bridge.Exactness
import DuplexRelay.Proofs.Bridge.Logged
import DuplexRelay.Proofs.Bridge.Sustained
import DuplexRelay.Proofs.Pipe.Below

/-! What it takes to say where the bytes are that go through a pipe: what was read and written at
its bottom, and what its layers hold back. A lawful ledger stays balanced. -/

namespace DuplexRelay

open Outlook (LeavesUsable)

/-- What a receive yields. -/
def chunksOf : PipeResult Recv → List Bytes
  | .ok (.data chunk) => [chunk]
  | _ => []

/-- What a send takes off the front of `data`. -/
def takenOf (data : Bytes) : PipeResult Nat → List Bytes
  | .ok n => [data.take n]
  | .error _ => []

@[simp] theorem chunksOf_error (e : PipeError) : chunksOf (.error e) = [] := rfl

@[simp] theorem takenOf_error (data : Bytes) (e : PipeError) : takenOf data (.error e) = [] := rfl

@[simp] theorem takenOf_length (data : Bytes) : takenOf data (.ok data.length) = [data] := by
  rw [takenOf, List.take_length]

namespace PipeCall

def read : PipeCall → Bytes
  | received answer => (chunksOf answer).flatten
  | _ => []

def written : PipeCall → Bytes
  | sent data answer => (takenOf data answer).flatten
  | _ => []

end PipeCall

/-- An account of the bytes that go through a pipe. -/
structure Ledger (P : Type) where
  /-- the account is kept of such pipes -/
  kept : P → Prop
  /-- a chunk as it is at the bottom -/
  code : P → Bytes → Bytes
  /-- all that was read at the bottom -/
  read : P → Bytes
  /-- what was read and not returned yet -/
  rest : P → Bytes
  /-- all that was accepted at the bottom -/
  written : P → Bytes
  /-- what was taken and not passed to the bottom yet -/
  held : P → Bytes

namespace Ledger

variable {P W C : Type} {l : Ledger P} {p p₁ p' : P}

/-- Some chunks were returned, and some were taken. -/
structure Moved (l : Ledger P) (returned taken : List Bytes) (p p' : P) : Prop where
  kept : l.kept p'
  code : l.code p' = l.code p
  read : ∀ before, l.read p = before ++ l.rest p →
    l.read p' = before ++ (returned.flatMap (l.code p) ++ l.rest p')
  written : l.written p' ++ l.held p' = l.written p ++ l.held p ++ taken.flatMap (l.code p)

theorem Moved.refl (h : l.kept p) : l.Moved [] [] p p :=
  ⟨h, rfl, fun _ hread => hread, (List.append_nil _).symm⟩

theorem Moved.trans (h : l.Moved [] [] p p₁) (h' : l.Moved [] [] p₁ p') : l.Moved [] [] p p' := by
  refine ⟨h'.kept, h'.code.trans h.code, ?_, ?_⟩
  · exact fun before hread => h'.read before (h.read before hread)
  · rw [h'.written, List.flatMap_nil, List.append_nil, h.written]

/-- What every operation does to the account that leaves the pipe of use. -/
structure Lawful (W : Type) [Pipe P W C] (l : Ledger P) : Prop where
  attach : ∀ {callback : C} {p p' : P} {w w' : W} {result}, l.kept p →
    Pipe.attach callback p w = .ok (result, p', w') → l.Moved [] [] p p'
  recv : ∀ {n : Nat} {p p' : P} {w w' : W} {result}, l.kept p →
    Pipe.recv n p w = .ok (result, p', w') → LeavesUsable result → l.Moved (chunksOf result) [] p p'
  send : ∀ {data : Bytes} {p p' : P} {w w' : W} {result}, l.kept p →
    Pipe.send data p w = .ok (result, p', w') → LeavesUsable result →
      l.Moved [] (takenOf data result) p p'
  sendFin : ∀ {p p' : P} {w w' : W} {result}, l.kept p →
    Pipe.sendFin p w = .ok (result, p', w') → l.Moved [] [] p p'
  react : ∀ {events : SocketEvents} {p p' : P} {w w' : W} {report}, l.kept p →
    Pipe.react events p w = .ok (report, p', w') → report.broken = false → l.Moved [] [] p p'

/-- Chunks pass as they are, and no more is read than is returned. -/
structure Plain (l : Ledger P) : Prop where
  code : ∀ p, l.code p = id
  rest : ∀ p, l.rest p = []

theorem Plain.moved_iff {returned taken : List Bytes} (h : Plain l) :
    l.Moved returned taken p p' ↔ l.kept p' ∧ l.read p' = l.read p ++ returned.flatten ∧
      l.written p' ++ l.held p' = l.written p ++ l.held p ++ taken.flatten := by
  constructor
  · intro hm
    have hread := hm.read (l.read p) (by rw [h.rest, List.append_nil])
    have hwritten := hm.written
    rw [h.code, List.flatMap_id] at hread hwritten
    rw [h.rest, List.append_nil] at hread
    exact ⟨hm.kept, hread, hwritten⟩
  · rintro ⟨hkept, hread, hwritten⟩
    refine ⟨hkept, by rw [h.code, h.code], ?_, ?_⟩
    · intro before hbefore
      rw [h.rest, List.append_nil] at hbefore
      rw [h.code, h.rest, List.append_nil, List.flatMap_id, hread, hbefore]
    · rw [h.code, List.flatMap_id, hwritten]

/-- The account agrees with the records of a pipe. -/
structure Balanced (l : Ledger P) (r : Recorded P) : Prop where
  kept : l.kept r.pipe
  read : l.read r.pipe = r.received.flatMap (l.code r.pipe) ++ l.rest r.pipe
  written : l.written r.pipe ++ l.held r.pipe = r.accepted.flatMap (l.code r.pipe)

theorem Balanced.moved {r r' : Recorded P} {returned taken : List Bytes} (h : l.Balanced r)
    (hm : l.Moved returned taken r.pipe r'.pipe) (hr : r'.received = r.received ++ returned)
    (ha : r'.accepted = r.accepted ++ taken) : l.Balanced r' := by
  refine ⟨hm.kept, ?_, ?_⟩
  · rw [hm.read _ h.read, hm.code, hr, List.flatMap_append, List.append_assoc]
  · rw [hm.written, h.written, hm.code, ha, List.flatMap_append]

theorem noteRecv_received (r : Recorded P) (result : PipeResult Recv) (pipe : P) :
    (r.noteRecv result pipe).received = r.received ++ chunksOf result := by
  rcases result with e | (chunk | _)
  · exact (List.append_nil _).symm
  · rfl
  · exact (List.append_nil _).symm

theorem noteRecv_accepted (r : Recorded P) (result : PipeResult Recv) (pipe : P) :
    (r.noteRecv result pipe).accepted = r.accepted := by
  rcases result with e | (chunk | _) <;> rfl

theorem noteSend_received (r : Recorded P) (data : Bytes) (result : PipeResult Nat) (pipe : P) :
    (r.noteSend data result pipe).received = r.received := by
  cases result <;> rfl

theorem noteSend_accepted (r : Recorded P) (data : Bytes) (result : PipeResult Nat) (pipe : P) :
    (r.noteSend data result pipe).accepted = r.accepted ++ takenOf data result := by
  cases result with
  | ok n => rfl
  | error e => exact (List.append_nil _).symm

section Recorded

variable [Pipe P W C] {r r' : Recorded P} {w w' : W} (hl : l.Lawful W)
include hl

theorem Balanced.attach {callback : C} {result : Except Failure Unit} (h : l.Balanced r)
    (ha : Pipe.attach callback r w = .ok (result, r', w')) : l.Balanced r' := by
  obtain ⟨pipe, hattach, rfl⟩ := Recorded.attach_eq_ok ha
  exact h.moved (hl.attach h.kept hattach) (List.append_nil _).symm (List.append_nil _).symm

/-- As long as a pipe does not fail, the account goes on to agree with the records. -/
theorem upholds : Pipe.Upholds W l.Balanced where
  recv := by
    intro n r r' w w' result h hr hm
    obtain ⟨pipe, hrecv, rfl⟩ := Recorded.recv_eq_ok hr
    have hmoved := hl.recv h.kept hrecv hm
    rw [← Recorded.noteRecv_pipe r result pipe] at hmoved
    apply h.moved hmoved (noteRecv_received r result pipe)
    rw [noteRecv_accepted, List.append_nil]
  send := by
    intro data r r' w w' result h hs hm
    obtain ⟨pipe, hsend, rfl⟩ := Recorded.send_eq_ok hs
    have hmoved := hl.send h.kept hsend hm
    rw [← Recorded.noteSend_pipe r data result pipe] at hmoved
    apply h.moved hmoved
    · rw [noteSend_received, List.append_nil]
    · exact noteSend_accepted r data result pipe
  sendFin := by
    intro r r' w w' status h hc
    obtain ⟨pipe, hclose, rfl⟩ := Recorded.sendFin_eq_ok hc
    exact h.moved (hl.sendFin h.kept hclose) (List.append_nil _).symm (List.append_nil _).symm
  react := by
    intro events r r' w w' report h hr hb
    obtain ⟨pipe, hreact, rfl⟩ := Recorded.react_eq_ok hr
    exact h.moved (hl.react h.kept hreact hb) (List.append_nil _).symm (List.append_nil _).symm

end Recorded

end Ledger

end DuplexRelay
