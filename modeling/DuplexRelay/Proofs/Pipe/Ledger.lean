import DuplexRelay.Proofs.Pipe.Balance
import DuplexRelay.Proofs.Pipe.Ending
import DuplexRelay.Proofs.Pipe.Framing

/-! Where the bytes are that go through a pipe. Whatever its layers do with them, all that was read
at the bottom was returned or is held back, and all that was accepted was passed to the bottom or is
held back. A datagram is on its way as a frame. -/

namespace DuplexRelay

open Outlook (LeavesUsable)

namespace Logged

variable {P W C : Type}

/-- The bytes that were read in the calls of a pipe, and those that were accepted. -/
def ledger : Ledger (Logged P) where
  kept _ := True
  code _ := id
  read l := l.calls.flatMap PipeCall.read
  rest _ := []
  written l := l.calls.flatMap PipeCall.written
  held _ := []

theorem ledger_plain : (ledger : Ledger (Logged P)).Plain := ⟨fun _ => rfl, fun _ => rfl⟩

theorem ledger_moved {l l' : Logged P} {call : PipeCall} {returned taken : List Bytes}
    (h : l'.calls = l.calls ++ [call]) (hr : call.read = returned.flatten)
    (ht : call.written = taken.flatten) : ledger.Moved returned taken l l' := by
  apply ledger_plain.moved_iff.mpr
  refine ⟨trivial, ?_, ?_⟩
  · simp [ledger, h, hr]
  · simp [ledger, h, ht]

theorem ledger_lawful [Pipe P W C] : (ledger : Ledger (Logged P)).Lawful W where
  attach _ h := by
    obtain ⟨_, _, heq⟩ := Checked.map_eq_ok_iff.mp h
    cases heq
    exact ledger_moved rfl rfl rfl
  recv _ h _ := ledger_moved (calls_recv h) rfl rfl
  send _ h _ := ledger_moved (calls_send h) rfl rfl
  sendFin _ h := ledger_moved (calls_sendFin h) rfl rfl
  react _ h _ := ledger_moved (calls_react h) rfl rfl

end Logged

namespace Atomic

variable {P W C : Type}

/-- What was taken and not passed to the pipe below yet. -/
def unsent (p : Atomic P) : Bytes := (p.queue.map (·.live)).getD []

/-- The account of an atomic pipe. -/
def ledger (l : Ledger P) : Ledger (Atomic P) where
  kept p := l.kept p.inner
  code p := l.code p.inner
  read p := l.read p.inner
  rest p := l.rest p.inner
  written p := l.written p.inner
  held p := l.held p.inner ++ p.unsent

variable {l : Ledger P}

theorem ledger_plain (h : l.Plain) : (ledger l).Plain :=
  ⟨fun p => h.code p.inner, fun p => h.rest p.inner⟩

/-- Some bytes went to the pipe below, and others to the queue behind them. -/
theorem ledger_moved (hl : l.Plain) {p p' : Atomic P} {returned passed taken : List Bytes}
    (h : l.Moved returned passed p.inner p'.inner)
    (hq : passed.flatten ++ p'.unsent = p.unsent ++ taken.flatten) :
    (ledger l).Moved returned taken p p' := by
  obtain ⟨hkept, hread, hwritten⟩ := hl.moved_iff.mp h
  apply (ledger_plain hl).moved_iff.mpr
  refine ⟨hkept, hread, ?_⟩
  change l.written p'.inner ++ (l.held p'.inner ++ p'.unsent) =
    l.written p.inner ++ (l.held p.inner ++ p.unsent) ++ taken.flatten
  simp only [← List.append_assoc]
  rw [hwritten, List.append_assoc, hq]
  simp only [List.append_assoc]

variable [Pipe P W C] (hl : l.Lawful W) (hp : l.Plain)
include hl hp

theorem ledger_sent {data : Bytes} {p p' : Atomic P} {w w' : W} {result : PipeResult Nat}
    (hk : l.kept p.inner) (h : Pipe.send data p w = .ok (result, p', w'))
    (hm : LeavesUsable result) : (ledger l).Moved [] (takenOf data result) p p' := by
  cases sentWhole h with
  | waiting => exact .refl hk
  | refused _ _ hs => exact ledger_moved hp (hl.send hk hs hm) (List.append_nil _).symm
  | @all n inner _ _ hq hs hn =>
    have hall : data.take n = data := List.take_of_length_le hn
    rw [takenOf_length]
    refine ledger_moved hp (hl.send hk hs nofun) ?_
    simp [takenOf, unsent, hq, hall]
  | @part n inner _ _ hq hs hn =>
    rw [takenOf_length]
    refine ledger_moved hp (hl.send hk hs nofun) ?_
    simp [takenOf, unsent, hq]

theorem ledger_queueFlushed {events report : PipeEvents} {p p' : Atomic P} {w w' : W}
    (hk : l.kept p.inner) (h : QueueFlushed events p w report p' w') (hb : report.broken = false) :
    (ledger l).Moved [] [] p p' := by
  cases h with
  | idle => exact .refl hk
  | @refused queue e inner _ hq hs =>
    have hmild : LeavesUsable (.error e : PipeResult Nat) := by
      rintro _ ⟨⟩
      exact (Bool.or_eq_false_iff.mp hb).2
    refine ledger_moved hp (hl.send hk hs hmild) ?_
    simp [unsent, hq]
  | @part queue rest n inner _ hq hs hn hr =>
    obtain ⟨after, hafter, hlive⟩ := ByteBuffer.consume_eq_ok (Nat.le_of_lt hn)
    rw [hr] at hafter
    cases hafter
    refine ledger_moved hp (hl.send hk hs nofun) ?_
    simp [takenOf, unsent, hq, hlive]
  | @all queue n inner _ hq hs hn =>
    have hall : queue.live.take n = queue.live := List.take_of_length_le hn
    refine ledger_moved hp (hl.send hk hs nofun) ?_
    simp [takenOf, unsent, hq, hall]

theorem ledger_reacted {events : SocketEvents} {report : PipeEvents} {p p' : Atomic P} {w w' : W}
    (hk : l.kept p.inner) (h : Pipe.react events p w = .ok (report, p', w'))
    (hb : report.broken = false) : (ledger l).Moved [] [] p p' := by
  cases reacted h with
  | passed hr => exact ledger_moved hp (hl.react hk hr hb) (List.append_nil _).symm
  | @flushing report₀ report₁ _ inner p₁ _ w₁ w₂ _ hr _ hq hf =>
    have hb₁ : report₁.broken = false := by
      cases hf with
      | skipped => exact hb
      | @closed result => rcases result with e | (_ | _) <;> simp_all [closingReport]
    have hb₀ : report₀.broken = false := by
      cases hq with
      | idle => exact hb₁
      | refused => exact (Bool.or_eq_false_iff.mp hb₁).1
      | part | all => exact hb₁
    have hnotice : (ledger l).Moved [] [] p { p with inner } :=
      ledger_moved hp (hl.react hk hr hb₀) (List.append_nil _).symm
    have hqueue := ledger_queueFlushed hl hp hnotice.kept hq hb₁
    refine hnotice.trans (hqueue.trans ?_)
    cases hf with
    | skipped => exact .refl hqueue.kept
    | closed _ _ hc => exact ledger_moved hp (hl.sendFin hqueue.kept hc) (List.append_nil _).symm

theorem ledger_lawful : (ledger l).Lawful W where
  attach := by
    intro callback p p' w w' result hk h
    obtain ⟨⟨_, inner, _⟩, hattach, heq⟩ := Checked.bind_eq_ok_iff.mp h
    cases heq
    exact ledger_moved hp (hl.attach hk hattach) (List.append_nil _).symm
  recv := by
    intro n p p' w w' result hk h hm
    obtain ⟨⟨_, inner, _⟩, hrecv, heq⟩ := Checked.bind_eq_ok_iff.mp h
    cases heq
    exact ledger_moved hp (hl.recv hk hrecv hm) (List.append_nil _).symm
  send := ledger_sent hl hp
  sendFin := by
    intro p p' w w' result hk h
    cases closedBehind h with
    | waiting => exact ledger_moved hp (.refl hk) (List.append_nil _).symm
    | passed _ _ hc => exact ledger_moved hp (hl.sendFin hk hc) (List.append_nil _).symm
  react := ledger_reacted hl hp

end Atomic

namespace Datagram

variable {P W C : Type}

/-- The account of a datagram pipe whose framing was not violated. -/
def ledger (l : Ledger (Atomic P)) : Ledger (Datagram P) where
  kept p := l.kept p.inner ∧ p.broken = false
  code p data := l.code p.inner (wire data)
  read p := l.read p.inner
  rest p := l.rest p.inner ++ p.assembled
  written p := l.written p.inner
  held p := l.held p.inner

variable {l : Ledger (Atomic P)}

/-- Bytes come in on the pipe below, of which frames were taken off the front, and frames go out on
it. -/
theorem ledger_moved (hl : l.Plain) {p p' : Datagram P} {chunks frames returned taken : List Bytes}
    (h : l.Moved chunks frames p.inner p'.inner) (hb : p'.broken = false)
    (hr : p.assembled ++ chunks.flatten = returned.flatMap wire ++ p'.assembled)
    (ht : frames.flatten = taken.flatMap wire) : (ledger l).Moved returned taken p p' := by
  obtain ⟨hkept, hread, hwritten⟩ := hl.moved_iff.mp h
  have hcode : ∀ q : Datagram P, (ledger l).code q = wire := by
    intro q
    change (fun data => l.code q.inner (wire data)) = wire
    rw [hl.code]
    rfl
  refine ⟨⟨hkept, hb⟩, by rw [hcode, hcode], ?_, ?_⟩
  · intro before hbefore
    change l.read p.inner = before ++ (l.rest p.inner ++ p.assembled) at hbefore
    change l.read p'.inner = before ++ (_ ++ (l.rest p'.inner ++ p'.assembled))
    rw [hl.rest, List.nil_append] at hbefore
    rw [hl.rest, List.nil_append, hcode, ← hr, hread, hbefore, List.append_assoc]
  · change l.written p'.inner ++ l.held p'.inner = l.written p.inner ++ l.held p.inner ++ _
    rw [hwritten, hcode, ht]

variable [Pipe P W C] (hl : l.Lawful W) (hp : l.Plain)
include hl hp

theorem ledger_received {n : Nat} {p p' : Datagram P} {w w' : W} {result : PipeResult Recv}
    (hk : (ledger l).kept p) (h : Pipe.recv n p w = .ok (result, p', w'))
    (hm : LeavesUsable result) : (ledger l).Moved (chunksOf result) [] p p' := by
  obtain ⟨hk, hb⟩ := hk
  have hmoved : ∀ {chunks : List Bytes}, l.Moved chunks [] p.view.inner p'.view.inner →
      p'.view.broken = false →
      p.view.assembled ++ chunks.flatten = (chunksOf result).flatMap wire ++ p'.view.assembled →
      (ledger l).Moved (chunksOf result) [] p p' := fun h hb' hr => ledger_moved hp h hb' hr rfl
  have houtcome := received h
  generalize p'.view = v' at houtcome hmoved
  cases houtcome with
  | broken | violated | corrupted | cut => cases hm _ rfl
  | found _ _ hf =>
    refine hmoved (.refl hk) hb ?_
    rw [List.flatten_nil, List.append_nil, (eq_wire_of_firstFrame hf).1]
    simp [chunksOf]
  | @refused _ e _ _ _ _ _ hr =>
    have hmild : LeavesUsable (.error e : PipeResult Recv) := by
      rintro _ ⟨⟩
      exact hm e rfl
    refine hmoved (hl.recv hk hr hmild) hb ?_
    simp
  | incomplete _ _ _ hr =>
    refine hmoved (hl.recv hk hr nofun) hb ?_
    simp [chunksOf]
  | completed _ _ _ hr hn =>
    have hframe := (eq_wire_of_firstFrame hn).1
    refine hmoved (hl.recv hk hr nofun) hb ?_
    simp [chunksOf, hframe]
  | ended _ _ hnothing hr =>
    refine hmoved (hl.recv hk hr nofun) hb ?_
    simp [chunksOf, hnothing]

theorem ledger_sent {data : Bytes} {p p' : Datagram P} {w w' : W} {result : PipeResult Nat}
    (hk : (ledger l).kept p) (h : Pipe.send data p w = .ok (result, p', w'))
    (hm : LeavesUsable result) : (ledger l).Moved [] (takenOf data result) p p' := by
  generalize hanswer : result = answer at h
  cases sent h with
  | broken | excessive | unframed => cases hm _ hanswer
  | waiting =>
    subst hanswer
    exact .refl hk
  | @passed framed below inner _ hb _ _ hframe hs =>
    subst hanswer
    rw [eq_wire_of_frame hframe] at hs
    cases below with
    | error e =>
      have hmild : LeavesUsable (.error e : PipeResult Nat) := by
        rintro _ ⟨⟩
        exact hm e rfl
      exact ledger_moved hp (hl.send hk.1 hs hmild) hb (List.append_nil _) rfl
    | ok k =>
      -- an atomic pipe takes all of a frame or nothing
      have hwhole : k = (wire data).length := by
        cases Atomic.sentWhole hs <;> rfl
      subst hwhole
      have hmoved := hl.send hk.1 hs nofun
      rw [takenOf_length] at hmoved
      change (ledger l).Moved [] (takenOf data (.ok data.length)) p _
      rw [takenOf_length]
      exact ledger_moved hp hmoved hb (List.append_nil _) (by simp)

theorem ledger_lawful : (ledger l).Lawful W where
  attach := by
    intro callback p p' w w' result hk h
    obtain ⟨⟨_, inner, _⟩, hattach, heq⟩ := Checked.bind_eq_ok_iff.mp h
    cases heq
    exact ledger_moved hp (hl.attach hk.1 hattach) hk.2 (List.append_nil _) rfl
  recv := ledger_received hl hp
  send := ledger_sent hl hp
  sendFin := by
    intro p p' w w' result hk h
    rcases closed h with ⟨_, _, rfl, _⟩ | ⟨hb, inner, hc, rfl⟩
    · exact .refl hk
    · exact ledger_moved hp (hl.sendFin hk.1 hc) hb (List.append_nil _) rfl
  react := by
    intro events p p' w w' report hk h hb
    obtain ⟨⟨below, inner, _⟩, hr, heq⟩ := Checked.bind_eq_ok_iff.mp h
    cases heq
    rw [hk.2, if_neg Bool.false_ne_true] at hb
    exact ledger_moved hp (hl.react hk.1 hr hb) hk.2 (List.append_nil _) rfl

end Datagram

namespace Stacked

variable {P W C : Type}

/-- A chunk as it is at the bottom of a stack. -/
def code : List Layer → Bytes → Bytes
  | [], data => data
  | .atomic :: layers, data => code layers data
  | .datagram :: layers, data => code layers (Datagram.wire data)

/-- What the layers of a stack took and did not pass to the bottom yet. -/
def held {B : Type} : (layers : List Layer) → Stacked B layers → Bytes
  | [], _ => []
  | .atomic :: layers, p => held layers (Atomic.inner p) ++ Atomic.unsent p
  | .datagram :: layers, p =>
    held layers (Datagram.inner p).inner ++ Atomic.unsent (Datagram.inner p)

end Stacked

namespace Stack

variable {P W C : Type}

/-- The layers of a pipe over a connection, with or without framing. -/
def IsLink {B : Type} (s : Stack B) : Prop := s.layers = [] ∨ s.layers = [.datagram]

def code {B : Type} (s : Stack B) : Bytes → Bytes := Stacked.code s.layers

def held {B : Type} (s : Stack B) : Bytes := Stacked.held s.layers s.top

def violated {B : Type} : Stack B → Bool
  | ⟨[], _⟩ => false
  | ⟨.atomic :: _, _⟩ => false
  | ⟨.datagram :: _, p⟩ => Datagram.broken p

/-- The account of a pipe over a connection. -/
def ledger : Ledger (Stack (Logged P)) where
  kept s := s.IsLink ∧ s.violated = false
  code := code
  read s := s.base.calls.flatMap PipeCall.read
  rest := rest
  written s := s.base.calls.flatMap PipeCall.written
  held := held

variable {returned taken : List Bytes}

theorem ledger_moved_bare {p p' : Logged P} (h : Logged.ledger.Moved returned taken p p') :
    ledger.Moved returned taken (bare p) (bare p') :=
  ⟨⟨.inl rfl, rfl⟩, h.code, h.read, h.written⟩

theorem ledger_moved_framed {p p' : Datagram (Logged P)}
    (h : (Datagram.ledger (Atomic.ledger Logged.ledger)).Moved returned taken p p') :
    ledger.Moved returned taken ⟨[.datagram], p⟩ ⟨[.datagram], p'⟩ :=
  ⟨⟨.inr rfl, h.kept.2⟩, h.code, h.read, h.written⟩

theorem ledger_lawful [Pipe P W C] : (ledger : Ledger (Stack (Logged P))).Lawful W := by
  have hbare : (Logged.ledger : Ledger (Logged P)).Lawful W := Logged.ledger_lawful
  have hframed : (Datagram.ledger (Atomic.ledger (Logged.ledger (P := P)))).Lawful W :=
    Datagram.ledger_lawful (Atomic.ledger_lawful hbare Logged.ledger_plain)
      (Atomic.ledger_plain Logged.ledger_plain)
  constructor
  · rintro callback ⟨layers, top⟩ s' w w' result ⟨rfl | rfl, hv⟩ h
    · obtain ⟨top', hattach, rfl⟩ := rewrap_eq_ok h
      exact ledger_moved_bare (hbare.attach trivial hattach)
    · obtain ⟨top', hattach, rfl⟩ := rewrap_eq_ok h
      exact ledger_moved_framed (hframed.attach ⟨trivial, hv⟩ hattach)
  · rintro n ⟨layers, top⟩ s' w w' result ⟨rfl | rfl, hv⟩ h hm
    · obtain ⟨top', hrecv, rfl⟩ := rewrap_eq_ok h
      exact ledger_moved_bare (hbare.recv trivial hrecv hm)
    · obtain ⟨top', hrecv, rfl⟩ := rewrap_eq_ok h
      exact ledger_moved_framed (hframed.recv ⟨trivial, hv⟩ hrecv hm)
  · rintro data ⟨layers, top⟩ s' w w' result ⟨rfl | rfl, hv⟩ h hm
    · obtain ⟨top', hsend, rfl⟩ := rewrap_eq_ok h
      exact ledger_moved_bare (hbare.send trivial hsend hm)
    · obtain ⟨top', hsend, rfl⟩ := rewrap_eq_ok h
      exact ledger_moved_framed (hframed.send ⟨trivial, hv⟩ hsend hm)
  · rintro ⟨layers, top⟩ s' w w' result ⟨rfl | rfl, hv⟩ h
    · obtain ⟨top', hclose, rfl⟩ := rewrap_eq_ok h
      exact ledger_moved_bare (hbare.sendFin trivial hclose)
    · obtain ⟨top', hclose, rfl⟩ := rewrap_eq_ok h
      exact ledger_moved_framed (hframed.sendFin ⟨trivial, hv⟩ hclose)
  · rintro events ⟨layers, top⟩ s' w w' report ⟨rfl | rfl, hv⟩ h hb
    · obtain ⟨top', hreact, rfl⟩ := rewrap_eq_ok h
      exact ledger_moved_bare (hbare.react trivial hreact hb)
    · obtain ⟨top', hreact, rfl⟩ := rewrap_eq_ok h
      exact ledger_moved_framed (hframed.react ⟨trivial, hv⟩ hreact hb)

end Stack

end DuplexRelay
