import DuplexRelay.Proofs.Bridge.Logged
import DuplexRelay.Proofs.Pipe.Below

/-! Pipes in the hands of any owner. The owner calls the operations of a pipe in any order, and the
world around the pipe may change before each call. What each single call keeps is kept by all of
them, and a pipe inside of another one that only watches it comes to the same. -/

namespace DuplexRelay

/-- A call of a pipe by its owner. -/
inductive PipeUse (C : Type) where
  | attach (callback : C)
  | recv (room : Nat)
  | send (data : Bytes)
  | sendFin
  | react (events : SocketEvents)
  | reschedule

/-- A call of a pipe, and what happened to the world before it. -/
structure PipeTurn (W C : Type) where
  meanwhile : W → W
  use : PipeUse C

namespace Pipe

variable {P Q W C : Type} [Pipe P W C] [Pipe Q W C]

/-- Calls a pipe, whatever the answer is. -/
def perform (p : P) (w : W) : PipeUse C → Checked (P × W)
  | .attach callback => (Pipe.attach callback p w).map Prod.snd
  | .recv room => (Pipe.recv room p w).map Prod.snd
  | .send data => (Pipe.send data p w).map Prod.snd
  | .sendFin => (Pipe.sendFin p w).map Prod.snd
  | .react events => (Pipe.react events p w).map Prod.snd
  | .reschedule => .ok (p, Pipe.rescheduleRead p w)

def useAll : List (PipeTurn W C) → P → W → Checked (P × W)
  | [], p, w => .ok (p, w)
  | turn :: rest, p, w => do
    let (p, w) ← perform p (turn.meanwhile w) turn.use
    useAll rest p w

theorem perform_erases {f : Q → P} (hf : Erases W f) (q : Q) (w : W) (use : PipeUse C) :
    perform (f q) w use = (perform q w use).map fun x => (f x.1, x.2) := by
  have hmap {α : Type} (x : Checked (α × Q × W)) :
      (x.map fun y => (y.1, f y.2.1, y.2.2)).map Prod.snd =
        (x.map Prod.snd).map fun y => (f y.1, y.2) := by
    cases x <;> rfl
  cases use with
  | attach callback => exact (congrArg _ (hf.attach callback q w)).trans (hmap _)
  | recv room => exact (congrArg _ (hf.recv room q w)).trans (hmap _)
  | send data => exact (congrArg _ (hf.send data q w)).trans (hmap _)
  | sendFin => exact (congrArg _ (hf.sendFin q w)).trans (hmap _)
  | react events => exact (congrArg _ (hf.react events q w)).trans (hmap _)
  | reschedule => exact congrArg (fun v => Except.ok (f q, v)) (hf.rescheduleRead q w)

/-- The calls of a pipe are those of the pipe around it. -/
theorem useAll_erases {f : Q → P} (hf : Erases W f) (turns : List (PipeTurn W C)) (q : Q) (w : W) :
    useAll turns (f q) w = (useAll turns q w).map fun x => (f x.1, x.2) := by
  induction turns generalizing q w with
  | nil => rfl
  | cons turn rest ih =>
    unfold useAll
    rw [perform_erases hf, Checked.bind_map, Checked.map_bind]
    exact bind_congr fun x => ih x.1 x.2

/-- A run of a pipe has a run of the pipe around it. -/
theorem useAll_of_erases {f : Q → P} (hf : Erases W f) {turns : List (PipeTurn W C)} {q : Q}
    {p' : P} {w w' : W} (h : useAll turns (f q) w = .ok (p', w')) :
    ∃ q', useAll turns q w = .ok (q', w') ∧ f q' = p' := by
  rw [useAll_erases hf] at h
  obtain ⟨⟨q', v⟩, hrun, heq⟩ := Checked.map_eq_ok_iff.mp h
  cases heq
  exact ⟨q', hrun, rfl⟩

/-- What is kept by each call, whatever it comes to. -/
structure Keeps (I : P → W → Prop) : Prop where
  attach : ∀ {callback : C} {p p' : P} {w w' : W} {result}, I p w →
    Pipe.attach callback p w = .ok (result, p', w') → I p' w'
  recv : ∀ {room : Nat} {p p' : P} {w w' : W} {result}, I p w →
    Pipe.recv room p w = .ok (result, p', w') → I p' w'
  send : ∀ {data : Bytes} {p p' : P} {w w' : W} {result}, I p w →
    Pipe.send data p w = .ok (result, p', w') → I p' w'
  sendFin : ∀ {p p' : P} {w w' : W} {result}, I p w →
    Pipe.sendFin p w = .ok (result, p', w') → I p' w'
  react : ∀ {events : SocketEvents} {p p' : P} {w w' : W} {report}, I p w →
    Pipe.react events p w = .ok (report, p', w') → I p' w'
  reschedule : ∀ {p : P} {w : W}, I p w → I p (Pipe.rescheduleRead p w)

variable {I : P → W → Prop}

theorem Keeps.perform {use : PipeUse C} {p p' : P} {w w' : W} (hI : Keeps I) (h : I p w)
    (hp : Pipe.perform p w use = .ok (p', w')) : I p' w' := by
  cases use with
  | attach callback =>
    obtain ⟨_, hcall⟩ := Checked.map_snd_eq_ok_iff.mp hp
    exact hI.attach h hcall
  | recv room =>
    obtain ⟨_, hcall⟩ := Checked.map_snd_eq_ok_iff.mp hp
    exact hI.recv h hcall
  | send data =>
    obtain ⟨_, hcall⟩ := Checked.map_snd_eq_ok_iff.mp hp
    exact hI.send h hcall
  | sendFin =>
    obtain ⟨_, hcall⟩ := Checked.map_snd_eq_ok_iff.mp hp
    exact hI.sendFin h hcall
  | react events =>
    obtain ⟨_, hcall⟩ := Checked.map_snd_eq_ok_iff.mp hp
    exact hI.react h hcall
  | reschedule =>
    cases hp
    exact hI.reschedule h

/-- Before each call the world changes in a way that `A` allows for the pipe as it is then. -/
def Accompanied (A : P → W → W → Prop) : List (PipeTurn W C) → P → W → Prop
  | [], _, _ => True
  | turn :: rest, p, w => A p w (turn.meanwhile w) ∧ ∀ p' w',
      Pipe.perform p (turn.meanwhile w) turn.use = .ok (p', w') → Accompanied A rest p' w'

variable {A B : P → W → W → Prop} {turns : List (PipeTurn W C)} {p p' : P} {w w' : W}

theorem accompanied_of_forall (h : ∀ turn ∈ turns, ∀ p w, A p w (turn.meanwhile w)) (p : P)
    (w : W) : Accompanied A turns p w := by
  induction turns generalizing p w with
  | nil => trivial
  | cons turn rest ih =>
    refine ⟨h turn List.mem_cons_self p w, fun p' w' _ => ?_⟩
    exact ih (fun turn hturn => h turn (List.mem_cons_of_mem _ hturn)) p' w'

theorem Accompanied.and (ha : Accompanied A turns p w) (hb : Accompanied B turns p w) :
    Accompanied (fun p w w' => A p w w' ∧ B p w w') turns p w := by
  induction turns generalizing p w with
  | nil => trivial
  | cons turn rest ih =>
    exact ⟨⟨ha.1, hb.1⟩, fun p' w' hcall => ih (ha.2 p' w' hcall) (hb.2 p' w' hcall)⟩

theorem Accompanied.mono (hab : ∀ {p w w'}, A p w w' → B p w w') (h : Accompanied A turns p w) :
    Accompanied B turns p w := by
  induction turns generalizing p w with
  | nil => trivial
  | cons turn rest ih => exact ⟨hab h.1, fun p' w' hcall => ih (h.2 p' w' hcall)⟩

/-- What each call keeps is kept by any number of them, if the world around does not spoil it. -/
theorem Keeps.useAll (hI : Keeps I) (hm : Accompanied (fun p w w' => I p w → I p w') turns p w)
    (h : I p w) (hrun : Pipe.useAll turns p w = .ok (p', w')) : I p' w' := by
  induction turns generalizing p w with
  | nil =>
    cases hrun
    exact h
  | cons turn rest ih =>
    obtain ⟨⟨p₁, w₁⟩, hcall, hrest⟩ := Checked.bind_eq_ok_iff.mp hrun
    exact ih (hm.2 p₁ w₁ hcall) (hI.perform (hm.1 h) hcall) hrest

/-- A run that comes to no result was stopped by one call. -/
theorem Keeps.stopped {v : Violation} (hI : Keeps I)
    (hm : Accompanied (fun p w w' => I p w → I p w') turns p w) (h : I p w)
    (hrun : Pipe.useAll turns p w = .error v) :
    ∃ p' w' use, I p' w' ∧ Pipe.perform p' w' use = .error v := by
  induction turns generalizing p w with
  | nil => cases hrun
  | cons turn rest ih =>
    unfold Pipe.useAll at hrun
    cases hcall : Pipe.perform p (turn.meanwhile w) turn.use with
    | error e =>
      rw [hcall] at hrun
      cases hrun
      exact ⟨p, turn.meanwhile w, turn.use, hm.1 h, hcall⟩
    | ok x =>
      rw [hcall] at hrun
      exact ih (hm.2 x.1 x.2 hcall) (hI.perform (hm.1 h) hcall) hrun

/-- What does not speak of the world is not spoilt by it. -/
theorem Keeps.useAll_forall {I : P → Prop} (hI : Keeps (fun (p : P) (_ : W) => I p)) (h : I p)
    (hrun : Pipe.useAll turns p w = .ok (p', w')) : I p' :=
  hI.useAll (accompanied_of_forall (fun _ _ _ _ h => h) _ _) h hrun

theorem Keeps.and {J : P → W → Prop} (hI : Keeps I) (hJ : Keeps J) :
    Keeps fun p w => I p w ∧ J p w where
  attach h hcall := ⟨hI.attach h.1 hcall, hJ.attach h.2 hcall⟩
  recv h hcall := ⟨hI.recv h.1 hcall, hJ.recv h.2 hcall⟩
  send h hcall := ⟨hI.send h.1 hcall, hJ.send h.2 hcall⟩
  sendFin h hcall := ⟨hI.sendFin h.1 hcall, hJ.sendFin h.2 hcall⟩
  react h hcall := ⟨hI.react h.1 hcall, hJ.react h.2 hcall⟩
  reschedule h := ⟨hI.reschedule h.1, hJ.reschedule h.2⟩

/-- What is kept by each call as the log has it. -/
structure KeepsNotes (J : Logged P → W → Prop) : Prop where
  attach : ∀ {callback : C} {l : Logged P} {p' : P} {w w' : W} {result}, J l w →
    Pipe.attach callback l.pipe w = .ok (result, p', w') → J (l.note (.attached result) p') w'
  recv : ∀ {room : Nat} {l : Logged P} {p' : P} {w w' : W} {result}, J l w →
    Pipe.recv room l.pipe w = .ok (result, p', w') → J (l.note (.received result) p') w'
  send : ∀ {data : Bytes} {l : Logged P} {p' : P} {w w' : W} {result}, J l w →
    Pipe.send data l.pipe w = .ok (result, p', w') → J (l.note (.sent data result) p') w'
  sendFin : ∀ {l : Logged P} {p' : P} {w w' : W} {result}, J l w →
    Pipe.sendFin l.pipe w = .ok (result, p', w') → J (l.note (.closed result) p') w'
  react : ∀ {events : SocketEvents} {l : Logged P} {p' : P} {w w' : W} {report}, J l w →
    Pipe.react events l.pipe w = .ok (report, p', w') → J (l.note (.noticed report) p') w'
  reschedule : ∀ {l : Logged P} {w : W}, J l w → J l (Pipe.rescheduleRead l.pipe w)

theorem KeepsNotes.kept {J : Logged P → W → Prop} (h : KeepsNotes J) : Keeps J where
  attach hj hcall := by
    obtain ⟨_, hattach, heq⟩ := Checked.map_eq_ok_iff.mp hcall
    cases heq
    exact h.attach hj hattach
  recv hj hcall := by
    obtain ⟨_, hrecv, heq⟩ := Checked.map_eq_ok_iff.mp hcall
    cases heq
    exact h.recv hj hrecv
  send hj hcall := by
    obtain ⟨_, hsend, heq⟩ := Checked.map_eq_ok_iff.mp hcall
    cases heq
    exact h.send hj hsend
  sendFin hj hcall := by
    obtain ⟨_, hclose, heq⟩ := Checked.map_eq_ok_iff.mp hcall
    cases heq
    exact h.sendFin hj hclose
  react hj hcall := by
    obtain ⟨_, hreact, heq⟩ := Checked.map_eq_ok_iff.mp hcall
    cases heq
    exact h.react hj hreact
  reschedule := h.reschedule

theorem chained_kept : Chained fun p w p' w' => I p w → I p' w' where
  refl _ _ := id
  trans h h' := h' ∘ h

theorem Keeps.below (hI : Keeps I) :
    Below (id : P → P) fun p w p' w' => I p w → I p' w' where
  recv hcall h := hI.recv h hcall
  send hcall h := hI.send h hcall
  sendFin hcall h := hI.sendFin h hcall
  react hcall h := hI.react h hcall
  reschedule _ _ h := hI.reschedule h

/-- The calls of an atomic pipe keep what those of the pipe below keep. -/
theorem Keeps.atomic (hI : Keeps I) : Keeps fun (p : Atomic P) w => I p.inner w where
  attach h hcall := by
    obtain ⟨⟨_, inner, _⟩, hattach, heq⟩ := Checked.bind_eq_ok_iff.mp hcall
    cases heq
    exact hI.attach h hattach
  recv h hcall := (Atomic.below chained_kept hI.below).recv hcall h
  send h hcall := (Atomic.below chained_kept hI.below).send hcall h
  sendFin h hcall := (Atomic.below chained_kept hI.below).sendFin hcall h
  react h hcall := (Atomic.below chained_kept hI.below).react hcall h
  reschedule h := hI.reschedule h

/-- The calls of a datagram pipe keep what those of the atomic pipe below keep. -/
theorem Keeps.datagram {I : Atomic P → W → Prop} (hI : Keeps I) :
    Keeps fun (p : Datagram P) w => I p.inner w where
  attach h hcall := by
    obtain ⟨⟨_, inner, _⟩, hattach, heq⟩ := Checked.bind_eq_ok_iff.mp hcall
    cases heq
    exact hI.attach h hattach
  recv h hcall := (Datagram.below chained_kept hI.below).recv hcall h
  send h hcall := (Datagram.below chained_kept hI.below).send hcall h
  sendFin h hcall := (Datagram.below chained_kept hI.below).sendFin hcall h
  react h hcall := (Datagram.below chained_kept hI.below).react hcall h
  reschedule h := hI.reschedule h

end Pipe

end DuplexRelay
