import DuplexRelay.Pipe.Stack
import DuplexRelay.Proofs.Bridge.Recorded
import DuplexRelay.Proofs.Pipe.Atomic
import DuplexRelay.Proofs.Pipe.Datagram

/-! Whatever the layers of a pipe do, they do it by operations of the pipe at the bottom. So a
relation that holds over each of those, and over sequences of them, holds over the operations of the
whole pipe. -/

namespace DuplexRelay

variable {B W C : Type}

/-- A relation between states that holds over sequences of what it holds over. -/
structure Chained (T : B → W → B → W → Prop) : Prop where
  refl : ∀ p w, T p w p w
  trans : ∀ {p p₁ p' w w₁ w'}, T p w p₁ w₁ → T p₁ w₁ p' w' → T p w p' w'

/-- A relation that holds of the pipe at the bottom over every operation that comes to a result. -/
structure Pipe.Below {P : Type} [Pipe P W C] (base : P → B) (T : B → W → B → W → Prop) :
    Prop where
  recv : ∀ {n : Nat} {p p' : P} {w w' : W} {result},
    Pipe.recv n p w = .ok (result, p', w') → T (base p) w (base p') w'
  send : ∀ {data : Bytes} {p p' : P} {w w' : W} {result},
    Pipe.send data p w = .ok (result, p', w') → T (base p) w (base p') w'
  sendFin : ∀ {p p' : P} {w w' : W} {result},
    Pipe.sendFin p w = .ok (result, p', w') → T (base p) w (base p') w'
  react : ∀ {events : SocketEvents} {p p' : P} {w w' : W} {report},
    Pipe.react events p w = .ok (report, p', w') → T (base p) w (base p') w'
  reschedule : ∀ (p : P) (w : W), T (base p) w (base p) (Pipe.rescheduleRead p w)

variable {P : Type} [Pipe P W C] {base : P → B} {T : B → W → B → W → Prop}

theorem Atomic.below (hT : Chained T) (h : Pipe.Below base T) :
    Pipe.Below (fun p : Atomic P => base p.inner) T where
  recv := by
    intro n p p' w w' result hrecv
    obtain ⟨⟨_, inner, _⟩, hrecv, heq⟩ := Checked.bind_eq_ok_iff.mp hrecv
    cases heq
    exact h.recv hrecv
  send := by
    intro data p p' w w' result hsend
    cases sentWhole hsend with
    | waiting => exact hT.refl _ _
    | refused _ _ hs | all _ _ hs | part _ _ hs => exact h.send hs
  sendFin := by
    intro p p' w w' result hclose
    cases closedBehind hclose with
    | waiting => exact hT.refl _ _
    | passed _ _ hc => exact h.sendFin hc
  react := by
    intro events p p' w w' report hreact
    cases reacted hreact with
    | passed hr => exact h.react hr
    | @flushing _ _ _ inner p₁ _ w₁ w₂ _ hr _ hq hf =>
      have hqueue : T (base inner) w₁ (base p₁.inner) w₂ := by
        cases hq with
        | idle => exact hT.refl _ _
        | refused _ hs | part _ hs | all _ hs => exact h.send hs
      refine hT.trans (h.react hr) (hT.trans hqueue ?_)
      cases hf with
      | skipped => exact hT.refl _ _
      | closed _ _ hc => exact h.sendFin hc
  reschedule p w := h.reschedule p.inner w

/-- A receive that goes to the pipe below is the only thing that happens to it. -/
theorem Datagram.below_received {v v' : View P} {w w' : W} {room : Nat}
    {result : PipeResult Recv} {base : Atomic P → B} (hT : Chained T)
    (h : Pipe.Below base T) (hr : Received room v w result v' w') :
    T (base v.inner) w (base v'.inner) w' := by
  cases hr with
  | broken | found | violated => exact hT.refl _ _
  | refused _ _ _ hr | incomplete _ _ _ hr | completed _ _ _ hr | corrupted _ _ _ hr
  | ended _ _ _ hr | cut _ _ _ _ hr => exact h.recv hr

theorem Datagram.below {base : Atomic P → B} (hT : Chained T) (h : Pipe.Below base T) :
    Pipe.Below (fun p : Datagram P => base p.inner) T where
  recv := by
    intro n p p' w w' result hrecv
    exact below_received hT h (received hrecv)
  send := by
    intro data p p' w w' result hsend
    cases sent hsend with
    | broken | excessive | waiting | unframed => exact hT.refl _ _
    | passed _ _ _ _ hr => exact h.send hr
  sendFin := by
    intro p p' w w' result hclose
    obtain ⟨_, _, rfl, rfl⟩ | ⟨_, inner, hc, rfl⟩ := closed hclose
    · exact hT.refl _ _
    · exact h.sendFin hc
  react := by
    intro events p p' w w' report hreact
    obtain ⟨⟨_, inner, _⟩, hr, heq⟩ := Checked.bind_eq_ok_iff.mp hreact
    cases heq
    exact h.react hr
  reschedule p w := h.reschedule p.inner w

theorem Stacked.below [Pipe B W C] (hT : Chained T) (h : Pipe.Below (id : B → B) T)
    (layers : List Layer) :
    let _ := pipe (B := B) (W := W) layers
    Pipe.Below (Stacked.base layers) T := by
  induction layers with
  | nil => exact h
  | cons layer rest ih =>
    let _ := pipe (B := B) (W := W) rest
    cases layer with
    | atomic => exact Atomic.below hT ih
    | datagram => exact Datagram.below hT (Atomic.below hT ih)

theorem Stack.rewrap_eq_ok {α : Type} {layers : List Layer}
    {result : Checked (α × Stacked B layers × W)} {a : α} {s : Stack B} {w : W}
    (h : rewrap layers result = .ok (a, s, w)) :
    ∃ top, result = .ok (a, top, w) ∧ s = ⟨layers, top⟩ := by
  obtain ⟨⟨a, top, w⟩, hresult, h⟩ := Checked.bind_eq_ok_iff.mp h
  cases h
  exact ⟨top, hresult, rfl⟩

theorem Stack.below [Pipe B W C] (hT : Chained T) (h : Pipe.Below (id : B → B) T) :
    Pipe.Below (Stack.base : Stack B → B) T := by
  let _ (layers : List Layer) : Pipe (Stacked B layers) W C := Stacked.pipe layers
  have hlayers := Stacked.below hT h
  refine ⟨?_, ?_, ?_, ?_, fun s w => (hlayers s.layers).reschedule s.top w⟩
  · intro n s s' w w' result hresult
    obtain ⟨top, hrecv, rfl⟩ := rewrap_eq_ok hresult
    exact (hlayers _).recv hrecv
  · intro data s s' w w' result hresult
    obtain ⟨top, hsend, rfl⟩ := rewrap_eq_ok hresult
    exact (hlayers _).send hsend
  · intro s s' w w' result hresult
    obtain ⟨top, hclose, rfl⟩ := rewrap_eq_ok hresult
    exact (hlayers _).sendFin hclose
  · intro events s s' w w' report hresult
    obtain ⟨top, hreact, rfl⟩ := rewrap_eq_ok hresult
    exact (hlayers _).react hreact

theorem Recorded.below {P B W C : Type} [Pipe P W C] {base : P → B} {T : B → W → B → W → Prop}
    (h : Pipe.Below base T) : Pipe.Below (fun r : Recorded P => base r.pipe) T where
  recv hr := by
    obtain ⟨pipe, hrecv, rfl⟩ := recv_eq_ok hr
    rw [noteRecv_pipe]
    exact h.recv hrecv
  send hs := by
    obtain ⟨pipe, hsend, rfl⟩ := send_eq_ok hs
    rw [noteSend_pipe]
    exact h.send hsend
  sendFin hc := by
    obtain ⟨pipe, hclose, rfl⟩ := sendFin_eq_ok hc
    exact h.sendFin hclose
  react hr := by
    obtain ⟨pipe, hreact, rfl⟩ := react_eq_ok hr
    exact h.react hreact
  reschedule r w := h.reschedule r.pipe w

end DuplexRelay
