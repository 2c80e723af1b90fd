import DuplexRelay.Proofs.Pipe.Ledger

/-! How the way out of a pipe comes to be closed, whatever the calls of it are answered. Only a
request that was granted closes it, and no layer has anything to send to a layer below that was
closed. -/

namespace DuplexRelay

/-- The pipe keeps its `shape`, and its way out is `closing` only by a request that was granted. A
send that is accepted shows that it is open. -/
structure Pipe.Disciplined {P C : Type} (W : Type) [Pipe P W C] (shape closing : P → Prop) :
    Prop where
  attached : ∀ {callback : C} {p p' : P} {w w' : W} {result}, shape p →
    Pipe.attach callback p w = .ok (result, p', w') → shape p' ∧ (closing p' → closing p)
  received : ∀ {n : Nat} {p p' : P} {w w' : W} {result}, shape p →
    Pipe.recv n p w = .ok (result, p', w') → shape p' ∧ (closing p' → closing p)
  sent : ∀ {data : Bytes} {p p' : P} {w w' : W} {result}, shape p →
    Pipe.send data p w = .ok (result, p', w') →
    shape p' ∧ (closing p' → closing p) ∧ ∀ n, result = .ok n → ¬closing p'
  closed : ∀ {p p' : P} {w w' : W} {result}, shape p →
    Pipe.sendFin p w = .ok (result, p', w') →
    shape p' ∧ (closing p' → closing p ∨ ∃ status, result = .ok status)
  reacted : ∀ {events : SocketEvents} {p p' : P} {w w' : W} {report}, shape p →
    Pipe.react events p w = .ok (report, p', w') → shape p' ∧ (closing p' → closing p)

def Tcp.Shut (p : Tcp) : Prop := p.bits.finSent = true

theorem Tcp.not_shut_of_new {p : Tcp} {fd : Fd} (h : p = .connecting fd ∨ p = .connected fd) :
    ¬p.Shut := by
  rcases h with rfl | rfl <;> exact Bool.false_ne_true

theorem Tcp.disciplined {N C : Type} [Sockets N] :
    Pipe.Disciplined (C := C) (Host N C) (fun _ : Tcp => True) Shut where
  attached _ h := by
    refine ⟨trivial, ?_⟩
    cases enrolled h <;> exact id
  received _ h := ⟨trivial, fun hc => (received_bits h).1.symm.trans hc⟩
  sent := by
    intro data p p' w w' result _ h
    have hsame : p'.bits.finSent = p.bits.finSent := (transmitted_bits h).1
    have hopen : p.bits.finSent = false := by
      cases transmitted h with
      | broken hf | taken hf | refused hf | failed hf => exact hf
    refine ⟨trivial, fun hc => hsame.symm.trans hc, fun _ _ hc => ?_⟩
    exact Bool.false_ne_true (hopen.symm.trans (hsame.symm.trans hc))
  closed _ h := ⟨trivial, (shutDown_bits h).2.2⟩
  reacted _ h := ⟨trivial, fun hc => (noticed_bits h).1.symm.trans hc⟩

namespace Atomic

variable {P W C : Type} [Pipe P W C] {shape closing : P → Prop}

/-- The way out is open below while there is something to be done with it. -/
structure Shaped (shape closing : P → Prop) (p : Atomic P) : Prop where
  inner : shape p.inner
  unclosed : p.queue ≠ none ∨ p.finWanted = true → ¬closing p.inner

def Shut (closing : P → Prop) (p : Atomic P) : Prop := p.finWanted = true ∨ closing p.inner

variable {p p' : Atomic P} {inner : P} {w w' : W} {events report : PipeEvents}

theorem Shaped.repiped (h : p.Shaped shape closing) (hs : shape inner)
    (hc : closing inner → closing p.inner) : ({ p with inner } : Atomic P).Shaped shape closing :=
  ⟨hs, fun hx hclosing => h.unclosed hx (hc hclosing)⟩

variable (h : Pipe.Disciplined W shape closing)
include h

theorem shaped_queueFlushed (hs : p.Shaped shape closing)
    (hq : QueueFlushed events p w report p' w') :
    p'.Shaped shape closing ∧ (p'.Shut closing → p.Shut closing) := by
  cases hq with
  | idle => exact ⟨hs, id⟩
  | refused hq hsend | part hq hsend | all hq hsend =>
    obtain ⟨hshape, hopen, _⟩ := h.sent hs.inner hsend
    have hunclosed := hs.unclosed (.inl (by simp [hq]))
    exact ⟨⟨hshape, fun _ hc => hunclosed (hopen hc)⟩, Or.imp_right hopen⟩

theorem shaped_finFlushed (hs : p.Shaped shape closing)
    (hf : FinFlushed events p w report p' w') :
    p'.Shaped shape closing ∧ (p'.Shut closing → p.Shut closing) := by
  cases hf with
  | skipped => exact ⟨hs, id⟩
  | closed hq hwanted hc =>
    refine ⟨⟨(h.closed hs.inner hc).1, ?_⟩, fun _ => .inl hwanted⟩
    rintro (hqueue | hfalse)
    · exact absurd hq hqueue
    · cases hfalse

theorem disciplined : Pipe.Disciplined W (Shaped shape closing) (Shut closing) where
  attached := by
    intro callback p p' w w' result hs hattach
    obtain ⟨⟨_, inner, _⟩, hattach, heq⟩ := Checked.bind_eq_ok_iff.mp hattach
    cases heq
    obtain ⟨hshape, hopen⟩ := h.attached hs.inner hattach
    exact ⟨hs.repiped hshape hopen, Or.imp_right hopen⟩
  received := by
    intro n p p' w w' result hs hrecv
    obtain ⟨⟨_, inner, _⟩, hrecv, heq⟩ := Checked.bind_eq_ok_iff.mp hrecv
    cases heq
    obtain ⟨hshape, hopen⟩ := h.received hs.inner hrecv
    exact ⟨hs.repiped hshape hopen, Or.imp_right hopen⟩
  sent := by
    intro data p p' w w' result hs hsend
    cases sentWhole hsend with
    | waiting => exact ⟨hs, id, nofun⟩
    | refused _ _ hsend =>
      obtain ⟨hshape, hopen, _⟩ := h.sent hs.inner hsend
      exact ⟨hs.repiped hshape hopen, Or.imp_right hopen, nofun⟩
    | all hf _ hsend | part hf _ hsend =>
      obtain ⟨hshape, hopen, haccepted⟩ := h.sent hs.inner hsend
      have hunclosed := haccepted _ rfl
      refine ⟨⟨hshape, fun _ => hunclosed⟩, Or.imp_right hopen, ?_⟩
      rintro _ _ (hwanted | hclosing)
      · exact Bool.false_ne_true (hf.symm.trans hwanted)
      · exact hunclosed hclosing
  closed := by
    intro p p' w w' result hs hclose
    cases closedBehind hclose with
    | waiting hf hq => exact ⟨⟨hs.inner, fun _ => hs.unclosed (.inl hq)⟩, fun _ => .inr ⟨_, rfl⟩⟩
    | passed hf hq hc =>
      obtain ⟨hshape, hopen⟩ := h.closed hs.inner hc
      refine ⟨⟨hshape, ?_⟩, ?_⟩
      · rintro (hqueue | hwanted)
        · exact absurd hq hqueue
        · exact absurd (hf.symm.trans hwanted) Bool.false_ne_true
      · rintro (hwanted | hclosing)
        · exact .inl (.inl hwanted)
        · exact (hopen hclosing).imp_left .inr
  reacted := by
    intro events p p' w w' report hs hreact
    cases reacted hreact with
    | passed hr =>
      obtain ⟨hshape, hopen⟩ := h.reacted hs.inner hr
      exact ⟨hs.repiped hshape hopen, Or.imp_right hopen⟩
    | flushing hr _ hq hf =>
      obtain ⟨hshape, hopen⟩ := h.reacted hs.inner hr
      obtain ⟨hs₁, hopen₁⟩ := shaped_queueFlushed h (hs.repiped hshape hopen) hq
      obtain ⟨hs', hopen'⟩ := shaped_finFlushed h hs₁ hf
      exact ⟨hs', fun hc => (hopen₁ (hopen' hc)).imp_right hopen⟩

end Atomic

namespace Datagram

variable {P W C : Type} [Pipe P W C] {shape closing : Atomic P → Prop}

theorem disciplined (h : Pipe.Disciplined W shape closing) :
    Pipe.Disciplined W (fun p : Datagram P => shape p.inner) fun p => closing p.inner where
  attached := by
    intro callback p p' w w' result hs hattach
    obtain ⟨⟨_, inner, _⟩, hattach, heq⟩ := Checked.bind_eq_ok_iff.mp hattach
    cases heq
    exact h.attached hs hattach
  received := by
    intro n p p' w w' result hs hrecv
    have hr := received hrecv
    change shape p.view.inner at hs
    change shape p'.view.inner ∧ (closing p'.view.inner → closing p.view.inner)
    generalize p'.view = v' at hr ⊢
    generalize p.view = v at hs hr ⊢
    cases hr with
    | broken | found | violated => exact ⟨hs, id⟩
    | refused _ _ _ hr | incomplete _ _ _ hr | completed _ _ _ hr | corrupted _ _ _ hr
    | ended _ _ _ hr | cut _ _ _ _ hr => exact h.received hs hr
  sent := by
    intro data p p' w w' result hs hsend
    cases sent hsend with
    | broken | excessive | waiting | unframed => exact ⟨hs, id, nofun⟩
    | @passed framed below inner _ _ _ _ _ hr =>
      obtain ⟨hshape, hopen, haccepted⟩ := h.sent hs hr
      refine ⟨hshape, hopen, fun n hn => ?_⟩
      cases below with
      | error e => cases hn
      | ok m => exact haccepted m rfl
  closed := by
    intro p p' w w' result hs hclose
    obtain ⟨_, _, rfl, rfl⟩ | ⟨_, inner, hc, rfl⟩ := closed hclose
    · exact ⟨hs, .inl⟩
    · exact h.closed hs hc
  reacted := by
    intro events p p' w w' report hs hreact
    obtain ⟨⟨_, inner, _⟩, hr, heq⟩ := Checked.bind_eq_ok_iff.mp hreact
    cases heq
    exact h.reacted hs hr

end Datagram

namespace Stacked

variable {B W C : Type} {closing : B → Prop}

/-- The way out of a stack was closed, or is to be. -/
def Shut (closing : B → Prop) : (layers : List Layer) → Stacked B layers → Prop
  | [], p => closing p
  | .atomic :: rest, p => Atomic.Shut (Shut closing rest) p
  | .datagram :: rest, p => Atomic.Shut (Shut closing rest) (Datagram.inner p)

/-- In no layer there is anything to be done with a way out that was closed. -/
def Shaped (closing : B → Prop) : (layers : List Layer) → Stacked B layers → Prop
  | [], _ => True
  | .atomic :: rest, p => Atomic.Shaped (Shaped closing rest) (Shut closing rest) p
  | .datagram :: rest, p =>
    Atomic.Shaped (Shaped closing rest) (Shut closing rest) (Datagram.inner p)

theorem disciplined [Pipe B W C] (h : Pipe.Disciplined W (fun _ : B => True) closing)
    (layers : List Layer) :
    let _ := pipe (B := B) (W := W) layers
    Pipe.Disciplined W (Shaped closing layers) (Shut closing layers) := by
  induction layers with
  | nil => exact h
  | cons layer rest ih =>
    let _ := pipe (B := B) (W := W) rest
    cases layer with
    | atomic => exact Atomic.disciplined ih
    | datagram => exact Datagram.disciplined (Atomic.disciplined ih)

end Stacked

namespace Stack

variable {B W C : Type} {closing : B → Prop}

/-- The way out of a stack was closed, or is to be. -/
def Shut (closing : B → Prop) (s : Stack B) : Prop := Stacked.Shut closing s.layers s.top

/-- Layers that are allowed, in none of which there is anything to be done with a way out that was
closed. -/
structure Shaped (allowed : List Layer → Prop) (closing : B → Prop) (s : Stack B) : Prop where
  layers : allowed s.layers
  top : Stacked.Shaped closing s.layers s.top

theorem disciplined [Pipe B W C] (h : Pipe.Disciplined W (fun _ : B => True) closing)
    (allowed : List Layer → Prop) :
    Pipe.Disciplined W (Shaped allowed closing) (Shut closing) := by
  let _ (layers : List Layer) : Pipe (Stacked B layers) W C := Stacked.pipe layers
  have hlayers := Stacked.disciplined h
  constructor
  · intro callback s s' w w' result hs hresult
    obtain ⟨top, hattach, rfl⟩ := rewrap_eq_ok hresult
    obtain ⟨hshape, hopen⟩ := (hlayers _).attached hs.top hattach
    exact ⟨⟨hs.layers, hshape⟩, hopen⟩
  · intro n s s' w w' result hs hresult
    obtain ⟨top, hrecv, rfl⟩ := rewrap_eq_ok hresult
    obtain ⟨hshape, hopen⟩ := (hlayers _).received hs.top hrecv
    exact ⟨⟨hs.layers, hshape⟩, hopen⟩
  · intro data s s' w w' result hs hresult
    obtain ⟨top, hsend, rfl⟩ := rewrap_eq_ok hresult
    obtain ⟨hshape, hopen⟩ := (hlayers _).sent hs.top hsend
    exact ⟨⟨hs.layers, hshape⟩, hopen⟩
  · intro s s' w w' result hs hresult
    obtain ⟨top, hclose, rfl⟩ := rewrap_eq_ok hresult
    obtain ⟨hshape, hopen⟩ := (hlayers _).closed hs.top hclose
    exact ⟨⟨hs.layers, hshape⟩, hopen⟩
  · intro events s s' w w' report hs hresult
    obtain ⟨top, hreact, rfl⟩ := rewrap_eq_ok hresult
    obtain ⟨hshape, hopen⟩ := (hlayers _).reacted hs.top hreact
    exact ⟨⟨hs.layers, hshape⟩, hopen⟩

end Stack

end DuplexRelay
