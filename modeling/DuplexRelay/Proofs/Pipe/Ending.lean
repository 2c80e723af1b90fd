import DuplexRelay.Proofs.Pipe.StackOutlook

/-! How the end of a stream goes through a pipe, whatever its layers. The end of what comes in is
told to the owner only when no layer holds back anything that came before it, and where the pipe is
writable the way out is closed at once. -/

namespace DuplexRelay

open Outlook (LeavesUsable)

/-- What a pipe with a record `rest` of what it holds back does with the ends of its streams. -/
structure Pipe.Concludes {P W C : Type} [Pipe P W C] (rest : P → Bytes) : Prop where
  recv : ∀ {n : Nat} {p p' : P} {w w' : W},
    Pipe.recv n p w = .ok (.ok .fin, p', w') → (state p').finRcvd = true ∧ rest p' = []
  send : ∀ {data : Bytes} {p p' : P} {w w' : W} {result},
    Pipe.send data p w = .ok (result, p', w') → LeavesUsable result → rest p' = rest p
  sendFin : ∀ {p p' : P} {w w' : W} {result},
    Pipe.sendFin p w = .ok (result, p', w') → rest p' = rest p
  react : ∀ {events : SocketEvents} {p p' : P} {w w' : W} {report}, (state p).broken = false →
    Pipe.react events p w = .ok (report, p', w') → report.broken = false → rest p' = rest p
  shut : ∀ {p p' : P} {w w' : W} {status}, (state p).isWritable = true →
    Pipe.sendFin p w = .ok (.ok status, p', w') → (state p').finSent = true

theorem Tcp.concludes {N C : Type} [Sockets N] :
    Pipe.Concludes (W := Host N C) (fun _ : Tcp => []) where
  recv := by
    intro n p p' w w' h
    generalize hresult : (Except.ok .fin : PipeResult Recv) = result at h
    cases Tcp.received h with
    | ended _ _ _ hs =>
      refine ⟨?_, rfl⟩
      change p'.bits.finRcvd = true
      rw [hs.pipe]
    | broken | nothing | data | refused | failed => cases hresult
  send _ _ := rfl
  sendFin _ := rfl
  react _ _ _ := rfl
  shut := by
    intro p p' w w' status _ h
    generalize hresult : (Except.ok status : PipeResult FinStatus) = result at h
    cases Tcp.shutDown_outcome h with
    | done _ _ _ hs =>
      change p'.bits.finSent = true
      rw [hs.pipe]
    | broken | failed => cases hresult

namespace Atomic

variable {P W C : Type} [Pipe P W C] {rest : P → Bytes}

theorem concludes (h : Pipe.Concludes (W := W) rest) :
    Pipe.Concludes (W := W) (fun p : Atomic P => rest p.inner) where
  recv := by
    intro n p p' w w' hrecv
    obtain ⟨⟨_, inner, _⟩, hinner, heq⟩ := Checked.bind_eq_ok_iff.mp hrecv
    cases heq
    rw [state_finRcvd]
    exact h.recv hinner
  send := by
    intro data p p' w w' result hsend hm
    cases sentWhole hsend with
    | waiting => rfl
    | refused _ _ hs => exact h.send hs hm
    | all _ _ hs => exact h.send hs nofun
    | part _ _ hs => exact h.send hs nofun
  sendFin := by
    intro p p' w w' result hclose
    cases closedBehind hclose with
    | waiting => rfl
    | passed _ _ hc => exact h.sendFin hc
  react := by
    intro events p p' w w' report hp hreact hb
    rw [state_broken] at hp
    cases reacted hreact with
    | passed hr => exact h.react hp hr hb
    | @flushing report₀ report₁ _ inner p₁ _ w₁ w₂ _ hr _ hq hf =>
      have hb₁ : report₁.broken = false := by
        cases hf with
        | skipped => exact hb
        | @closed result => rcases result with e | (_ | _) <;> simp_all [closingReport]
      -- what the pipe below keeps back is not touched by the flush and the closing behind it
      have hclosed : rest p'.inner = rest p₁.inner := by
        cases hf with
        | skipped => rfl
        | closed _ _ hc => exact h.sendFin hc
      have hflushed : rest p₁.inner = rest inner ∧ report₀.broken = false := by
        cases hq with
        | idle => exact ⟨rfl, hb₁⟩
        | refused _ hs =>
          simp only [Bool.or_eq_false_iff] at hb₁
          refine ⟨h.send hs ?_, hb₁.1⟩
          rintro _ ⟨⟩
          exact hb₁.2
        | part _ hs => exact ⟨h.send hs nofun, hb₁⟩
        | all _ hs => exact ⟨h.send hs nofun, hb₁⟩
      rw [hclosed, hflushed.1]
      exact h.react hp hr hflushed.2
  shut := by
    intro p p' w w' status hw hclose
    have hempty := queue_of_isWritable hw
    rw [state_isWritable hempty] at hw
    generalize hresult : (Except.ok status : PipeResult FinStatus) = result at hclose
    cases closedBehind hclose with
    | waiting _ hq => exact absurd hempty hq
    | passed _ _ hc =>
      subst hresult
      rw [state_finSent]
      exact h.shut hw hc

end Atomic

namespace Datagram

variable {P W C : Type} [Pipe P W C] {rest : Atomic P → Bytes}

theorem isWritable_inner {p : Datagram P} (h : (state p).isWritable = true) :
    (state p.inner).isWritable = true := by
  rw [state_eq] at h
  simp only [View.shown, PipeState.normalized, PipeState.isWritable, Bool.and_eq_true,
    Bool.not_eq_true', Bool.or_eq_false_iff] at h
  simp only [PipeState.isWritable, Bool.and_eq_true, Bool.not_eq_true']
  exact ⟨h.1.1, h.2.1⟩

theorem concludes (h : Pipe.Concludes (W := W) rest) :
    Pipe.Concludes (W := W) (fun p : Datagram P => rest p.inner ++ p.assembled) where
  recv := by
    intro n p p' w w' hrecv
    have houtcome := received hrecv
    have hinner : p'.view.inner = p'.inner := rfl
    have hassembled : p'.view.assembled = p'.assembled := rfl
    have hshown : (state p').finRcvd = (state p'.inner).finRcvd := rfl
    rw [hshown, ← hinner, ← hassembled]
    generalize hresult : (Except.ok .fin : PipeResult Recv) = result at houtcome
    generalize p'.view = v' at houtcome
    cases houtcome with
    | ended _ _ ha hr =>
      obtain ⟨hfin, hrest⟩ := h.recv hr
      have hempty : p.view.assembled = [] := ha
      exact ⟨hfin, by rw [hrest, hempty, List.append_nil]⟩
    | refused =>
      cases hresult
    | broken | found | violated | incomplete | completed | corrupted | cut => cases hresult
  send := by
    intro data p p' w w' result hsend hm
    generalize hanswer : result = answer at hsend
    cases sent hsend with
    | broken => cases hm _ hanswer
    | excessive => cases hm _ hanswer
    | unframed => cases hm _ hanswer
    | waiting => rfl
    | @passed framed below inner _ _ _ _ _ hs =>
      have hmild : LeavesUsable below := by
        rintro e rfl
        exact hm e hanswer
      exact congrArg (· ++ p.assembled) (h.send hs hmild)
  sendFin := by
    intro p p' w w' result hclose
    rcases closed hclose with ⟨_, _, rfl, _⟩ | ⟨_, inner, hc, rfl⟩
    · rfl
    · exact congrArg (· ++ p.assembled) (h.sendFin hc)
  react := by
    intro events p p' w w' report hp hreact hb
    obtain ⟨⟨below, inner, _⟩, hr, heq⟩ := Checked.bind_eq_ok_iff.mp hreact
    cases heq
    have hintact : (state p.inner).broken = false ∧ p.broken = false :=
      Bool.or_eq_false_iff.mp hp
    rw [hintact.2, if_neg Bool.false_ne_true] at hb
    exact congrArg (· ++ p.assembled) (h.react hintact.1 hr hb)
  shut := by
    intro p p' w w' status hw hclose
    rcases closed hclose with ⟨_, hresult, _⟩ | ⟨_, inner, hc, rfl⟩
    · cases hresult
    · exact h.shut (isWritable_inner hw) hc

end Datagram

namespace Stacked

variable {B W C : Type}

/-- What the layers of a stack received and did not return yet. -/
def rest : (layers : List Layer) → Stacked B layers → Bytes
  | [], _ => []
  | .atomic :: layers, p => rest layers (Atomic.inner p)
  | .datagram :: layers, p => rest layers (Datagram.inner p).inner ++ Datagram.assembled p

theorem concludes [Pipe B W C] (h : Pipe.Concludes (W := W) (fun _ : B => []))
    (layers : List Layer) :
    let _ := shownPipe (B := B) (W := W) layers
    Pipe.Concludes (W := W) (rest (B := B) layers) := by
  have hpipe : let _ := pipe (B := B) (W := W) layers
      Pipe.Concludes (W := W) (rest (B := B) layers) := by
    induction layers with
    | nil => exact h
    | cons layer layers ih =>
      let _ := pipe (B := B) (W := W) layers
      cases layer with
      | atomic => exact Atomic.concludes ih
      | datagram => exact Datagram.concludes (Atomic.concludes ih)
  have hsame : shownPipe (B := B) (W := W) layers = pipe layers := by
    unfold shownPipe
    rw [← pipe_hasPipeState (B := B) (W := W) layers]
  rw [hsame]
  exact hpipe

end Stacked

namespace Stack

variable {B W C : Type}

def rest (s : Stack B) : Bytes := Stacked.rest s.layers s.top

theorem concludes [Pipe B W C] (h : Pipe.Concludes (W := W) (fun _ : B => [])) :
    Pipe.Concludes (W := W) (rest : Stack B → Bytes) := by
  let _ (layers : List Layer) : Pipe (Stacked B layers) W C := Stacked.shownPipe layers
  have hlayers (layers : List Layer) :
      Pipe.Concludes (W := W) (Stacked.rest (B := B) layers) := Stacked.concludes h layers
  constructor
  · intro n s s' w w' hresult
    obtain ⟨top, hrecv, rfl⟩ := rewrap_eq_ok hresult
    exact (hlayers _).recv hrecv
  · intro data s s' w w' result hresult hm
    obtain ⟨top, hsend, rfl⟩ := rewrap_eq_ok hresult
    exact (hlayers _).send hsend hm
  · intro s s' w w' result hresult
    obtain ⟨top, hclose, rfl⟩ := rewrap_eq_ok hresult
    exact (hlayers _).sendFin hclose
  · intro events s s' w w' report hp hresult hb
    obtain ⟨top, hreact, rfl⟩ := rewrap_eq_ok hresult
    exact (hlayers _).react hp hreact hb
  · intro s s' w w' status hw hresult
    obtain ⟨top, hclose, rfl⟩ := rewrap_eq_ok hresult
    exact (hlayers _).shut hw hclose

end Stack

end DuplexRelay
