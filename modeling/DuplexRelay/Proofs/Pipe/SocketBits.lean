import DuplexRelay.Proofs.Pipe.ReadOut
import DuplexRelay.Proofs.Pipe.Uses

/-! The state bits of a pipe over a socket, through all calls. What is final in them stays, and
where the stream ended nothing is shown to be readable. -/

namespace DuplexRelay

namespace PipeState

/-- What is final in a state is still there in a later one. -/
structure Lasts (s s' : PipeState) : Prop where
  ready : s.ready = true → s'.ready = true
  broken : s.broken = true → s'.broken = true
  finSent : s.finSent = true → s'.finSent = true
  finRcvd : s.finRcvd = true → s'.finRcvd = true

/-- No direction is open that was closed or broke down. -/
structure Coherent (s : PipeState) : Prop where
  broken : s.broken = true → s.readable = false ∧ s.writable = false
  finSent : s.finSent = true → s.writable = false
  finRcvd : s.finRcvd = true → s.readable = false

theorem Lasts.refl (s : PipeState) : s.Lasts s := ⟨id, id, id, id⟩

theorem coherent_normalized {s : PipeState} (hs : s.finSent = true → s.isWritable = false)
    (hr : s.finRcvd = true → s.isReadable = false) : s.normalized.Coherent := by
  refine ⟨fun hb => ?_, hs, hr⟩
  have hb : s.broken = true := hb
  constructor
  · simp [normalized, isReadable, hb]
  · simp [normalized, isWritable, hb]

end PipeState

namespace Tcp

variable {N C : Type} {p p' : Tcp} {w w' : Host N C} {bits : PipeState} {net : N} {fd : Fd}
  {spent : N → Prop}

theorem Settled.lasts {s : PipeState} (hs : Settled bits p w p' w') (h : s.Lasts (state p))
    (hb : p.bits.Lasts bits) : s.Lasts (state p') := by
  rw [hs.pipe]
  exact ⟨hb.ready ∘ h.ready, hb.broken ∘ h.broken, hb.finSent ∘ h.finSent, hb.finRcvd ∘ h.finRcvd⟩

/-- The pipe is over the given socket, and where its stream ended nothing more is to be read. -/
structure Ended (fd : Fd) (spent : N → Prop) (p : Tcp) (net : N) : Prop where
  fd : p.fd = fd
  spent : p.bits.finRcvd = true → spent net
  dry : p.bits.finRcvd = true → p.bits.readable = false

theorem Settled.ended (hs : Settled bits p { w with net } p' w') (h : Ended fd spent p w.net)
    (ho : bits.finRcvd = true → spent net) (hd : bits.finRcvd = true → bits.readable = false) :
    Ended fd spent p' w'.net := by
  rw [hs.pipe, hs.net]
  exact ⟨h.fd, ho, hd⟩

theorem Ended.meanwhile {net' : N} (h : Ended fd spent p net) (hm : spent net → spent net') :
    Ended fd spent p net' := ⟨h.fd, hm ∘ h.spent, h.dry⟩

/-- A way out that was closed takes nothing. -/
def TakesNothing (p : Tcp) : Prop := p.bits.finSent = true → p.bits.writable = false

theorem coherent (hm : p.TakesNothing) (h : Ended fd spent p net) : (state p).Coherent := by
  apply PipeState.coherent_normalized
  · intro hs
    rw [PipeState.isWritable, hm hs, Bool.false_and]
  · intro hr
    rw [PipeState.isReadable, h.dry hr, Bool.false_and]

variable [Sockets N]

theorem lasts_kept (s : PipeState) :
    Pipe.Keeps fun (p : Tcp) (_ : Host N C) => s.Lasts (state p) where
  attach h hcall := by
    cases enrolled hcall with
    | refused | done => exact h
  recv h hcall := by
    cases received hcall with
    | broken | nothing => exact h
    | ended _ _ _ hs => exact hs.lasts h ⟨id, id, id, fun _ => rfl⟩
    | data _ _ _ _ hs | refused _ _ _ _ hs => exact hs.lasts h ⟨id, id, id, id⟩
    | failed _ _ _ _ hs => exact hs.lasts h ⟨id, fun _ => rfl, id, id⟩
  send h hcall := by
    cases transmitted hcall with
    | broken => exact h
    | taken _ _ _ hs | refused _ _ _ _ hs => exact hs.lasts h ⟨id, id, id, id⟩
    | failed _ _ _ _ hs => exact hs.lasts h ⟨id, fun _ => rfl, id, id⟩
  sendFin h hcall := by
    cases shutDown_outcome hcall with
    | broken => exact h
    | done _ _ _ hs => exact hs.lasts h ⟨id, id, fun _ => rfl, id⟩
    | failed _ _ _ hs => exact hs.lasts h ⟨id, fun _ => rfl, id, id⟩
  react h hcall := by
    cases noticed hcall with
    | broken | waiting => exact h
    | failed _ _ hs => exact hs.lasts h ⟨id, fun _ => rfl, id, id⟩
    | noted _ _ hs => exact hs.lasts h ⟨fun _ => rfl, id, id, id⟩
  reschedule h := h

theorem takesNothing_kept : Pipe.Keeps fun (p : Tcp) (_ : Host N C) => p.TakesNothing where
  attach h hcall := by
    cases enrolled hcall with
    | refused | done => exact h
  recv h hcall := by
    cases received hcall with
    | broken | nothing => exact h
    | ended _ _ _ hs | data _ _ _ _ hs | refused _ _ _ _ hs =>
      rw [hs.pipe]
      exact h
    | failed _ _ _ _ hs =>
      rw [hs.pipe]
      exact fun _ => rfl
  send _ hcall := by
    cases transmitted hcall with
    | broken hf =>
      intro hsent
      exact absurd (hf.symm.trans hsent) Bool.false_ne_true
    | taken hf _ _ hs | refused hf _ _ _ hs | failed hf _ _ _ hs =>
      rw [hs.pipe]
      intro hsent
      exact absurd (hf.symm.trans hsent) Bool.false_ne_true
  sendFin h hcall := by
    cases shutDown_outcome hcall with
    | broken => exact h
    | done _ _ _ hs | failed _ _ _ hs =>
      rw [hs.pipe]
      exact fun _ => rfl
  react {events p _ _ _ _} h hcall := by
    cases noticed hcall with
    | broken | waiting => exact h
    | failed _ _ hs =>
      rw [hs.pipe]
      exact fun _ => rfl
    | noted _ _ hs =>
      rw [hs.pipe]
      intro hsent
      have hsent : p.bits.finSent = true := hsent
      simp [noted, h hsent, hsent]
  reschedule h := h

theorem ended_kept (hover : Sockets.Final fd spent) :
    Pipe.Keeps fun (p : Tcp) (w : Host N C) => Ended fd spent p w.net where
  attach h hcall := by
    cases enrolled hcall with
    | refused | done => exact ⟨h.fd, h.spent, h.dry⟩
  recv h hcall := by
    cases received hcall with
    | broken | nothing => exact h
    | ended _ hn hr hs =>
      rw [h.fd] at hr
      exact hs.ended h (fun _ => hover.ended hn hr) fun _ => rfl
    | data _ _ hr hd hs =>
      rw [h.fd] at hr
      -- a stream that ended before has nothing left to yield
      have hopen (hf : _ = true) : False := hd (hover.silent (h.spent hf) hr)
      exact hs.ended h (fun hf => (hopen hf).elim) fun hf => (hopen hf).elim
    | refused _ _ hr _ hs | failed _ _ hr _ hs =>
      rw [h.fd] at hr
      exact hs.ended h (fun hf => hover.read (h.spent hf) hr) fun _ => rfl
  send h hcall := by
    cases transmitted hcall with
    | broken => exact h
    | taken _ _ hr hs | refused _ _ hr _ hs =>
      rw [h.fd] at hr
      exact hs.ended h (fun hf => hover.send (h.spent hf) hr) h.dry
    | failed _ _ hr _ hs =>
      rw [h.fd] at hr
      exact hs.ended h (fun hf => hover.send (h.spent hf) hr) fun _ => rfl
  sendFin h hcall := by
    cases shutDown_outcome hcall with
    | broken => exact h
    | done _ _ hr hs =>
      rw [h.fd] at hr
      exact hs.ended h (fun hf => hover.shutdown (h.spent hf) hr) h.dry
    | failed _ _ hr hs =>
      rw [h.fd] at hr
      exact hs.ended h (fun hf => hover.shutdown (h.spent hf) hr) fun _ => rfl
  react {events p _ w _ _} h hcall := by
    have hasked {net : N} (hn : ErrorTaken p.fd w.net net) (hf : p.bits.finRcvd = true) :
      spent net := by
      rcases hn with rfl | ⟨e, he⟩
      · exact h.spent hf
      · rw [h.fd] at he
        exact hover.takeError (h.spent hf) he
    cases noticed hcall with
    | broken | waiting => exact h
    | failed _ hn hs => exact hs.ended h (hasked hn) fun _ => rfl
    | noted _ hn hs =>
      refine hs.ended h (hasked hn) fun hf => ?_
      have hf : p.bits.finRcvd = true := hf
      simp [noted, h.dry hf, hf]
  reschedule {p w} h := by
    change Ended fd spent p (if p.attached then _ else w : Host N C).net
    split <;> exact h

theorem Ended.silent (hover : Sockets.Final fd spent) (h : Ended fd spent p w.net)
    (hf : p.bits.finRcvd = true) {n : Nat} {chunk : Bytes}
    (hcall : Pipe.recv n p w = .ok (.ok (.data chunk), p', w')) : chunk = [] := by
  generalize hresult : (Except.ok (.data chunk) : PipeResult Recv) = result at hcall
  cases received hcall with
  | nothing =>
    cases hresult
    rfl
  | data _ _ hr =>
    cases hresult
    rw [h.fd] at hr
    exact hover.silent (h.spent hf) hr
  | broken | ended | refused | failed => cases hresult

end Tcp

end DuplexRelay
