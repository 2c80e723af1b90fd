import DuplexRelay.Proofs.Pipe.Reporting
import DuplexRelay.Proofs.Pipe.StateBits

/-! What becomes of the way out after a request to close it was granted. Socket pipes and atomic
pipes are not to be used so any more, and stop the run. A datagram pipe asks whether the pipe below
is writable before anything else, so it tells its owner to wait, but does not close the way out
twice. -/

namespace DuplexRelay

open Pipe (useAll)

/-- A request to close the way out that was granted. -/
def PipeCall.grantsFin : PipeCall → Bool
  | closed (.ok _) => true
  | _ => false

/-- A request to close the way out was granted. -/
def Logged.FinGranted {P : Type} (l : Logged P) : Prop := ∃ call ∈ l.calls, call.grantsFin = true

instance {P : Type} (l : Logged P) : Decidable l.FinGranted :=
  inferInstanceAs (Decidable (∃ call ∈ l.calls, call.grantsFin = true))

/-- Once a request to close the way out came to a result, its end is `settled`, and so it stays. -/
structure Pipe.Settles {P C : Type} (W : Type) [Pipe P W C] (settled : P → Prop) : Prop where
  kept : Pipe.Keeps fun (p : P) (_ : W) => settled p
  closed : ∀ {p p' : P} {w w' : W} {result}, Pipe.sendFin p w = .ok (result, p', w') → settled p'

theorem Logged.run {P W C : Type} [Pipe P W C] {p : P} {l : Logged P} {w w' : W}
    {turns : List (PipeTurn W C)} (h : useAll turns (.fresh p) w = .ok (l, w')) :
    useAll turns p w = .ok (l.pipe, w') := by
  have herased := Pipe.useAll_erases Logged.erases turns (.fresh p) w
  rw [h] at herased
  exact herased

namespace Pipe.Settles

variable {P W C : Type} [Pipe P W C] {settled : P → Prop} {l : Logged P} {p' : P}
  {call : PipeCall}

omit [Pipe P W C] in
theorem noted (h : l.FinGranted → settled l.pipe) (hkept : settled l.pipe → settled p')
    (hcall : call.grantsFin = true → settled p') :
    (l.note call p').FinGranted → settled p' := by
  rintro ⟨granted, hmem, hgrants⟩
  rcases List.mem_append.mp hmem with hbefore | hnow
  · exact hkept (h ⟨granted, hbefore, hgrants⟩)
  · rw [List.mem_singleton.mp hnow] at hgrants
    exact hcall hgrants

theorem granted_kept (hs : Settles W settled) :
    KeepsNotes fun (l : Logged P) (_ : W) => l.FinGranted → settled l.pipe where
  attach h hcall := noted h (fun hold => hs.kept.attach hold hcall) nofun
  recv h hcall := noted h (fun hold => hs.kept.recv hold hcall) nofun
  send h hcall := noted h (fun hold => hs.kept.send hold hcall) nofun
  sendFin _ hcall _ := hs.closed hcall
  react h hcall := noted h (fun hold => hs.kept.react hold hcall) nofun
  reschedule h := h

theorem of_granted (hs : Settles W settled) {start : P} {turns : List (PipeTurn W C)} {w w' : W}
    (hrun : useAll turns (.fresh start) w = .ok (l, w')) (hg : l.FinGranted) :
    settled l.pipe := by
  have hstart : (Logged.fresh start).FinGranted → settled start := by
    rintro ⟨_, hmem, _⟩
    cases hmem
  exact hs.granted_kept.kept.useAll_forall hstart hrun hg

end Pipe.Settles

/-- Neither sends nor requests to close the way out come to a result. -/
structure Pipe.Ceased {P C : Type} (W : Type) [Pipe P W C] (p : P) (sends closes : Violation) :
    Prop where
  send : ∀ (data : Bytes) (w : W), Pipe.send data p w = .error sends
  sendFin : ∀ w : W, Pipe.sendFin p w = .error closes

namespace Tcp

def Done (p : Tcp) : Prop := p.bits.finSent = true ∨ p.bits.broken = true

variable {N C : Type} [Sockets N]

theorem settles : Pipe.Settles (C := C) (Host N C) Done where
  kept := by
    have hlasts {p p' : Tcp} (h : (state p).Lasts (state p')) : p.Done → p'.Done :=
      Or.imp h.finSent h.broken
    constructor
    · exact fun h hcall => hlasts ((lasts_kept _).attach (.refl _) hcall) h
    · exact fun h hcall => hlasts ((lasts_kept _).recv (.refl _) hcall) h
    · exact fun h hcall => hlasts ((lasts_kept _).send (.refl _) hcall) h
    · exact fun h hcall => hlasts ((lasts_kept _).sendFin (.refl _) hcall) h
    · exact fun h hcall => hlasts ((lasts_kept _).react (.refl _) hcall) h
    · exact id
  closed hcall := by
    cases shutDown_outcome hcall with
    | broken _ hb => exact .inr hb
    | done _ _ _ hs =>
      rw [hs.pipe]
      exact .inl rfl
    | failed _ _ _ hs =>
      rw [hs.pipe]
      exact .inr rfl

theorem ceased {p : Tcp} (h : p.bits.finSent = true) :
    Pipe.Ceased (C := C) (Host N C) p (.tcpSendAfterFin p.fd) (.tcpFinTwice p.fd) where
  send data w := by simp [Pipe.send, transmit, h]
  sendFin w := by simp [Pipe.sendFin, shutDown, h]

end Tcp

namespace Atomic

variable {P W C : Type} [Pipe P W C] {settled : P → Prop}

/-- The way out is to be closed behind the queue, or its end is settled below. -/
def Done (settled : P → Prop) (p : Atomic P) : Prop := p.finWanted = true ∨ settled p.inner

theorem settles (h : Pipe.Settles W settled) : Pipe.Settles W (Done settled) where
  kept := by
    constructor
    · intro callback p p' w w' result hdone hcall
      obtain ⟨⟨_, inner, _⟩, hattach, heq⟩ := Checked.bind_eq_ok_iff.mp hcall
      cases heq
      exact hdone.imp_right fun hold => h.kept.attach hold hattach
    · intro n p p' w w' result hdone hcall
      obtain ⟨⟨_, inner, _⟩, hrecv, heq⟩ := Checked.bind_eq_ok_iff.mp hcall
      cases heq
      exact hdone.imp_right fun hold => h.kept.recv hold hrecv
    · intro data p p' w w' result hdone hcall
      cases sentWhole hcall with
      | waiting => exact hdone
      | refused _ _ hs | all _ _ hs | part _ _ hs =>
        exact hdone.imp_right fun hold => h.kept.send hold hs
    · intro p p' w w' result hdone hcall
      cases closedBehind hcall with
      | waiting => exact .inl rfl
      | passed _ _ hc => exact .inr (h.closed hc)
    · intro events p p' w w' report hdone hcall
      cases reacted hcall with
      | passed hr => exact hdone.imp_right fun hold => h.kept.react hold hr
      | @flushing _ _ _ inner p₁ _ w₁ w₂ _ hr _ hq hf =>
        have hnoticed : Done settled { p with inner } :=
          hdone.imp_right fun hold => h.kept.react hold hr
        have hflushed : Done settled p₁ := by
          cases hq with
          | idle => exact hnoticed
          | refused _ hs | part _ hs | all _ hs =>
            exact hnoticed.imp_right fun hold => h.kept.send hold hs
        -- the closing behind the queue is not wanted any more, whatever it came to
        cases hf with
        | skipped => exact hflushed
        | closed _ _ hc => exact .inr (h.closed hc)
    · exact id
  closed hcall := by
    cases closedBehind hcall with
    | waiting => exact .inl rfl
    | passed _ _ hc => exact .inr (h.closed hc)

/-- An atomic pipe has an eye on closings that it put off. What was closed below is left to the pipe
below, and nothing is queued then. -/
theorem ceased {p : Atomic P} {sends closes : Violation}
    (h : p.finWanted = false → p.queue = none ∧ Pipe.Ceased W p.inner sends closes) :
    Pipe.Ceased W p (if p.finWanted then .atomicSendAfterFin else sends)
      (if p.finWanted then .atomicFinTwice else closes) where
  send data w := by
    change sendWhole data p w = _
    cases hf : p.finWanted with
    | true => simp [sendWhole, hf]
    | false =>
      obtain ⟨hq, hbelow⟩ := h hf
      simp [sendWhole, hf, hq, hbelow.send data w]
  sendFin w := by
    change closeBehind p w = _
    cases hf : p.finWanted with
    | true => simp [closeBehind, hf]
    | false =>
      obtain ⟨hq, hbelow⟩ := h hf
      simp [closeBehind, hf, hq, hbelow.sendFin w]

end Atomic

namespace Datagram

variable {P W C : Type} [Pipe P W C] {settled : Atomic P → Prop}

/-- The framing was violated, or the end of the way out is settled below. -/
def Done (settled : Atomic P → Prop) (p : Datagram P) : Prop :=
  p.broken = true ∨ settled p.inner

theorem settles (h : Pipe.Settles W settled) : Pipe.Settles W (Done settled) where
  kept := by
    constructor
    · intro callback p p' w w' result hdone hcall
      obtain ⟨⟨_, inner, _⟩, hattach, heq⟩ := Checked.bind_eq_ok_iff.mp hcall
      cases heq
      exact hdone.imp_right fun hold => h.kept.attach hold hattach
    · intro room p p' w w' result hdone hcall
      have hr := received hcall
      change p.view.broken = true ∨ settled p.view.inner at hdone
      change p'.view.broken = true ∨ settled p'.view.inner
      generalize p'.view = v' at hr ⊢
      generalize p.view = v at hdone hr
      cases hr with
      | broken | found => exact hdone
      | violated | corrupted | cut => exact .inl rfl
      | refused _ _ _ hr | incomplete _ _ _ hr | completed _ _ _ hr | ended _ _ _ hr =>
        exact hdone.imp_right fun hold => h.kept.recv hold hr
    · intro data p p' w w' result hdone hcall
      cases sent hcall with
      | broken | waiting => exact hdone
      | excessive | unframed => exact .inl rfl
      | passed _ _ _ _ hr => exact hdone.imp_right fun hold => h.kept.send hold hr
    · intro p p' w w' result hdone hcall
      obtain ⟨_, _, rfl, rfl⟩ | ⟨_, inner, hc, rfl⟩ := closed hcall
      · exact hdone
      · exact hdone.imp_right fun hold => h.kept.sendFin hold hc
    · intro events p p' w w' report hdone hcall
      obtain ⟨⟨_, inner, _⟩, hr, heq⟩ := Checked.bind_eq_ok_iff.mp hcall
      cases heq
      exact hdone.imp_right fun hold => h.kept.react hold hr
    · intro p w hdone
      exact hdone
  closed hcall := by
    obtain ⟨hb, _, rfl, rfl⟩ | ⟨_, inner, hc, rfl⟩ := closed hcall
    · exact .inl hb
    · exact .inr (h.closed hc)

/-- A send of a datagram that could be framed goes by what the pipe below says of the way out, and
does not get to the pipe below. -/
theorem told_to_wait {p : Datagram P} {data : Bytes} (hb : p.broken = false)
    (hd : data.length ≤ p.maxSize) (hw : (state p.inner).isWritable = false) (w : W) :
    Pipe.send data p w = .ok (.error .wouldBlock, p, w) := by
  change sendDatagram data p w = _
  unfold sendDatagram
  rw [if_neg (by simp [hb]), if_neg (by omega), if_pos (by simp [hw])]
  rfl

theorem closed_below {p : Datagram P} {w : W} {closes : Violation} (hb : p.broken = false)
    (h : Pipe.sendFin p.inner w = .error closes) : Pipe.sendFin p w = .error closes := by
  change (if p.broken then _ else Pipe.sendFin p.inner w >>= _) = _
  rw [if_neg (by simp [hb]), h]
  rfl

end Datagram

section Layers

variable {N C : Type} [Sockets N]

theorem Tcp.Done.finSent {p : Tcp} (h : p.Done) (hb : (state p).broken = false) :
    p.bits.finSent = true :=
  h.resolve_right fun hbroken => Bool.false_ne_true (hb.symm.trans hbroken)

variable {p : Atomic Tcp} (hdone : p.Done Tcp.Done) (hb : (state p).broken = false)
include hdone hb

theorem Atomic.finSent_of_done (hf : p.finWanted = false) : p.inner.bits.finSent = true := by
  have hinner : p.inner.Done := hdone.resolve_left fun hw => Bool.false_ne_true (hf.symm.trans hw)
  rw [state_broken] at hb
  exact hinner.finSent hb

theorem Atomic.ceased_of_done (hs : p.Shaped (fun _ => True) Tcp.Shut) :
    Pipe.Ceased (C := C) (Host N C) p
      (if p.finWanted then .atomicSendAfterFin else .tcpSendAfterFin p.inner.fd)
      (if p.finWanted then .atomicFinTwice else .tcpFinTwice p.inner.fd) := by
  refine ceased fun hf => ?_
  have hsent := finSent_of_done hdone hb hf
  refine ⟨?_, Tcp.ceased hsent⟩
  -- what is queued could not go out any more
  by_contra hq
  exact hs.unclosed (.inl hq) hsent

theorem Atomic.full_of_done (ht : p.QueueConsistent) (hm : p.inner.TakesNothing) :
    (state p).isWritable = false := by
  by_cases hq : p.queue = none
  · have hf : p.finWanted = false := (Bool.not_eq_true _).mp fun hw => ht.wanted hw hq
    have hsent := finSent_of_done hdone hb hf
    rw [state_isWritable hq, Tcp.isWritable_state, PipeState.isWritable, hm hsent,
      Bool.false_and]
  · exact state_isWritable_of_queue hq

end Layers

/-- After a request to close the way out was granted, sends and further requests stop the run of
socket pipes and atomic pipes that are not broken. Datagram pipes only stop at further requests: a
send is to be tried again, as if the way out could become open once more. -/
theorem uses_after_fin {N C : Type} [Sockets N] {fd : Fd} {start : Tcp}
    {turns : List (PipeTurn (Host N C) C)} {w w' : Host N C}
    (hstart : start = .connecting fd ∨ start = .connected fd) :
    (∀ l : Logged Tcp, useAll turns (.fresh start) w = .ok (l, w') → l.FinGranted →
      (state l.pipe).broken = false →
      Pipe.Ceased (Host N C) l.pipe (.tcpSendAfterFin l.pipe.fd) (.tcpFinTwice l.pipe.fd)) ∧
    (∀ l : Logged (Atomic Tcp), useAll turns (.fresh { inner := start }) w = .ok (l, w') →
      l.FinGranted → (state l.pipe).broken = false →
      Pipe.Ceased (Host N C) l.pipe
        (if l.pipe.finWanted then .atomicSendAfterFin else .tcpSendAfterFin l.pipe.inner.fd)
        (if l.pipe.finWanted then .atomicFinTwice else .tcpFinTwice l.pipe.inner.fd)) ∧
    ∀ (maxSize : Nat) (new : Datagram Tcp) (l : Logged (Datagram Tcp)),
      Datagram.wrap start maxSize = .ok new → useAll turns (.fresh new) w = .ok (l, w') →
      l.FinGranted → (state l.pipe).broken = false →
      (∀ (data : Bytes) (v : Host N C), data.length ≤ l.pipe.maxSize →
        Pipe.send data l.pipe v = .ok (.error .wouldBlock, l.pipe, v)) ∧
      ∀ v : Host N C, Pipe.sendFin l.pipe v = .error
        (if l.pipe.inner.finWanted then .atomicFinTwice
          else .tcpFinTwice l.pipe.inner.inner.fd) := by
  have hopen : ¬start.Shut := Tcp.not_shut_of_new hstart
  have hmute : start.TakesNothing := fun hsent => absurd hsent hopen
  have hnew : Atomic.Shaped (fun _ => True) Tcp.Shut { inner := start } :=
    ⟨trivial, fun _ => hopen⟩
  have hdisciplined := Atomic.disciplined (Tcp.disciplined (N := N) (C := C))
  have hsettles := Tcp.settles (N := N) (C := C)
  refine ⟨?_, ?_, ?_⟩
  · intro l hrun hg hb
    exact Tcp.ceased ((hsettles.of_granted hrun hg).finSent hb)
  · intro l hrun hg hb
    have hs := hdisciplined.shape_kept.useAll_forall hnew (Logged.run hrun)
    exact Atomic.ceased_of_done ((Atomic.settles hsettles).of_granted hrun hg) hb hs
  · intro maxSize new l hwrap hrun hg hb
    obtain ⟨_, rfl⟩ := Datagram.eq_of_wrap hwrap
    have hpiped := Logged.run hrun
    have hs := (Datagram.disciplined hdisciplined).shape_kept.useAll_forall hnew hpiped
    have ht : l.pipe.inner.QueueConsistent :=
      Atomic.queueConsistent_kept.datagram.useAll_forall (Atomic.queueConsistent_fresh start) hpiped
    have hm : l.pipe.inner.inner.TakesNothing :=
      Tcp.takesNothing_kept.atomic.datagram.useAll_forall hmute hpiped
    rw [Datagram.state_eq, Datagram.View.broken_shown, Bool.or_eq_false_iff] at hb
    have hdone := ((Datagram.settles (Atomic.settles hsettles)).of_granted hrun hg).resolve_left
      fun hown => Bool.false_ne_true (hb.2.symm.trans hown)
    constructor
    · intro data v hd
      exact Datagram.told_to_wait hb.2 hd (Atomic.full_of_done hdone hb.1 ht hm) v
    · intro v
      exact Datagram.closed_below hb.2 ((Atomic.ceased_of_done hdone hb.1 hs).sendFin v)

/-- The way out is to be closed while a byte of a datagram is queued, and is closed by readiness. -/
def narrowClosing : List (PipeTurn (Host Narrow Side) Side) :=
  [.attach .left, .react { writable := true }, .send [7], .sendFin,
    .react { writable := true }].map fun use => { meanwhile := id, use }

def narrowPipe : Datagram Tcp := { inner := { inner := .connected 3 }, maxSize := 4 }

def narrowRun (n : Nat) : Checked (Logged (Datagram Tcp) × Host Narrow Side) :=
  useAll (narrowClosing.take n) (.fresh narrowPipe) { net := {}, reactor := {} }

/-- What is to be known of such a pipe in order to use it. -/
def closingFigures (x : Logged (Datagram Tcp) × Host Narrow Side) :
    Bool × Bool × Nat × Bool × Fd :=
  (decide x.1.FinGranted, (state x.1.pipe).broken, x.1.pipe.maxSize, x.1.pipe.inner.finWanted,
    x.1.pipe.inner.inner.fd)

theorem narrowRun_figures :
    (narrowRun 4).toOption.map closingFigures = some (true, false, 4, true, 3) ∧
    (narrowRun 5).toOption.map closingFigures = some (true, false, 4, false, 3) := by
  decide +kernel

theorem uses_after_fin_narrow :
    ∃ (l l' : Logged (Datagram Tcp)) (w w' : Host Narrow Side),
      narrowRun 4 = .ok (l, w) ∧
      Pipe.send [8] l.pipe w = .ok (.error .wouldBlock, l.pipe, w) ∧
      Pipe.sendFin l.pipe w = .error .atomicFinTwice ∧
      narrowRun 5 = .ok (l', w') ∧
      Pipe.send [8] l'.pipe w' = .ok (.error .wouldBlock, l'.pipe, w') ∧
      Pipe.sendFin l'.pipe w' = .error (.tcpFinTwice 3) := by
  have hstart : Tcp.connected 3 = .connecting 3 ∨ Tcp.connected 3 = .connected 3 := .inr rfl
  have hwrap : Datagram.wrap (.connected 3) 4 = .ok narrowPipe := rfl
  obtain ⟨hqueued, hflushed⟩ := narrowRun_figures
  obtain ⟨⟨l, w⟩, hrun, hfigures⟩ := Checked.toOption_map_eq_some_iff.mp hqueued
  obtain ⟨⟨l', w'⟩, hrun', hfigures'⟩ := Checked.toOption_map_eq_some_iff.mp hflushed
  simp only [closingFigures, Prod.mk.injEq, decide_eq_true_eq] at hfigures hfigures'
  obtain ⟨hg, hb, hsize, hwanted, hfd⟩ := hfigures
  obtain ⟨hg', hb', hsize', hwanted', hfd'⟩ := hfigures'
  obtain ⟨hsend, hclose⟩ := (uses_after_fin hstart).2.2 4 narrowPipe l hwrap hrun hg hb
  obtain ⟨hsend', hclose'⟩ := (uses_after_fin hstart).2.2 4 narrowPipe l' hwrap hrun' hg' hb'
  rw [hwanted] at hclose
  rw [hwanted', hfd'] at hclose'
  refine ⟨l, l', w, w', hrun, ?_, hclose w, hrun', ?_, hclose' w'⟩
  · exact hsend [8] w (by simp [hsize])
  · exact hsend' [8] w' (by simp [hsize'])

end DuplexRelay
