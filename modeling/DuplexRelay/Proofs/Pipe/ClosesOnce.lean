import DuplexRelay.Pipe.Memory
import DuplexRelay.Proofs.Pipe.Reporting
import DuplexRelay.Proofs.Pipe.WholeSends

/-! Closings of the way out at the bottom of a stack. A socket is shut down at once, or its pipe
breaks, and a memory pipe does just so. Neither puts a closing off, and what they show of the way
out changes by a closing only. -/

namespace DuplexRelay

/-- The way out was closed, or the pipe is of no further use. -/
def ClosedOrBroken (answer : PipeResult FinStatus) : Prop :=
  answer = .ok .sent ∨ (PipeCall.closed answer).fatal = true

theorem not_closedOrBroken_pending : ¬ClosedOrBroken (.ok .pending) := by
  rintro (h | h) <;> cases h

/-- That the way out is closed is shown once a request for that is granted, and not before. A closed
way out takes neither bytes nor requests, and its readiness is not reported. -/
structure Pipe.ClosesOnce (P W C : Type) [Pipe P W C] : Prop where
  attach : ∀ {callback : C} {p p' : P} {w w' : W} {result},
    Pipe.attach callback p w = .ok (result, p', w') → (state p').finSent = (state p).finSent
  recv : ∀ {n : Nat} {p p' : P} {w w' : W} {result},
    Pipe.recv n p w = .ok (result, p', w') → (state p').finSent = (state p).finSent
  send : ∀ {data : Bytes} {p p' : P} {w w' : W} {result},
    Pipe.send data p w = .ok (result, p', w') →
      (state p).finSent = false ∧ (state p').finSent = false
  sendFin : ∀ {p p' : P} {w w' : W} {result},
    Pipe.sendFin p w = .ok (result, p', w') → ClosedOrBroken result ∧
      (state p).finSent = false ∧ ((state p').finSent = true ↔ result = .ok .sent)
  react : ∀ {events : SocketEvents} {p p' : P} {w w' : W} {report},
    Pipe.react events p w = .ok (report, p', w') →
      (state p').finSent = (state p).finSent ∧ report.finSent = false ∧
        ((state p).finSent = true → report.writable = false)

theorem Tcp.closesOnce {N C : Type} [Sockets N] : Pipe.ClosesOnce Tcp (Host N C) C where
  attach h := by
    cases enrolled h with
    | refused | done => rfl
  recv h := (received_bits h).1
  send h := by
    have hbits := (transmitted_bits h).1
    cases transmitted h with
    | broken hf | taken hf | refused hf | failed hf => exact ⟨hf, hbits.trans hf⟩
  sendFin h := by
    cases shutDown_outcome h with
    | broken hf =>
      exact ⟨.inr rfl, hf, fun hsent => absurd (hf.symm.trans hsent) Bool.false_ne_true, nofun⟩
    | done hf _ _ hs =>
      rw [hs.pipe]
      exact ⟨.inl rfl, hf, fun _ => rfl, fun _ => rfl⟩
    | failed hf _ _ hs =>
      rw [hs.pipe]
      exact ⟨.inr rfl, hf, fun hsent => absurd (hf.symm.trans hsent) Bool.false_ne_true, nofun⟩
  react := by
    intro events p p' w w' report h
    refine ⟨(noticed_bits h).1, ?_⟩
    cases noticed h with
    | broken | waiting | failed => exact ⟨rfl, fun _ => rfl⟩
    | noted =>
      refine ⟨rfl, fun hsent => ?_⟩
      change p.bits.finSent = true at hsent
      simp [notedReport, hsent]

namespace Memory

variable {p p' : Memory}

theorem finSent_receive (room : Nat) (p : Memory) :
    (p.receive room).2.bits.finSent = p.bits.finSent := by
  unfold receive
  split
  · rfl
  cases p.inbound with
  | cons chunk rest => rfl
  | nil => cases p.inboundFin <;> rfl

theorem finSent_transmit {data : Bytes} {result : PipeResult Nat}
    (h : p.transmit data = .ok (result, p')) :
    p.bits.finSent = false ∧ p'.bits.finSent = false := by
  unfold transmit at h
  split at h
  · cases h
  rename_i hf
  have hf : p.bits.finSent = false := by simpa using hf
  refine ⟨hf, ?_⟩
  split at h
  · cases h
    exact hf
  cases hsteps : p.sendSteps with
  | nil =>
    rw [hsteps] at h
    cases h
    exact hf
  | cons step rest =>
    rw [hsteps] at h
    cases step with
    | accept limit =>
      dsimp only at h
      split at h <;>
      · cases h
        exact hf
    | wouldBlock | fail =>
      cases h
      exact hf

theorem finSent_shutDown {result : PipeResult FinStatus} (h : p.shutDown = .ok (result, p')) :
    ClosedOrBroken result ∧ p.bits.finSent = false ∧
      (p'.bits.finSent = true ↔ result = .ok .sent) := by
  unfold shutDown at h
  split at h
  · cases h
  rename_i hf
  have hf : p.bits.finSent = false := by simpa using hf
  dsimp only at h
  split at h
  · cases h
    exact ⟨.inr rfl, hf, by simp [hf, failure]⟩
  · cases h
    exact ⟨.inl rfl, hf, by simp⟩

theorem closesOnce {N C : Type} : Pipe.ClosesOnce Memory (Host N C) C where
  attach := by
    intro callback p p' w w' result h
    cases h
    rfl
  recv := by
    intro n p p' w w' result h
    cases h
    exact finSent_receive n p
  send := by
    intro data p p' w w' result h
    obtain ⟨⟨_, q⟩, hsend, heq⟩ := Checked.map_eq_ok_iff.mp h
    cases heq
    exact finSent_transmit hsend
  sendFin := by
    intro p p' w w' result h
    obtain ⟨⟨_, q⟩, hclose, heq⟩ := Checked.map_eq_ok_iff.mp h
    cases heq
    exact finSent_shutDown hclose
  react := by
    intro events p p' w w' report h
    cases h
    refine ⟨rfl, rfl, fun hsent => ?_⟩
    change p.bits.finSent = true at hsent
    simp [hsent]

end Memory

theorem Pipe.ClosesOnce.logged {P W C : Type} [Pipe P W C] (hP : Pipe.ClosesOnce P W C) :
    Pipe.ClosesOnce (Logged P) W C where
  attach h := by
    obtain ⟨_, hcall, heq⟩ := Checked.map_eq_ok_iff.mp h
    cases heq
    exact hP.attach hcall
  recv h := by
    obtain ⟨_, hcall, heq⟩ := Checked.map_eq_ok_iff.mp h
    cases heq
    exact hP.recv hcall
  send h := by
    obtain ⟨_, hcall, heq⟩ := Checked.map_eq_ok_iff.mp h
    cases heq
    exact hP.send hcall
  sendFin h := by
    obtain ⟨_, hcall, heq⟩ := Checked.map_eq_ok_iff.mp h
    cases heq
    exact hP.sendFin hcall
  react h := by
    obtain ⟨_, hcall, heq⟩ := Checked.map_eq_ok_iff.mp h
    cases heq
    exact hP.react hcall

end DuplexRelay
