import DuplexRelay.Proofs.Pipe.Below
import DuplexRelay.Proofs.Pipe.Outlook
import DuplexRelay.Proofs.Reactor.Registrations

/-! The registration of a pipe over a socket waits for what the state of the pipe calls for,
whatever layers are on it. Its operations change no other registration. -/

namespace DuplexRelay.Tcp

variable {N C : Type} {p p₁ p' : Tcp} {w w₁ w' : Host N C} {r r' : Reactor C}

/-- The pipe is registered and waits for what its state calls for. -/
structure Waiting (p : Tcp) (r : Reactor C) : Prop where
  attached : p.attached = true
  interest : p.interest = wanted p.bits
  registered : r.interest? p.fd = some (wanted p.bits)

/-- A step that only makes requests for the descriptor of the pipe, after which the pipe waits for
what it should if it did so before. -/
structure Advanced (p : Tcp) (w : Host N C) (p' : Tcp) (w' : Host N C) : Prop where
  fd : p'.fd = p.fd
  asked : Reactor.Asked (Request.OnlyAdjusts p.fd) w.reactor w'.reactor
  waiting : w.reactor.phase ≠ .disposed → Waiting p w.reactor → Waiting p' w'.reactor

theorem advanced_chained : Chained (Advanced (N := N) (C := C)) where
  refl p w := ⟨rfl, .refl _ _, fun _ h => h⟩
  trans := by
    intro p p₁ p' w w₁ w' h h'
    refine ⟨h'.fd.trans h.fd, ?_, ?_⟩
    · have hlater := h'.asked
      rw [h.fd] at hlater
      exact h.asked.trans hlater
    · intro hp hw
      refine h'.waiting ?_ (h.waiting hp hw)
      rw [h.asked.phase]
      exact hp

theorem interest?_modify {fd : Fd} {interest : SocketEvents} (hp : r.phase ≠ .disposed)
    (h : r.modify fd interest = .ok r') (hreg : (r.interest? fd).isSome = true) :
    r'.interest? fd = some interest := by
  unfold Reactor.modify at h
  rw [if_neg hp] at h
  cases hfind : r.registrations.find? fd with
  | none => simp [hfind] at h
  | some id =>
    simp only [hfind, Except.ok.injEq] at h
    subst h
    unfold Reactor.interest? at hreg ⊢
    rw [Reactor.registration?_update_self _ hfind]
    cases hold : r.registration? fd with
    | none => simp [hold] at hreg
    | some reg => rfl

theorem Settled.advanced {bits : PipeState} {net : N}
    (h : Settled bits p { w with net } p' w') : Advanced p w p' w' := by
  have hbits := h.bits
  have hfd : p'.fd = p.fd := by rw [h.pipe]
  have hattached : p'.attached = p.attached := by rw [h.pipe]
  have hinterest : p'.interest = wanted p'.bits := by rw [h.pipe]
  rcases h.reactor with ⟨hsame, hreactor⟩ | ⟨ha, hne, hmodify⟩
  · refine ⟨hfd, ?_, ?_⟩
    · rw [hreactor]
      exact .refl _ _
    · intro _ hw
      refine ⟨hattached.trans hw.attached, hinterest, ?_⟩
      rw [hreactor, hfd, hbits, ← hsame hw.attached, hw.interest]
      exact hw.registered
  · refine ⟨hfd, .single (q := .modify p.fd (wanted bits)) rfl hmodify, ?_⟩
    intro hp hw
    refine ⟨hattached.trans hw.attached, hinterest, ?_⟩
    rw [hfd, hbits]
    exact interest?_modify hp hmodify (by rw [hw.registered]; rfl)

variable [Sockets N]

theorem advanced_reschedule (p : Tcp) (w : Host N C) :
    Advanced p w p (Pipe.rescheduleRead p w) := by
  change Advanced p w p (if p.attached then _ else _)
  split
  · refine ⟨rfl, .single (q := .reschedule p.fd { readable := true }) rfl rfl, ?_⟩
    intro _ hw
    refine ⟨hw.attached, hw.interest, ?_⟩
    rw [← hw.registered]
    change Reactor.interest? (Reactor.reschedule p.fd _ w.reactor).2 p.fd = _
    unfold Reactor.reschedule
    cases hfind : w.reactor.registrations.find? p.fd with
    | none => rfl
    | some id =>
      unfold Reactor.interest?
      rw [Reactor.registration?_update_self _ hfind, Option.map_map]
      rfl
  · exact advanced_chained.refl p w

theorem below_advanced : Pipe.Below (W := Host N C) (id : Tcp → Tcp) Advanced where
  recv := by
    intro n p p' w w' result h
    cases received h with
    | broken | nothing => exact advanced_chained.refl _ _
    | ended _ _ _ hs | data _ _ _ _ hs | refused _ _ _ _ hs | failed _ _ _ _ hs =>
      exact hs.advanced
  send := by
    intro data p p' w w' result h
    cases transmitted h with
    | broken => exact advanced_chained.refl _ _
    | taken _ _ _ hs | refused _ _ _ _ hs | failed _ _ _ _ hs => exact hs.advanced
  sendFin := by
    intro p p' w w' result h
    cases shutDown_outcome h with
    | broken => exact advanced_chained.refl _ _
    | done _ _ _ hs | failed _ _ _ hs => exact hs.advanced
  react := by
    intro events p p' w w' report h
    cases noticed h with
    | broken | waiting => exact advanced_chained.refl _ _
    | failed _ _ hs | noted _ _ hs => exact hs.advanced
  reschedule := advanced_reschedule

theorem links_advanced : Pipe.Below (W := Host N C) (Stack.base : Stack Tcp → Tcp) Advanced :=
  Stack.below advanced_chained below_advanced

end DuplexRelay.Tcp
