import DuplexRelay.Proofs.Bridge.LinkExactness
import DuplexRelay.Proofs.Pipe.Answering
import DuplexRelay.Proofs.Pipe.Uses

/-! What a pipe over a socket is registered for. Whatever its owner does with it and whatever the
socket answers, the registration mirrors the state of the pipe after each call, and no call misses
the registration, as long as nobody else takes it away. -/

namespace DuplexRelay.Tcp

variable {N C : Type} {p p' : Tcp} {w w' : Host N C} {fd : Fd}

/-- Whatever happens around a pipe, its registration stays as long as there is a reactor, and a
reactor that was disposed of does not come back. -/
structure RegistrationStays (p : Tcp) (w w' : Host N C) : Prop where
  wf : w.reactor.registrations.WellFormed → w'.reactor.registrations.WellFormed
  disposed : w.reactor.phase = .disposed → w'.reactor.phase = .disposed
  registered : p.attached = true → w'.reactor.phase ≠ .disposed →
    w.reactor.registration? p.fd ≠ none → w'.reactor.registration? p.fd ≠ none

/-- Nobody else changes what the pipe is registered for. -/
def Unaltered (p : Tcp) (w w' : Host N C) : Prop :=
  p.attached = true → w'.reactor.phase ≠ .disposed →
    w'.reactor.interest? p.fd = w.reactor.interest? p.fd

/-- The pipe of this descriptor is known to the reactor once it was registered. -/
structure KnownToReactor (p : Tcp) (w : Host N C) : Prop where
  wf : w.reactor.registrations.WellFormed
  listed : p.Listed w.reactor

theorem KnownToReactor.meanwhile (h : KnownToReactor p w) (hm : RegistrationStays p w w') :
    KnownToReactor p w' := by
  refine ⟨hm.wf h.wf, fun ha => ?_⟩
  by_cases hphase : w'.reactor.phase = .disposed
  · exact .inl hphase
  · have hbefore : w.reactor.phase ≠ .disposed := fun hd => hphase (hm.disposed hd)
    exact .inr (hm.registered ha hphase ((h.listed ha).resolve_left hbefore))

theorem KnownToReactor.advanced (h : KnownToReactor p w) (ho : SameSocket p w p' w')
    (ha : Advanced p w p' w') :
    KnownToReactor p' w' := ⟨ha.asked.wellFormed h.wf, h.listed.sameSocket ho⟩

/-- The pipe waits for what its state calls for once it was registered. -/
structure Mirroring (fd : Fd) (p : Tcp) (w : Host N C) : Prop where
  fd : p.fd = fd
  wf : w.reactor.registrations.WellFormed
  waiting : p.attached = true → w.reactor.phase ≠ .disposed → Waiting p w.reactor

theorem Mirroring.meanwhile (h : Mirroring fd p w) (hm : RegistrationStays p w w')
    (hu : Unaltered p w w') : Mirroring fd p w' := by
  refine ⟨h.fd, hm.wf h.wf, fun ha hphase => ?_⟩
  have hbefore : w.reactor.phase ≠ .disposed := fun hd => hphase (hm.disposed hd)
  have hwaiting := h.waiting ha hbefore
  exact ⟨ha, hwaiting.interest, (hu ha hphase).trans hwaiting.registered⟩

theorem Mirroring.advanced (h : Mirroring fd p w) (ho : SameSocket p w p' w')
    (ha : Advanced p w p' w') : Mirroring fd p' w' := by
  refine ⟨ha.fd.trans h.fd, ha.asked.wellFormed h.wf, fun hattached hphase => ?_⟩
  rw [ho.registrationsKept.phase] at hphase
  exact ha.waiting hphase (h.waiting (ho.attached.symm.trans hattached) hphase)

/-- What the state shows is enough to tell what a pipe waits for. -/
theorem wanted_eq_shown (p : Tcp) :
    wanted p.bits =
      if (state p).broken then .none
      else if !(state p).ready then { writable := true }
      else
        { readable := !(state p).readable && !(state p).finRcvd
          writable := !(state p).writable && !(state p).finSent } := by
  change wanted p.bits = if p.bits.broken then _ else if !p.bits.ready then _ else
    { readable := !p.bits.isReadable && !p.bits.finRcvd
      writable := !p.bits.isWritable && !p.bits.finSent }
  unfold wanted PipeState.isReadable PipeState.isWritable
  cases p.bits.broken <;> simp

theorem add_ne_notRegistered {r : Reactor C} {interest : SocketEvents} {callback : C}
    {v : Violation} (h : r.add fd interest callback = .error v) (d : Fd) :
    v ≠ .notRegistered d := by
  unfold Reactor.add at h
  split at h
  · cases h
  split at h
  · cases h
  split at h
  · cases h
    nofun
  · cases h

variable [Sockets N]

theorem knownToReactor_kept : Pipe.Keeps (KnownToReactor (N := N) (C := C)) where
  attach := by
    intro callback p p' w w' result h ha
    obtain ⟨hlisted, _, _, hwf⟩ := listed_enrolled h.wf (enrolled ha)
    exact ⟨hwf, hlisted⟩
  recv h hr := h.advanced (below_sameSocket.recv hr) (below_advanced.recv hr)
  send h hs := h.advanced (below_sameSocket.send hs) (below_advanced.send hs)
  sendFin h hc := h.advanced (below_sameSocket.sendFin hc) (below_advanced.sendFin hc)
  react h hr := h.advanced (below_sameSocket.react hr) (below_advanced.react hr)
  reschedule {p w} h := h.advanced (below_sameSocket.reschedule p w) (below_advanced.reschedule p w)

theorem mirroring_kept : Pipe.Keeps (Mirroring (N := N) (C := C) fd) where
  attach := by
    intro callback p p' w w' result h ha
    cases enrolled ha with
    | refused hattached =>
      exact ⟨h.fd, h.wf, fun hnow => absurd (hattached.symm.trans hnow) Bool.false_ne_true⟩
    | done _ hr =>
      have henlisted := Reactor.enlisted h.wf hr
      refine ⟨h.fd, henlisted.wf, fun _ _ => ⟨rfl, rfl, ?_⟩⟩
      simp [Reactor.interest?, henlisted.present]
  recv h hr := h.advanced (below_sameSocket.recv hr) (below_advanced.recv hr)
  send h hs := h.advanced (below_sameSocket.send hs) (below_advanced.send hs)
  sendFin h hc := h.advanced (below_sameSocket.sendFin hc) (below_advanced.sendFin hc)
  react h hr := h.advanced (below_sameSocket.react hr) (below_advanced.react hr)
  reschedule {p w} h := h.advanced (below_sameSocket.reschedule p w) (below_advanced.reschedule p w)

/-- Only a second registration and the misuse of a closed way out stop a pipe that is known to the
reactor. -/
theorem perform_ne_notRegistered {use : PipeUse C} {v : Violation} (h : KnownToReactor p w)
    (hp : Pipe.perform p w use = .error v) (d : Fd) : v ≠ .notRegistered d := by
  cases use with
  | attach callback =>
    have hattach : register callback p w = .error v := Checked.map_eq_error_iff.mp hp
    unfold register at hattach
    split at hattach
    · cases hattach
      exact Violation.noConfusion
    · cases hadd : w.reactor.add p.fd (wanted p.bits) callback with
      | error e =>
        have he := add_ne_notRegistered hadd d
        simp only [Checked.pure_eq_ok, hadd, Checked.error_bind] at hattach
        cases hattach
        exact he
      | ok added =>
        simp only [Checked.pure_eq_ok, Checked.ok_bind, hadd] at hattach
        cases added <;> cases hattach
  | recv room =>
    obtain ⟨x, hx⟩ := recv_eq_ok h.listed room
    cases hx.symm.trans (Checked.map_eq_error_iff.mp hp)
  | send data =>
    cases hf : p.bits.finSent with
    | true =>
      have hsend : transmit data p w = .error v := Checked.map_eq_error_iff.mp hp
      simp only [transmit, hf, if_true, Checked.throw_eq_error, Checked.error_bind] at hsend
      cases hsend
      exact Violation.noConfusion
    | false =>
      obtain ⟨x, hx⟩ := send_eq_ok h.listed hf data
      cases hx.symm.trans (Checked.map_eq_error_iff.mp hp)
  | sendFin =>
    cases hf : p.bits.finSent with
    | true =>
      have hclose : shutDown p w = .error v := Checked.map_eq_error_iff.mp hp
      simp only [shutDown, hf, if_true, Checked.throw_eq_error, Checked.error_bind] at hclose
      cases hclose
      exact Violation.noConfusion
    | false =>
      obtain ⟨x, hx⟩ := sendFin_eq_ok h.listed hf
      cases hx.symm.trans (Checked.map_eq_error_iff.mp hp)
  | react events =>
    obtain ⟨x, hx⟩ := react_eq_ok h.listed events
    cases hx.symm.trans (Checked.map_eq_error_iff.mp hp)
  | reschedule => cases hp

/-- A new pipe in the hands of any owner, who may register it at any time, and with any reactor,
also one that is discarded meanwhile. -/
theorem interest_mirrors_state {start : Tcp} {turns : List (PipeTurn (Host N C) C)}
    (hstart : start = .connecting fd ∨ start = .connected fd)
    (hwf : w.reactor.registrations.WellFormed)
    (hm : Pipe.Accompanied RegistrationStays turns start w) :
    (∀ d, Pipe.useAll turns start w ≠ .error (.notRegistered d)) ∧
    ∀ p w', Pipe.useAll turns start w = .ok (p, w') → Pipe.Accompanied Unaltered turns start w →
      p.attached = true → w'.reactor.phase ≠ .disposed →
      w'.reactor.interest? fd = some (
        if (state p).broken then .none
        else if !(state p).ready then { writable := true }
        else
          { readable := !(state p).readable && !(state p).finRcvd
            writable := !(state p).writable && !(state p).finSent }) := by
  have hnew : start.fd = fd ∧ start.attached = false := by
    rcases hstart with rfl | rfl <;> exact ⟨rfl, rfl⟩
  have hdetached : start.attached = true → False := by simp [hnew.2]
  constructor
  · intro d hrun
    have hknown : KnownToReactor start w := ⟨hwf, fun ha => absurd ha hdetached⟩
    obtain ⟨p, w', use, hp, hperform⟩ :=
      knownToReactor_kept.stopped (hm.mono fun hu h => h.meanwhile hu) hknown hrun
    exact perform_ne_notRegistered hp hperform d rfl
  · intro p w' hrun hu ha hphase
    have hmirroring : Mirroring fd start w := ⟨hnew.1, hwf, fun ha => absurd ha hdetached⟩
    have hend := mirroring_kept.useAll ((hm.and hu).mono fun hx h => h.meanwhile hx.1 hx.2)
      hmirroring hrun
    have hregistered := (hend.waiting ha hphase).registered
    rw [hend.fd, wanted_eq_shown] at hregistered
    exact hregistered

def discarding (w : Host N C) : Host N C :=
  match w.reactor.discard with
  | .ok reactor => { w with reactor }
  | .error _ => w

omit [Sockets N] in
theorem discarding_disposed {w : Host N C} (h : (discarding w).reactor.phase ≠ .disposed) :
    (discarding w).reactor.registrations = w.reactor.registrations := by
  unfold discarding Reactor.discard at h ⊢
  cases hphase : w.reactor.phase with
  | idle =>
    rw [hphase] at h
    exact absurd rfl h
  | dispatching | pendingDispose | disposed => rfl

omit [Sockets N] in
theorem registrationStays_discarding (p : Tcp) (w : Host N C) :
    RegistrationStays p w (discarding w) := by
  constructor
  · intro hwf
    unfold discarding Reactor.discard
    cases w.reactor.phase with
    | idle => exact OrderedMap.wellFormed_drain hwf
    | dispatching | pendingDispose | disposed => exact hwf
  · intro hdisposed
    unfold discarding Reactor.discard
    rw [hdisposed]
    exact hdisposed
  · intro _ hphase hreg
    unfold Reactor.registration? at hreg ⊢
    rwa [discarding_disposed hphase]

omit [Sockets N] in
theorem unaltered_discarding (p : Tcp) (w : Host N C) : Unaltered p w (discarding w) := by
  intro _ hphase
  unfold Reactor.interest? Reactor.registration?
  rw [discarding_disposed hphase]

/-- A pass over two sockets, from a callback of which all of this is done. -/
def busyHost : Host SocketPairs Side :=
  { Bridge.pairedHost with reactor := { phase := .dispatching } }

/-- A pipe is registered, finds nothing to be received once the reactor was discarded, and sends. -/
def discardedTurns : List (PipeTurn (Host SocketPairs Side) Side) :=
  [ { meanwhile := id, use := .attach .left },
    { meanwhile := id, use := .react { readable := true, writable := true } },
    { meanwhile := discarding, use := .recv 5 },
    { meanwhile := discarding, use := .send [1, 2] } ]

theorem discardedTurns_outcome :
    (Pipe.useAll discardedTurns (connected 3) busyHost).toOption.map (fun x =>
      (x.1.attached, state x.1, x.2.reactor.phase)) =
        some (true, { ready := true, writable := true }, .pendingDispose) := by
  decide +kernel

theorem interest_mirrored_discarding :
    ∃ (p : Tcp) (w : Host SocketPairs Side),
      Pipe.useAll discardedTurns (connected 3) busyHost = .ok (p, w) ∧
      w.reactor.phase = .pendingDispose ∧ w.reactor.interest? 3 = some { readable := true } := by
  have hturns {A : Tcp → Host SocketPairs Side → Host SocketPairs Side → Prop}
      (hid : ∀ p w, A p w w) (hd : ∀ p w, A p w (discarding w)) :
      Pipe.Accompanied A discardedTurns (connected 3) busyHost := by
    refine Pipe.accompanied_of_forall ?_ _ _
    simp only [discardedTurns, List.forall_mem_cons]
    exact ⟨hid, hid, hd, hd, nofun⟩
  have hstart : connected 3 = connecting 3 ∨ connected 3 = connected 3 := .inr rfl
  have hall := interest_mirrors_state hstart OrderedMap.wellFormed_empty
    (hturns (fun _ _ => ⟨id, id, fun _ _ => id⟩) registrationStays_discarding)
  have houtcome := discardedTurns_outcome
  cases hrun : Pipe.useAll discardedTurns (connected 3) busyHost with
  | error v => simp [hrun, Except.toOption] at houtcome
  | ok x =>
    obtain ⟨p, w⟩ := x
    simp only [hrun, Except.toOption, Option.map_some, Option.some.injEq, Prod.mk.injEq] at houtcome
    obtain ⟨hattached, hstate, hphase⟩ := houtcome
    refine ⟨p, w, rfl, hphase, ?_⟩
    have hinterest := hall.2 p w hrun (hturns (fun _ _ _ _ => rfl) unaltered_discarding) hattached
      (by simp [hphase])
    rw [hinterest, hstate]
    rfl

end DuplexRelay.Tcp
