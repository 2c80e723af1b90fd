import DuplexRelay.Proofs.Pipe.Closing
import DuplexRelay.Proofs.Pipe.Extraction
import DuplexRelay.Proofs.Pipe.Waiting
import DuplexRelay.Proofs.Socket

/-! When calls of a socket come to a result, whatever the socket does. It takes a registration that
the reactor still knows, and nothing is sent or closed once the way out was closed. -/

namespace DuplexRelay

namespace Reactor

variable {C : Type} {r r₁ r' : Reactor C} {fd : Fd}

/-- There is a registration of the descriptor, if there can be any. -/
def Knows (fd : Fd) (r : Reactor C) : Prop := r.phase = .disposed ∨ r.registration? fd ≠ none

/-- The reactor goes on with what it does, and no registration went. -/
structure RegistrationsKept (r r' : Reactor C) : Prop where
  phase : r'.phase = r.phase
  registered : ∀ fd, r.registration? fd ≠ none → r'.registration? fd ≠ none

theorem RegistrationsKept.refl (r : Reactor C) : r.RegistrationsKept r := ⟨rfl, fun _ => id⟩

theorem RegistrationsKept.trans (h : r.RegistrationsKept r₁) (h' : r₁.RegistrationsKept r') :
    r.RegistrationsKept r' :=
  ⟨h'.phase.trans h.phase, fun d hd => h'.registered d (h.registered d hd)⟩

theorem Knows.registrationsKept (h : r.Knows fd) (hr : r.RegistrationsKept r') : r'.Knows fd := by
  rcases h with hphase | hreg
  · exact .inl (hr.phase.trans hphase)
  · exact .inr (hr.registered fd hreg)

theorem registration?_update_ne_none (f : Registration C → Registration C) (id : Handle)
    (h : r.registration? fd ≠ none) : (r.update id f).registration? fd ≠ none := by
  rw [registration?_update, ne_eq, Option.map_eq_none_iff]
  exact h

theorem registrationsKept_performed {q : Request C} (hq : q.OnlyAdjusts fd)
    (h : Performed r q r') : r.RegistrationsKept r' := by
  cases h with
  | refused | added | absent | removed | disposed | deferred => cases hq
  | ignored | missed => exact .refl r
  | modified => exact ⟨rfl, fun _ => registration?_update_ne_none _ _⟩
  | forced => exact ⟨rfl, fun _ => registration?_update_ne_none _ _⟩

theorem Asked.registrationsKept (h : Asked (Request.OnlyAdjusts fd) r r') :
    r.RegistrationsKept r' :=
  h.keeps (P := r.RegistrationsKept) (.refl r) fun hq hold hperformed =>
    hold.trans (registrationsKept_performed hq hperformed)

/-- A change is carried out if there is a registration, or if it does not matter any more. -/
theorem modify_eq_ok (h : r.Knows fd) (interest : SocketEvents) :
    ∃ r', r.modify fd interest = .ok r' := by
  unfold modify
  split
  · exact ⟨r, rfl⟩
  · rename_i hphase
    have hreg := h.resolve_left hphase
    unfold registration? at hreg
    cases hfind : r.registrations.find? fd with
    | none => simp [hfind] at hreg
    | some id => exact ⟨_, rfl⟩

end Reactor

namespace Tcp

variable {N C : Type} {p p₁ p' : Tcp} {w w₁ w' : Host N C} {r r' : Reactor C}

/-- A pipe that was registered is still known to the reactor, as long as there is one. -/
def Listed (p : Tcp) (r : Reactor C) : Prop := p.attached = true → r.Knows p.fd

/-- The same socket in the same place, after calls that took away no registration. -/
structure SameSocket (p : Tcp) (w : Host N C) (p' : Tcp) (w' : Host N C) : Prop where
  fd : p'.fd = p.fd
  attached : p'.attached = p.attached
  registrationsKept : w.reactor.RegistrationsKept w'.reactor

theorem sameSocket_chained : Chained (SameSocket (N := N) (C := C)) where
  refl _ w := ⟨rfl, rfl, .refl w.reactor⟩
  trans h h' :=
    ⟨h'.fd.trans h.fd, h'.attached.trans h.attached, h.registrationsKept.trans h'.registrationsKept⟩

theorem Listed.registrationsKept (h : Listed p r) (hr : r.RegistrationsKept r') : Listed p r' :=
  fun ha => (h ha).registrationsKept hr

theorem Listed.sameSocket (h : Listed p w.reactor) (ho : SameSocket p w p' w') :
    Listed p' w'.reactor := by
  intro ha
  rw [ho.fd]
  exact h.registrationsKept ho.registrationsKept (ho.attached.symm.trans ha)

theorem listed_enrolled {callback : C} {result : Except Failure Unit}
    (hw : w.reactor.registrations.WellFormed) (h : Enrolled callback p w result p' w') :
    Listed p' w'.reactor ∧ p'.fd = p.fd ∧ w.reactor.RegistrationsKept w'.reactor ∧
      w'.reactor.registrations.WellFormed := by
  cases h with
  | refused ha =>
    exact ⟨fun hnow => absurd (ha.symm.trans hnow) Bool.false_ne_true, rfl, .refl _, hw⟩
  | done _ hr =>
    have henlisted := Reactor.enlisted hw hr
    refine ⟨fun _ => .inr ?_, rfl, ⟨henlisted.phase, fun fd hreg => ?_⟩, henlisted.wf⟩
    · simp [henlisted.present]
    · obtain ⟨reg, hreg⟩ := Option.ne_none_iff_exists'.mp hreg
      simp [henlisted.others fd reg hreg]

theorem Settled.sameSocket {bits : PipeState} {net : N} (h : Settled bits p { w with net } p' w') :
    SameSocket p w p' w' :=
  ⟨h.advanced.fd, by rw [h.pipe], h.advanced.asked.registrationsKept⟩

theorem settle_eq_ok {α : Type} (h : Listed p r) (a : α) (bits : PipeState) (net : N) :
    ∃ x, settle a bits p { net, reactor := r } = .ok x := by
  unfold settle adjustInterest
  dsimp only
  split
  · exact ⟨_, rfl⟩
  · split
    · rename_i ha
      obtain ⟨r', hr⟩ := Reactor.modify_eq_ok (h ha) (wanted bits)
      simp only [hr, Checked.ok_bind, Checked.pure_eq_ok]
      exact ⟨_, rfl⟩
    · exact ⟨_, rfl⟩

variable [Sockets N]

theorem below_sameSocket : Pipe.Below (W := Host N C) (id : Tcp → Tcp) SameSocket where
  recv := by
    intro n p p' w w' result h
    cases received h with
    | broken | nothing => exact sameSocket_chained.refl _ _
    | ended _ _ _ hs | data _ _ _ _ hs | refused _ _ _ _ hs | failed _ _ _ _ hs =>
      exact hs.sameSocket
  send := by
    intro data p p' w w' result h
    cases transmitted h with
    | broken => exact sameSocket_chained.refl _ _
    | taken _ _ _ hs | refused _ _ _ _ hs | failed _ _ _ _ hs => exact hs.sameSocket
  sendFin := by
    intro p p' w w' result h
    cases shutDown_outcome h with
    | broken => exact sameSocket_chained.refl _ _
    | done _ _ _ hs | failed _ _ _ hs => exact hs.sameSocket
  react := by
    intro events p p' w w' report h
    cases noticed h with
    | broken | waiting => exact sameSocket_chained.refl _ _
    | failed _ _ hs | noted _ _ hs => exact hs.sameSocket
  reschedule p w := by
    refine ⟨rfl, rfl, ?_⟩
    have hadvanced := advanced_reschedule p w
    exact hadvanced.asked.registrationsKept

end Tcp

/-- A pipe over a socket all calls of which come to a result, but for receives that ask for more
than there can be a buffer for. -/
structure Pipe.Answers {P N C : Type} [Sockets N] [Pipe P (Host N C) C] (base : P → Tcp)
    (shape closing : P → Prop) (fits : Nat → Prop) : Prop where
  below : Pipe.Below (W := Host N C) base Tcp.SameSocket
  disciplined : Pipe.Disciplined (Host N C) shape closing
  recv : ∀ (n : Nat) {p : P} {w : Host N C}, shape p → (base p).Listed w.reactor →
    (∃ x, Pipe.recv n p w = .ok x) ∨ Pipe.recv n p w = .error .capacityExceeded ∧ ¬fits n
  send : ∀ (data : Bytes) {p : P} {w : Host N C}, shape p → ¬closing p →
    (base p).Listed w.reactor → ∃ x, Pipe.send data p w = .ok x
  sendFin : ∀ {p : P} {w : Host N C}, shape p → ¬closing p → (base p).Listed w.reactor →
    ∃ x, Pipe.sendFin p w = .ok x
  react : ∀ (events : SocketEvents) {p : P} {w : Host N C}, shape p → (base p).Listed w.reactor →
    ∃ x, Pipe.react events p w = .ok x
  within : ∀ {n : Nat} {p p' : P} {w w' : Host N C} {data : Bytes}, shape p →
    Pipe.recv n p w = .ok (.ok (.data data), p', w') → data.length ≤ n

namespace Tcp

variable {N C : Type} [Sockets N] {p : Tcp} {w : Host N C}

theorem recv_eq_ok (h : Listed p w.reactor) (n : Nat) : ∃ x, Pipe.recv n p w = .ok x := by
  change ∃ x, receive n p w = .ok x
  unfold receive
  split
  · exact ⟨_, rfl⟩
  split
  · exact ⟨_, rfl⟩
  rcases Sockets.read p.fd n w.net with ⟨answer, net⟩
  match answer with
  | .ok [] => exact settle_eq_ok h _ _ net
  | .ok (byte :: rest) => exact settle_eq_ok h _ _ net
  | .error e =>
    dsimp only
    split
    · exact settle_eq_ok h _ _ net
    · exact settle_eq_ok h _ _ net

theorem send_eq_ok (h : Listed p w.reactor) (hf : p.bits.finSent = false) (data : Bytes) :
    ∃ x, Pipe.send data p w = .ok x := by
  change ∃ x, transmit data p w = .ok x
  unfold transmit
  simp only [hf, Bool.false_eq_true, if_false]
  split
  · exact ⟨_, rfl⟩
  rcases Sockets.send p.fd data w.net with ⟨answer, net⟩
  match answer with
  | .ok n => exact settle_eq_ok h _ _ net
  | .error e =>
    dsimp only
    split
    · exact settle_eq_ok h _ _ net
    · exact settle_eq_ok h _ _ net

theorem sendFin_eq_ok (h : Listed p w.reactor) (hf : p.bits.finSent = false) :
    ∃ x, Pipe.sendFin p w = .ok x := by
  change ∃ x, shutDown p w = .ok x
  unfold shutDown
  simp only [hf, Bool.false_eq_true, if_false]
  split
  · exact ⟨_, rfl⟩
  rcases Sockets.shutdown p.fd w.net with ⟨answer, net⟩
  match answer with
  | .ok () => exact settle_eq_ok h _ _ net
  | .error e => exact settle_eq_ok h _ _ net

theorem react_eq_ok (h : Listed p w.reactor) (events : SocketEvents) :
    ∃ x, Pipe.react events p w = .ok x := by
  have hnote (report : PipeEvents) (ready : Bool) (net : N) :
      ∃ x, noteReadiness events report { p with bits := { p.bits with ready } }
        { w with net } = .ok x := by
    have hready : Listed { p with bits := { p.bits with ready } } w.reactor := h
    exact settle_eq_ok hready _ _ net
  change ∃ x, notice events p w = .ok x
  unfold notice
  rcases Sockets.takeError p.fd w.net with ⟨error, net⟩
  dsimp only
  split
  · exact ⟨_, rfl⟩
  split
  · split
    · exact ⟨_, rfl⟩
    split
    · exact settle_eq_ok h _ _ net
    · exact hnote _ true net
  · split
    · split
      · exact settle_eq_ok h _ _ net
      · exact hnote _ p.bits.ready net
    · exact hnote _ p.bits.ready w.net

theorem answers [LawfulSockets N] (fits : Nat → Prop) :
    Pipe.Answers (N := N) (C := C) (id : Tcp → Tcp) (fun _ => True) Shut fits where
  below := below_sameSocket
  disciplined := disciplined
  recv n _ _ _ h := .inl (recv_eq_ok h n)
  send data _ _ _ hc h := send_eq_ok h (Bool.not_eq_true _ ▸ hc) data
  sendFin _ hc h := sendFin_eq_ok h (Bool.not_eq_true _ ▸ hc)
  react events _ _ _ h := react_eq_ok h events
  within _ h := by
    cases received h with
    | nothing => exact Nat.zero_le _
    | data _ _ hr => exact LawfulSockets.read_le hr

end Tcp

end DuplexRelay
