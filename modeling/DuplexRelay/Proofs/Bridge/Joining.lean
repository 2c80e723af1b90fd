import DuplexRelay.Proofs.Bridge.LinkExactness
import DuplexRelay.Proofs.Bridge.Waking
import DuplexRelay.Proofs.Pipe.StackOutlook

/-! A new bridge that was registered waits for nothing in vain. -/

namespace DuplexRelay.Bridge

variable {P N C : Type}

/-- A bridge that did not relay anything yet. -/
structure Unused [HasPipeState P] (o : Outlook P) (b : Bridge P) : Prop where
  regular : ∀ s, o.regular (b.side s).pipe
  dry : ∀ s, (state (b.side s).pipe).isReadable = false
  pending : ∀ s, (b.side s).pending = none
  alive : b.dead = false

/-- A pipe whose registration was accepted. -/
structure RegistrationAccepted [HasPipeState P] (o : Outlook P) (callback : C) (p : P)
    (r : Reactor C) (p' : P) (r' : Reactor C) : Prop where
  fd : (o.base p').fd = (o.base p).fd
  attached : (o.base p').attached = true
  interest : (o.base p').interest = Tcp.wanted (o.base p').bits
  enlisted : r.Enlisted (o.base p).fd (Tcp.wanted (o.base p').bits) callback r'
  registered : o.Registered p p'

variable [Sockets N] [Pipe P (Host N C) C] {o : Outlook P} {b b' : Bridge P} {w w' : Host N C}
  {callback : C}

theorem listed (ho : o.Lawful (N := N) (C := C)) {p p' : P}
    (hr : w.reactor.registrations.WellFormed)
    (h : Pipe.attach callback p w = .ok (.ok (), p', w')) :
    RegistrationAccepted o callback p w.reactor p' w'.reactor := by
  obtain ⟨hregistered, hbase⟩ := ho.attach h
  have henrolled := Tcp.enrolled hbase
  generalize hp : o.base p' = q at henrolled
  generalize hresult : (Except.ok () : Except Failure Unit) = result at henrolled
  cases henrolled with
  | refused => cases hresult
  | @done r ha hadd =>
    have henlisted := Reactor.enlisted hr hadd
    refine ⟨?_, ?_, ?_, ?_, hregistered⟩
    · rw [hp]
    · rw [hp]
    · rw [hp]
    · rw [hp]
      exact henlisted

theorem asked_attach (ho : o.Lawful (N := N) (C := C)) {p p' : P}
    {result : Except Failure Unit} (h : Pipe.attach callback p w = .ok (result, p', w')) :
    w.reactor.Asked (fun _ => True) w'.reactor := by
  obtain ⟨_, hbase⟩ := ho.attach h
  have henrolled := Tcp.enrolled hbase
  generalize o.base p' = q at henrolled
  cases henrolled with
  | refused => exact .refl _ _
  | @done r _ hadd =>
    refine .single (q := .add (o.base p).fd (Tcp.wanted (o.base p).bits) callback) trivial ?_
    exact Checked.map_eq_ok_iff.mpr ⟨_, hadd, rfl⟩

omit [Sockets N] in
theorem RegistrationAccepted.waiting {p p' : P} {r r' : Reactor C}
    (h : RegistrationAccepted o callback p r p' r') : (o.base p').Waiting r' := by
  refine ⟨h.attached, h.interest, ?_⟩
  unfold Reactor.interest?
  rw [h.fd, h.enlisted.present]
  rfl

theorem unstalled_attached (ho : o.Lawful (N := N) (C := C)) {callback : Side → C}
    (hb : Unused o b) (hr : w.reactor.registrations.WellFormed)
    (h : Attached callback b w (.ok ()) b' w') :
    Unstalled o b' w'.reactor ∧ b'.dead = false ∧
      ∀ s, ∃ reg, w'.reactor.registration? (b'.fdOf o s) = some reg ∧
        reg.callback = some (callback s) ∧ reg.pending = .none := by
  generalize hresult : (Except.ok () : Except Failure Unit) = result at h
  cases h with
  | refused => cases hresult
  | @done _ left right w₁ _ hi hl hright =>
    subst hresult
    have hleft := listed ho hr hl
    have hright := listed ho hleft.enlisted.wf hright
    -- the second registration takes nothing from the first, and is not for the same descriptor
    have hkept : ∀ reg, w₁.reactor.registration? (o.base left).fd = some reg →
        w'.reactor.registration? (o.base left).fd = some reg :=
      hright.enlisted.others _
    have hpresent := hleft.enlisted.present
    rw [← hleft.fd] at hpresent
    have hapart : (o.base right).fd ≠ (o.base left).fd := by
      intro heq
      have habsent := hright.enlisted.absent
      rw [← hright.fd, heq, hpresent] at habsent
      cases habsent
    have hshown : ∀ s, state (((b.started.setSide .left { b.side .left with pipe := left }).setSide
        .right { b.side .right with pipe := right }).side s).pipe = state (b.side s).pipe := by
      intro s
      cases s
      · exact hleft.registered.shown
      · exact hright.registered.shown
    have hpending : ∀ s, (((b.started.setSide .left { b.side .left with pipe := left }).setSide
        .right { b.side .right with pipe := right }).side s).pending = none := by
      intro s
      cases s
      · exact hb.pending .left
      · exact hb.pending .right
    refine ⟨⟨⟨hright.enlisted.wf, ?_, ?_, ?_, ?_, ?_⟩, ?_, ?_⟩, hb.alive, ?_⟩
    · rw [hright.enlisted.phase]
      exact hright.enlisted.undisposed
    · intro s
      cases s
      · exact hapart
      · exact hapart.symm
    · intro s
      cases s
      · exact hleft.registered.regular (hb.regular .left)
      · exact hright.registered.regular (hb.regular .right)
    · intro s
      cases s
      · refine ⟨hleft.attached, hleft.interest, ?_⟩
        exact Option.map_eq_some_iff.mpr ⟨_, hkept _ hpresent, rfl⟩
      · exact hright.waiting
    · exact fun s hn => absurd (hpending s) hn
    · exact fun s hn => absurd (hpending s) hn
    · rintro src ⟨hread, _⟩
      rw [hshown, hb.dry] at hread
      cases hread
    · intro s
      cases s
      · exact ⟨_, hkept _ hpresent, rfl, rfl⟩
      · have hlast := hright.enlisted.present
        rw [← hright.fd] at hlast
        exact ⟨_, hlast, rfl, rfl⟩

end DuplexRelay.Bridge

namespace DuplexRelay

/-- A pipe that moved nothing. -/
structure Outlook.Idle {P : Type} [HasPipeState P] (o : Outlook P) (p : P) : Prop where
  regular : o.regular p
  dry : (state p).isReadable = false

theorem Tcp.idle_connecting (fd : Fd) : Tcp.outlook.Idle (.connecting fd) := by
  refine ⟨?_, rfl⟩
  exact Regular.mk rfl (fun _ => rfl) (fun _ => rfl) (fun _ => rfl)

theorem Tcp.idle_connected (fd : Fd) : Tcp.outlook.Idle (.connected fd) := by
  refine ⟨?_, rfl⟩
  exact Regular.mk rfl (fun _ => rfl) (fun _ => rfl) (fun _ => rfl)

theorem Atomic.idle {P : Type} [HasPipeState P] {o : Outlook P} {p : P} (h : o.Idle p) :
    (Atomic.outlook o).Idle { inner := p } :=
  ⟨regular_of_idle rfl rfl h.regular, h.dry⟩

theorem Datagram.idle {P : Type} [HasPipeState P] {o : Outlook (Atomic P)} {inner : Atomic P}
    {maxSize : Nat} (h : o.Idle inner) (hb : (state inner).broken = false) :
    (Datagram.outlook o).Idle { inner, maxSize } := by
  refine ⟨⟨h.regular, rfl, fun _ => rfl, fun _ => rfl⟩, ?_⟩
  rw [state_eq, View.isReadable_shown hb rfl]
  exact Bool.or_eq_false_iff.mpr ⟨h.dry, rfl⟩

/-- A connection that is put to use moved nothing yet, framed or not. -/
theorem Relay.idle_link {tcp : Tcp} {framed : Bool} {maxSize : Nat} {p : Link}
    (htcp : Tcp.outlook.Idle tcp) (h : link tcp framed maxSize = .ok p) :
    Stack.outlook.Idle p := by
  unfold link at h
  cases framed with
  | false =>
    cases h
    exact ⟨htcp.regular, htcp.dry⟩
  | true =>
    simp only [Stack.datagram, Datagram.wrap, if_true] at h
    split at h
    · cases h
      have hidle : (Datagram.outlook (Atomic.outlook Tcp.outlook)).Idle
          { inner := { inner := tcp }, maxSize } :=
        Datagram.idle (Atomic.idle htcp) htcp.regular.unbroken
      exact ⟨hidle.regular, hidle.dry⟩
    · simp at h

theorem Relay.unused_between {left right : Link} {config : BridgeConfig} {b : Bridge Link}
    (hl : Stack.outlook.Idle left) (hr : Stack.outlook.Idle right)
    (h : Bridge.between left right config = .ok (.ok b)) : Bridge.Unused Stack.outlook b := by
  rw [Bridge.between_eq_ok h]
  refine ⟨?_, ?_, ?_, rfl⟩
  · intro s
    cases s
    · exact hl.regular
    · exact hr.regular
  · intro s
    cases s
    · exact hl.dry
    · exact hr.dry
  · intro s
    cases s <;> rfl

end DuplexRelay
