import DuplexRelay.Proofs.Pipe.Ledger
import DuplexRelay.Proofs.Pipe.StackOutlook

/-! How the state of a pipe follows the answers of its calls, whatever they are. Brokenness is
final, every failure but one brings it about, and a pipe that did not take all it was given is not
writable until it says so. -/

namespace DuplexRelay

def PipeResult.Fatal {α : Type} (result : PipeResult α) : Prop :=
  ∃ e, result = .error e ∧ e.isFatal = true

theorem PipeResult.not_fatal_ok {α : Type} (a : α) : ¬PipeResult.Fatal (.ok a) := by
  rintro ⟨e, he, _⟩
  cases he

theorem PipeResult.not_fatal_wouldBlock {α : Type} :
    ¬PipeResult.Fatal (.error .wouldBlock : PipeResult α) := by
  rintro ⟨e, he, hfatal⟩
  cases he
  cases hfatal

namespace PipeState

/-- A state that stays broken, is broken for sure if the call was `fatal`, and is not writable if
the pipe is `full`. -/
structure Latched (s s' : PipeState) (fatal full : Prop) : Prop where
  broken : s.broken = true → s'.broken = true
  fatal : fatal → s'.broken = true
  full : full → s'.isWritable = false

variable {s s₁ s' : PipeState} {fatal full fatal' full' : Prop}

theorem isWritable_of_broken (h : s.broken = true) : s.isWritable = false := by
  simp [isWritable, h]

theorem Latched.refl (s : PipeState) : s.Latched s False (s.isWritable = false) :=
  ⟨id, False.elim, id⟩

theorem Latched.of_broken (hb : s'.broken = true) : s.Latched s' fatal full :=
  ⟨fun _ => hb, fun _ => hb, fun _ => isWritable_of_broken hb⟩

theorem Latched.mono (h : s.Latched s' fatal full) (hfatal : fatal' → fatal)
    (hfull : full' → full) : s.Latched s' fatal' full' :=
  ⟨h.broken, fun hx => h.fatal (hfatal hx), fun hx => h.full (hfull hx)⟩

@[simp] theorem isWritable_normalized (s : PipeState) :
    s.normalized.isWritable = s.isWritable := by
  simp [normalized, isWritable]

end PipeState

/-- The state of the pipe follows the answers. A send is to take all of its data, else the pipe is
not writable, nor is it after a request to close the way out. Readiness that makes it writable again
is reported. -/
structure Pipe.Latching (P W : Type) {C : Type} [Pipe P W C] : Prop where
  attached : ∀ {callback : C} {p p' : P} {w w' : W} {result},
    Pipe.attach callback p w = .ok (result, p', w') →
    (state p).Latched (state p') False ((state p).isWritable = false)
  received : ∀ {n : Nat} {p p' : P} {w w' : W} {result},
    Pipe.recv n p w = .ok (result, p', w') →
    (state p).Latched (state p') result.Fatal ((state p).isWritable = false)
  sent : ∀ {data : Bytes} {p p' : P} {w w' : W} {result},
    Pipe.send data p w = .ok (result, p', w') →
    (state p).Latched (state p') result.Fatal (∀ n, result = .ok n → n < data.length)
  closed : ∀ {p p' : P} {w w' : W} {result}, Pipe.sendFin p w = .ok (result, p', w') →
    (state p).Latched (state p') result.Fatal True
  reacted : ∀ {events : SocketEvents} {p p' : P} {w w' : W} {report},
    Pipe.react events p w = .ok (report, p', w') →
    (state p).Latched (state p') (report.broken = true)
      ((state p).isWritable = false ∧ report.writable = false)

namespace Tcp

variable {N C : Type} {p p' : Tcp} {w w' : Host N C} {bits : PipeState} {fatal full : Prop}

theorem Settled.latched (h : Settled bits p w p' w') (hb : p.bits.broken = false)
    (hfatal : ¬fatal) (hfull : full → bits.isWritable = false) :
    (state p).Latched (state p') fatal full := by
  rw [h.pipe]
  refine ⟨fun hbroken => ?_, fun hx => absurd hx hfatal, fun hx => ?_⟩
  · exact absurd (hb.symm.trans hbroken) Bool.false_ne_true
  · exact (PipeState.isWritable_normalized bits).trans (hfull hx)

theorem Settled.latched_breakDown (h : Settled p.bits.breakDown p w p' w') :
    (state p).Latched (state p') fatal full := by
  rw [h.pipe]
  exact .of_broken rfl

theorem isWritable_state (p : Tcp) : (state p).isWritable = p.bits.isWritable :=
  PipeState.isWritable_normalized p.bits

variable [Sockets N]

theorem latching : Pipe.Latching Tcp (Host N C) where
  attached h := by
    cases enrolled h with
    | refused | done => exact .refl _
  received h := by
    cases received h with
    | broken hb => exact .of_broken hb
    | nothing => exact (PipeState.Latched.refl _).mono (PipeResult.not_fatal_ok _) id
    | ended hb _ _ hs =>
      refine hs.latched hb (PipeResult.not_fatal_ok _) fun hw => ?_
      rw [isWritable_state] at hw
      exact hw
    | data hb _ _ _ hs =>
      refine hs.latched hb (PipeResult.not_fatal_ok _) fun hw => ?_
      rw [isWritable_state] at hw
      exact hw
    | refused hb _ _ _ hs =>
      refine hs.latched hb PipeResult.not_fatal_wouldBlock fun hw => ?_
      rw [isWritable_state] at hw
      exact hw
    | failed _ _ _ _ hs => exact hs.latched_breakDown
  sent h := by
    cases transmitted h with
    | broken _ hb => exact .of_broken hb
    | taken _ hb _ hs =>
      refine hs.latched hb (PipeResult.not_fatal_ok _) fun hfull => ?_
      have hn := hfull _ rfl
      simp [PipeState.isWritable, Nat.ne_of_lt hn]
    | refused _ hb _ _ hs => exact hs.latched hb PipeResult.not_fatal_wouldBlock fun _ => rfl
    | failed _ _ _ _ hs => exact hs.latched_breakDown
  closed h := by
    cases shutDown_outcome h with
    | broken _ hb => exact .of_broken hb
    | done _ hb _ hs => exact hs.latched hb (PipeResult.not_fatal_ok _) fun _ => rfl
    | failed _ _ _ hs => exact hs.latched_breakDown
  reacted {events p _ _ _ _} h := by
    cases noticed h with
    | broken hb => exact .of_broken hb
    | waiting => exact (PipeState.Latched.refl _).mono Bool.false_ne_true And.left
    | failed _ _ hs => exact hs.latched_breakDown
    | noted hb _ hs =>
      refine hs.latched hb Bool.false_ne_true fun hunreported => ?_
      obtain ⟨hfull, hreport⟩ := hunreported
      rw [isWritable_state] at hfull
      have hfull : p.bits.writable = false := by simpa [PipeState.isWritable, hb] using hfull
      have hreport : (events.writable && !p.bits.finSent) = false := hreport
      simp [noted, PipeState.isWritable, hfull, hreport]

end Tcp

namespace Atomic

/-- What was reported so far is true of the pipe. -/
structure ReportedTruly {P : Type} [HasPipeState P] (report : PipeEvents) (p : Atomic P) :
    Prop where
  broken : report.broken = true → (state p).broken = true
  full : report.writable = false → (state p).isWritable = false

variable {P W C : Type} [Pipe P W C] {p p' : Atomic P} {w w' : W} {events report : PipeEvents}
  {fatal full full' : Prop}

/-- What holds below holds for the atomic pipe, if something is queued or the pipe below is full
where the atomic pipe has to be. -/
theorem latched (h : (state p.inner).Latched (state p'.inner) fatal full)
    (hfull : full' → p'.queue ≠ none ∨ full) : (state p).Latched (state p') fatal full' := by
  refine ⟨?_, ?_, fun hx => ?_⟩
  · rw [state_broken, state_broken]
    exact h.broken
  · rw [state_broken]
    exact h.fatal
  · by_cases hq : p'.queue = none
    · rw [state_isWritable hq]
      exact h.full ((hfull hx).resolve_left fun hqueue => hqueue hq)
    · exact state_isWritable_of_queue hq

theorem queue_or_full (h : (state p).isWritable = false) :
    p.queue ≠ none ∨ (state p.inner).isWritable = false := by
  by_cases hq : p.queue = none
  · rw [state_isWritable hq] at h
    exact .inr h
  · exact .inl hq

variable (h : Pipe.Latching P W)
include h

theorem reportedTruly_queueFlushed (hb : events.broken = true → (state p).broken = true)
    (hw : events.writable = true) (hq : QueueFlushed events p w report p' w') :
    ReportedTruly report p' ∧ ((state p).broken = true → (state p').broken = true) := by
  have hkept {p' : Atomic P} {fatal full : Prop}
      (hafter : (state p.inner).Latched (state p'.inner) fatal full)
      (hbroken : (state p).broken = true) : (state p').broken = true := by
    rw [state_broken] at hbroken ⊢
    exact hafter.broken hbroken
  cases hq with
  | idle => exact ⟨⟨hb, fun hfull => absurd (hw.symm.trans hfull) nofun⟩, id⟩
  | @refused queue e inner _ _ hs =>
    have hafter := h.sent hs
    refine ⟨⟨fun hreport => ?_, fun _ => state_isWritable_of_queue nofun⟩, hkept hafter⟩
    rcases Bool.or_eq_true_iff.mp hreport with hbroken | hfatal
    · exact hkept hafter (hb hbroken)
    · rw [state_broken]
      exact hafter.fatal ⟨e, rfl, hfatal⟩
  | part _ hs =>
    have hafter := h.sent hs
    exact ⟨⟨fun hbroken => hkept hafter (hb hbroken), fun _ => state_isWritable_of_queue nofun⟩,
      hkept hafter⟩
  | all _ hs =>
    have hafter := h.sent hs
    refine ⟨⟨fun hbroken => hkept hafter (hb hbroken), fun hfull => ?_⟩, hkept hafter⟩
    rw [state_isWritable rfl]
    simpa [hw] using hfull

theorem reportedTruly_finFlushed (ht : ReportedTruly events p)
    (hf : FinFlushed events p w report p' w') :
    ReportedTruly report p' ∧ ((state p).broken = true → (state p').broken = true) := by
  cases hf with
  | skipped => exact ⟨ht, id⟩
  | @closed result inner _ hq _ hc =>
    have hafter := h.closed hc
    have hkept (hbroken : (state p).broken = true) :
        (state ({ p with inner, finWanted := false } : Atomic P)).broken = true := by
      rw [state_broken] at hbroken ⊢
      exact hafter.broken hbroken
    refine ⟨⟨fun hreport => ?_, fun _ => ?_⟩, hkept⟩
    · match result with
      | .ok .sent | .ok .pending => exact hkept (ht.broken hreport)
      | .error e =>
        rcases Bool.or_eq_true_iff.mp hreport with hbroken | hfatal
        · exact hkept (ht.broken hbroken)
        · rw [state_broken]
          exact hafter.fatal ⟨e, rfl, hfatal⟩
    · have hqueue : ({ p with inner, finWanted := false } : Atomic P).queue = none := hq
      rw [state_isWritable hqueue]
      exact hafter.full trivial

theorem latching : Pipe.Latching (Atomic P) W where
  attached := by
    intro callback p p' w w' result hattach
    obtain ⟨⟨_, inner, _⟩, hattach, heq⟩ := Checked.bind_eq_ok_iff.mp hattach
    cases heq
    exact latched (h.attached hattach) queue_or_full
  received := by
    intro n p p' w w' result hrecv
    obtain ⟨⟨_, inner, _⟩, hrecv, heq⟩ := Checked.bind_eq_ok_iff.mp hrecv
    cases heq
    exact latched (h.received hrecv) queue_or_full
  sent := by
    intro data p p' w w' result hsend
    cases sentWhole hsend with
    | waiting _ hq =>
      exact (PipeState.Latched.refl _).mono PipeResult.not_fatal_wouldBlock fun _ =>
        state_isWritable_of_queue hq
    | refused _ _ hs => exact latched (h.sent hs) fun _ => .inr nofun
    | all _ _ hs =>
      refine latched ((h.sent hs).mono (PipeResult.not_fatal_ok _).elim id) fun hfull => ?_
      exact absurd (hfull _ rfl) (Nat.lt_irrefl _)
    | part _ _ hs =>
      exact latched ((h.sent hs).mono (PipeResult.not_fatal_ok _).elim id) fun _ => .inl nofun
  closed := by
    intro p p' w w' result hclose
    cases closedBehind hclose with
    | waiting _ hq =>
      exact (PipeState.Latched.refl _).mono (PipeResult.not_fatal_ok _) fun _ =>
        state_isWritable_of_queue hq
    | passed _ _ hc => exact latched (h.closed hc) fun _ => .inr trivial
  reacted := by
    intro events p p' w w' report hreact
    cases reacted hreact with
    | passed hr =>
      refine latched (h.reacted hr) fun ⟨hfull, hreport⟩ => ?_
      exact (queue_or_full hfull).imp_right fun hinner => ⟨hinner, hreport⟩
    | @flushing report₀ _ _ inner _ _ _ _ _ hr hw hq hf =>
      have hafter := h.reacted hr
      have hstate : (state ({ p with inner } : Atomic P)).broken = (state inner).broken :=
        state_broken _
      have hreport : report₀.broken = true →
          (state ({ p with inner } : Atomic P)).broken = true := by
        rw [hstate]
        exact hafter.fatal
      obtain ⟨ht₁, hkept₁⟩ := reportedTruly_queueFlushed h hreport hw hq
      obtain ⟨ht', hkept'⟩ := reportedTruly_finFlushed h ht₁ hf
      refine ⟨fun hbroken => ?_, ht'.broken, fun hfull => ht'.full hfull.2⟩
      rw [state_broken] at hbroken
      exact hkept' (hkept₁ (hstate.trans (hafter.broken hbroken)))

end Atomic

namespace Datagram

variable {P : Type} [HasPipeState P] {v v' : View P} {fatal full full' : Prop}

theorem View.broken_shown (v : View P) :
    v.shown.broken = ((state v.inner).broken || v.broken) := rfl

theorem View.isWritable_eq (v : View P) :
    v.shown.isWritable = ((state v.inner).isWritable && !v.broken) := by
  unfold View.shown
  rw [PipeState.isWritable_normalized]
  simp only [PipeState.isWritable, Bool.not_or, Bool.and_assoc]

theorem View.latched_failed (v v' : View P) : v.shown.Latched v'.failed.shown fatal full :=
  .of_broken (Bool.or_true _)

/-- What holds below holds for the datagram pipe, as long as its framing is intact. -/
theorem View.latched (h : (state v.inner).Latched (state v'.inner) fatal full)
    (hb : v'.broken = v.broken) (hfull : full' → v'.broken = false → full) :
    v.shown.Latched v'.shown fatal full' := by
  refine ⟨fun hbroken => ?_, fun hx => ?_, fun hx => ?_⟩
  · rw [View.broken_shown, hb]
    rcases Bool.or_eq_true_iff.mp hbroken with hinner | hown
    · simp [h.broken hinner]
    · simp [hown]
  · rw [View.broken_shown, h.fatal hx, Bool.true_or]
  · rw [View.isWritable_eq]
    cases hown : v'.broken with
    | true => exact Bool.and_false _
    | false => rw [h.full (hfull hx hown), Bool.false_and]

theorem View.full_inner (hfull : v.shown.isWritable = false) (hb : v.broken = false) :
    (state v.inner).isWritable = false := by
  rw [isWritable_eq, hb] at hfull
  simpa using hfull

theorem broken_state {p : Datagram P} (hb : p.broken = true) : (state p).broken = true := by
  rw [state_eq, View.broken_shown, show p.view.broken = true from hb, Bool.or_true]

variable {P W C : Type} [Pipe P W C] {v v' : View P} {w w' : W}

theorem View.latched_received (h : Pipe.Latching (Atomic P) W) {n : Nat}
    {result : PipeResult Recv} (hr : Received n v w result v' w') :
    v.shown.Latched v'.shown result.Fatal (v.shown.isWritable = false) := by
  cases hr with
  | broken hb =>
    refine .of_broken ?_
    rw [View.broken_shown, Bool.or_comm]
    exact Bool.or_eq_true_iff.mpr hb
  | @found payload rest =>
    have hsame := PipeState.Latched.refl (state v.inner)
    have hv : ({ v with assembled := rest } : View P).broken = v.broken := rfl
    exact latched (hsame.mono (PipeResult.not_fatal_ok _) id) hv full_inner
  | violated | corrupted | cut => exact latched_failed _ _
  | refused _ _ _ hr => exact latched (h.received hr) rfl full_inner
  | incomplete _ _ _ hr =>
    exact latched ((h.received hr).mono PipeResult.not_fatal_wouldBlock.elim id) rfl full_inner
  | completed _ _ _ hr | ended _ _ _ hr =>
    exact latched ((h.received hr).mono (PipeResult.not_fatal_ok _).elim id) rfl full_inner

theorem latching (h : Pipe.Latching (Atomic P) W) : Pipe.Latching (Datagram P) W where
  attached := by
    intro callback p p' w w' result hattach
    obtain ⟨⟨_, inner, _⟩, hattach, heq⟩ := Checked.bind_eq_ok_iff.mp hattach
    cases heq
    rw [state_eq, state_eq]
    exact View.latched (h.attached hattach) rfl View.full_inner
  received := by
    intro n p p' w w' result hrecv
    rw [state_eq, state_eq]
    exact View.latched_received h (received hrecv)
  sent := by
    intro data p p' w w' result hsend
    cases sent hsend with
    | broken hb => exact .of_broken (broken_state hb)
    | excessive | unframed => exact .of_broken (broken_state rfl)
    | waiting _ _ hw =>
      refine (PipeState.Latched.refl _).mono PipeResult.not_fatal_wouldBlock fun _ => ?_
      rw [state_eq, View.isWritable_eq, show (state p.view.inner).isWritable = false from hw]
      rfl
    | @passed framed below inner _ _ _ _ _ hr =>
      have hafter := h.sent hr
      rw [state_eq, state_eq]
      cases below with
      | error e => exact View.latched hafter rfl fun _ _ => nofun
      | ok n =>
        refine View.latched (hafter.mono (PipeResult.not_fatal_ok _).elim id) rfl fun hfull => ?_
        exact absurd (hfull _ rfl) (Nat.lt_irrefl _)
  closed := by
    intro p p' w w' result hclose
    obtain ⟨hb, rfl, rfl, rfl⟩ | ⟨_, inner, hc, rfl⟩ := closed hclose
    · exact .of_broken (broken_state hb)
    · rw [state_eq, state_eq]
      exact View.latched (h.closed hc) rfl fun _ _ => trivial
  reacted := by
    intro events p p' w w' report hreact
    obtain ⟨⟨report, inner, _⟩, hr, heq⟩ := Checked.bind_eq_ok_iff.mp hreact
    cases heq
    rw [state_eq, state_eq]
    by_cases hb : p.broken = true
    · refine .of_broken ?_
      rw [View.broken_shown]
      exact Bool.or_eq_true_iff.mpr (.inr hb)
    · rw [if_neg hb]
      refine View.latched (h.reacted hr) rfl fun hfull hown => ?_
      exact ⟨View.full_inner hfull.1 hown, hfull.2⟩

end Datagram

namespace Stacked

variable {B W C : Type} [Pipe B W C]

theorem latching (h : Pipe.Latching B W) (layers : List Layer) :
    let _ := pipe (B := B) (W := W) layers
    Pipe.Latching (Stacked B layers) W := by
  induction layers with
  | nil => exact h
  | cons layer rest ih =>
    let _ := pipe (B := B) (W := W) rest
    cases layer with
    | atomic => exact Atomic.latching ih
    | datagram => exact Datagram.latching (Atomic.latching ih)

theorem shown_latching (h : Pipe.Latching B W) (layers : List Layer) :
    let _ := shownPipe (B := B) (W := W) layers
    Pipe.Latching (Stacked B layers) W := by
  rw [shownPipe_eq]
  exact latching h layers

end Stacked

namespace Stack

variable {B W C : Type} [Pipe B W C]

theorem latching (h : Pipe.Latching B W) : Pipe.Latching (Stack B) W := by
  let _ (layers : List Layer) : Pipe (Stacked B layers) W C := Stacked.shownPipe layers
  have hlayers := Stacked.shown_latching h
  constructor
  · intro callback s s' w w' result hresult
    obtain ⟨top, hattach, rfl⟩ := rewrap_eq_ok hresult
    exact (hlayers _).attached hattach
  · intro n s s' w w' result hresult
    obtain ⟨top, hrecv, rfl⟩ := rewrap_eq_ok hresult
    exact (hlayers _).received hrecv
  · intro data s s' w w' result hresult
    obtain ⟨top, hsend, rfl⟩ := rewrap_eq_ok hresult
    exact (hlayers _).sent hsend
  · intro s s' w w' result hresult
    obtain ⟨top, hclose, rfl⟩ := rewrap_eq_ok hresult
    exact (hlayers _).closed hclose
  · intro events s s' w w' report hresult
    obtain ⟨top, hreact, rfl⟩ := rewrap_eq_ok hresult
    exact (hlayers _).reacted hreact

end Stack

end DuplexRelay
