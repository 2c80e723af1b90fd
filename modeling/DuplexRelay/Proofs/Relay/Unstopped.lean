import DuplexRelay.Proofs.Bridge.Contract
import DuplexRelay.Proofs.Relay.Settings

/-! Runs of a relay come to a result. What its callbacks need of the reactor is that their
registrations are there, and passes leave them there. -/

namespace DuplexRelay

namespace Reactor

variable {C σ : Type} {r r' : Reactor C} {fd : Fd}

/-- The only registration that must not be asked for is one that there is. -/
theorem add_error {interest : SocketEvents} {callback : C} {v : Violation}
    (h : r.add fd interest callback = .error v) :
    v = .registeredAlready fd ∧ r.isRegistered fd = true := by
  unfold add at h
  split at h
  · cases h
  split at h
  · cases h
  split at h
  · rename_i id registrations hi
    cases h
    refine ⟨rfl, ?_⟩
    rw [isRegistered, OrderedMap.find?_of_existing hi]
    rfl
  · cases h

theorem isRegistered_of_add {interest : SocketEvents} {callback : C}
    (hr : r.registrations.WellFormed) (h : r.add fd interest callback = .ok (.ok r')) :
    r'.isRegistered = fun d => d = fd || r.isRegistered d := by
  unfold add at h
  split at h
  · cases h
  split at h
  · cases h
  split at h
  · cases h
  · rename_i id registrations hi
    cases h
    exact isRegistered_added hr hi

/-- Whatever can be asked of registrations can still be asked of them. -/
def StillKnows (r r' : Reactor C) : Prop := ∀ fd, r.Knows fd → r'.Knows fd

theorem stillKnows_update (f : Registration C → Registration C) (id : Handle) (r : Reactor C) :
    r.StillKnows (r.update id f) := by
  rintro fd (hdisposed | hreg)
  · exact .inl hdisposed
  · exact .inr (registration?_update_ne_none f id hreg)

theorem stillKnows_begun (hr : r.registrations.WellFormed) (hp : r.phase = .idle)
    (ready : Fd → SocketEvents) : r.StillKnows (r.snapshot ready).begun := by
  intro fd h
  refine .inr ?_
  rcases h with hdisposed | hreg
  · rw [hp] at hdisposed
    cases hdisposed
  · obtain ⟨reg, hreg⟩ := Option.ne_none_iff_exists'.mp hreg
    have hsnapshot : (r.snapshot ready).begun.registration? fd = _ :=
      registration?_snapshot hr ready hreg
    simp [hsnapshot]

theorem stillKnows_endPass (hb : r.Busy) : r.StillKnows r.endPass := by
  intro fd h
  have hreg : r.registration? fd ≠ none := by
    refine h.resolve_left ?_
    rcases hb with hp | hp <;> simp [hp]
  unfold endPass
  split
  · exact .inl rfl
  · exact .inr hreg

/-- A pass violates a contract only where a callback does that it has to call, in a state in which
all is kept that the calls before it keep. -/
theorem monitor_error {invoke : C → SocketEvents → Reactor C → σ → Checked (Reactor C × σ)}
    {poll : List Fd → Except OsError (Fd → SocketEvents)} {P : Reactor C → σ → Prop} {s : σ}
    {v : Violation} (hi : Obeys invoke) (hkeeps : KeptByCalls invoke P) (hr : r.Resting)
    (hp : r.phase = .idle → ∀ ready, P (r.snapshot ready).begun s)
    (h : r.monitor poll invoke s = .error v) :
    ∃ (due : Due C) (r₁ : Reactor C) (s₁ : σ), r₁.Sound none ∧ r₁.Busy ∧ P r₁ s₁ ∧
      r₁.nextDue? none = some due ∧
        invoke due.callback due.events (r₁.takeDue due.id) s₁ = .error v := by
  unfold monitor admitPass at h
  rcases hr.still with hidle | hdisposed
  · simp only [hidle, Checked.ok_bind] at h
    split at h
    · cases h
    rename_i ready _
    split at h
    · rcases Checked.bind_eq_error_iff.mp h with hpass | ⟨_, _, hdone⟩
      · unfold pass at hpass
        dsimp only at hpass
        split at hpass
        · cases hpass
        rcases Checked.bind_eq_error_iff.mp hpass with hd | ⟨_, _, hdone⟩
        · have hcount := outstanding_eq (sound_snapshot hr.sound ready)
          obtain ⟨_, due, r₁, s₁, hstop⟩ := dispatch_stops (k := 0) hi hkeeps.walks
            (sound_begun hr.sound) (.inl rfl) (hp hidle ready) (nothingDueUpTo_none _)
            (Nat.le_of_eq hcount.symm) hd
          exact ⟨due, r₁, s₁, hstop⟩
        · cases hdone
      · cases hdone
    · cases h
  · simp only [hdisposed, Checked.ok_bind] at h
    cases h

/-- A pass keeps whatever its callbacks keep and no registration is needed less for. It violates a
contract only where one of them does that it has to call. -/
theorem monitor_stillKnows {invoke : C → SocketEvents → Reactor C → σ → Checked (Reactor C × σ)}
    (poll : List Fd → Except OsError (Fd → SocketEvents)) {P : Reactor C → σ → Prop} {s : σ}
    (hi : Obeys invoke) (hmono : ∀ {r r' s}, r.StillKnows r' → P r s → P r' s)
    (hcall : ∀ {c e r s r' s'}, invoke c e r s = .ok (r', s') → P r s → P r' s')
    (hr : r.Resting) (hp : P r s) :
    (∀ v, r.monitor poll invoke s = .error v →
      ∃ c e r₁ s₁, P r₁ s₁ ∧ invoke c e r₁ s₁ = .error v) ∧
    ∀ result r' s', r.monitor poll invoke s = .ok (result, r', s') → r'.Resting ∧ P r' s' := by
  have hkeeps : KeptByCalls invoke P := by
    constructor
    · exact fun {r s} h => hmono (r := r) (fun fd hknown => hknown) h
    · intro due r s r' s' _ _ h _ hinvoke
      have htaken : P (r.takeDue due.id) s := hmono (stillKnows_update _ _ r) h
      exact hmono (stillKnows_update _ _ r') (hcall hinvoke htaken)
  have hbegun (hidle : r.phase = .idle) (ready : Fd → SocketEvents) :
      P (r.snapshot ready).begun s :=
    hmono (stillKnows_begun hr.sound.wf hidle ready) hp
  refine ⟨fun v h => ?_, fun result r' s' h => ⟨resting_monitor hi hr h, ?_⟩⟩
  · obtain ⟨due, r₁, s₁, _, _, hp₁, _, hstop⟩ := monitor_error hi hkeeps hr hbegun h
    exact ⟨_, _, _, _, hmono (stillKnows_update _ _ r₁) hp₁, hstop⟩
  · cases monitored h with
    | refused | failed | quiet => exact hp
    | @idle ready hidle =>
      refine hmono (fun fd hknown => ?_) hp
      have hknows := stillKnows_begun hr.sound.wf hidle ready fd hknown
      exact hknows.imp (fun hphase => absurd hphase (by simp [begun])) id
    | @passed ready n r₁ _ hidle _ hd =>
      have hcount := outstanding_eq (sound_snapshot hr.sound ready)
      obtain ⟨_, hbusy, hkept, _⟩ := dispatch_keeps hi hkeeps (sound_begun hr.sound) (.inl rfl)
        (hbegun hidle ready) (nothingDueUpTo_none _) (Nat.le_of_eq hcount.symm) hd
      exact hmono (stillKnows_endPass hbusy) hkept

end Reactor

open Bridge (IsNew sockets)
open Relay (Link)

section Attaching

variable {N C : Type} [Sockets N] {callback : C} {w : Host N C} {v : Violation}

theorem Tcp.attach_error {p : Tcp} (ha : p.attached = false)
    (h : Pipe.attach callback p w = .error v) :
    v = .registeredAlready p.fd ∧ w.reactor.isRegistered p.fd = true := by
  replace h : register callback p w = .error v := h
  unfold register at h
  dsimp only at h
  rw [if_neg (by simp [ha])] at h
  rcases Checked.bind_eq_error_iff.mp h with hadd | ⟨added, _, hdone⟩
  · exact Reactor.add_error hadd
  · cases added with
    | error e => cases hdone
    | ok r => cases hdone

theorem Bridge.IsNew.attach_error {p : Link} (hp : IsNew p)
    (h : Pipe.attach callback p w = .error v) :
    v = .registeredAlready p.base.fd ∧ w.reactor.isRegistered p.base.fd = true := by
  have hrewrap {layers : List Layer}
      {x : Checked (Except Failure Unit × Stacked Tcp layers × Host N C)}
      (h : Stack.rewrap layers x = .error v) : x = .error v := by
    rcases Checked.bind_eq_error_iff.mp h with hx | ⟨_, _, hdone⟩
    · exact hx
    · cases hdone
  obtain ⟨tcp, ⟨_, _, hattached⟩, rfl | ⟨maxSize, rfl⟩⟩ := hp.shape
  · exact Tcp.attach_error hattached (hrewrap h)
  · rcases Checked.bind_eq_error_iff.mp (hrewrap h) with hinner | ⟨_, _, hdone⟩
    · rcases Checked.bind_eq_error_iff.mp hinner with htcp | ⟨_, _, hdone⟩
      · exact Tcp.attach_error hattached htcp
      · cases hdone
    · cases hdone

/-- A bridge between new connections can be registered unless they use one socket. -/
theorem Bridge.attach_error [LawfulSockets N] {left right : Link} {config : BridgeConfig}
    {callback : Side → C} {b : Bridge Link} {net : N} (hl : IsNew left) (hr : IsNew right)
    (hb : between left right config = .ok (.ok b))
    (h : b.attach callback ({ net, reactor := {} } : Host N C) = .error v) :
    v = .registeredAlready right.base.fd ∧ left.base.fd = right.base.fd := by
  rw [between_eq_ok hb] at h
  unfold attach at h
  simp only [Bool.false_eq_true, if_false, Checked.pure_eq_ok] at h
  rcases Checked.bind_eq_error_iff.mp h with hleft | ⟨⟨result, p, w⟩, hleft, h⟩
  · have hregistered := (hl.attach_error hleft).2
    cases hregistered
  cases result with
  | error e => cases h
  | ok _ =>
    rcases Checked.bind_eq_error_iff.mp h with hright | ⟨_, _, hdone⟩
    · obtain ⟨rfl, hregistered⟩ := hr.attach_error hright
      obtain ⟨_, _, hbase⟩ := Stack.link_dependable.attached hl.unattached.1 hleft
      have henrolled := Tcp.enrolled hbase
      generalize Stack.linkOutlook.base p = tcp at henrolled
      cases henrolled with
      | done _ hadd =>
        -- the other socket is the only one that is registered
        rw [Reactor.isRegistered_of_add OrderedMap.wellFormed_empty hadd] at hregistered
        have honly : (decide (right.base.fd = left.base.fd) || false) = true := hregistered
        rw [Bool.or_false, decide_eq_true_eq] at honly
        exact ⟨rfl, honly.symm⟩
    · cases hdone

end Attaching

theorem Bridge.resting_attached {N C : Type} [Sockets N] {callback : Side → C} {b b' : Bridge Link}
    {w w' : Host N C} {result : Except Failure Unit} (hw : w.reactor.Resting)
    (h : Attached callback b w result b' w') : w'.reactor.Resting := by
  have hasked : w.reactor.Asked (fun _ => True) w'.reactor := by
    cases h with
    | refused _ hl => exact asked_attach Stack.outlook_lawful hl
    | done _ hl hr =>
      exact (asked_attach Stack.outlook_lawful hl).trans (asked_attach Stack.outlook_lawful hr)
  exact hasked.keeps hw fun _ hr hperformed => Reactor.resting_performed hr hperformed

namespace Relay

variable {N : Type}

theorem obeys_invoke [Sockets N] : Reactor.Obeys (invoke (N := N)) := by
  intro side events r w r' w' h
  obtain ⟨⟨ending, bridge, host⟩, hact, heq⟩ := Checked.bind_eq_ok_iff.mp h
  cases heq
  obtain ⟨requests, _, hperform⟩ := Bridge.worldRelation_asked.acted (Bridge.acted hact)
  exact ⟨requests, hperform⟩

/-- The bridge of a relay is in order, and fit to go on unless it ended. -/
def Fit (own : Fd → Prop) (size : Nat) (r : Reactor Side) (w : World N) : Prop :=
  ∃ b : Bridge (Logged Link), b.mapPipes Logged.pipe = w.bridge ∧ b.Proper size ∧
    (b.dead = false → b.Fit (Stack.linkOutlook.erased Logged.pipe) own r)

variable {own : Fd → Prop} {size : Nat} {r r' : Reactor Side} {w w' : World N}

theorem Fit.stillKnows (h : Fit own size r w) (hr : r.StillKnows r') : Fit own size r' w := by
  obtain ⟨b, hb, hproper, hfit⟩ := h
  refine ⟨b, hb, hproper, fun hd s => ?_⟩
  exact { hfit hd s with listed := fun hattached => hr _ ((hfit hd s).listed hattached) }

variable [Sockets N] [LawfulSockets N]

theorem Fit.invoked {side : Side} {events : SocketEvents} (h : Fit own size r w)
    (hi : invoke side events r w = .ok (r', w')) : Fit own size r' w' := by
  obtain ⟨b, hb, hproper, hfit⟩ := h
  have herases := Logged.erases (P := Link) (W := Host N Side) (C := Side)
  have hlinks := (Stack.link_dependable (N := N) (C := Side)).erased herases
  obtain ⟨⟨ending, b', host⟩, hact, heq⟩ := Checked.bind_eq_ok_iff.mp hi
  cases heq
  rw [← hb, Bridge.onActivity_mapPipes herases] at hact
  obtain ⟨⟨_, logged, _⟩, hlogged, heq⟩ := Checked.map_eq_ok_iff.mp hact
  cases heq
  obtain ⟨hproper', hfit'⟩ := Bridge.proper_acted hlinks hproper hfit (Bridge.acted hlogged)
  exact ⟨logged, rfl, hproper', hfit'⟩

theorem Fit.invoke_error {side : Side} {events : SocketEvents} {v : Violation}
    (h : Fit own size r w) (hi : invoke side events r w = .error v) :
    Exempt N Datagram.Holdable size v := by
  obtain ⟨b, hb, hproper, hfit⟩ := h
  have herases := Logged.erases (P := Link) (W := Host N Side) (C := Side)
  have hlinks := (Stack.link_dependable (N := N) (C := Side)).erased herases
  rcases Checked.bind_eq_error_iff.mp hi with hact | ⟨_, _, hdone⟩
  · rw [← hb, Bridge.onActivity_mapPipes herases, Checked.map_eq_error_iff] at hact
    exact Bridge.onActivity_error hlinks hproper hfit hact
  · cases hdone

variable [Polls N]

/-- Passes of a relay are stopped by nothing but what an activity may be stopped by. -/
theorem drive_error {statusInterval : Nat} {others : List (N → N)} {v : Violation}
    (hinterval : statusInterval ≠ 0) (hr : r.Resting) (hw : Fit own size r w)
    (h : drive statusInterval others r w = .error v) : Exempt N Datagram.Holdable size v := by
  induction others generalizing r w with
  | nil => cases h
  | cons act others ih =>
    unfold drive at h
    split at h
    · cases h
    have hacted : Fit own size r { w with net := act w.net } := hw
    obtain ⟨hstops, hgoes⟩ := Reactor.monitor_stillKnows (P := Fit own size)
      (Polls.poll · (act w.net)) obeys_invoke (fun hr h => h.stillKnows hr)
      (fun hi h => h.invoked hi) hr hacted
    rcases Checked.bind_eq_error_iff.mp h with hstop | ⟨⟨result, r', w'⟩, hpass, h⟩
    · obtain ⟨_, _, _, _, hfit, hinvoke⟩ := hstops v hstop
      exact hfit.invoke_error hinvoke
    · obtain ⟨hr', hw'⟩ := hgoes _ _ _ hpass
      cases result with
      | error e => cases h
      | ok n =>
        exact ih hr' hw' h

/-- Settings that can be used never run a relay into a contract. What is left are limits of the
system: bytes that were not announced, a buffer larger than any store, and connections that are one
and the same. -/
theorem run_error {c : RelayConfig} {others : List (N → N)} {accepted target : Fd} {net : N}
    {v : Violation} (hv : c.validate = .ok ())
    (h : run others c accepted target net = .error v) :
    Exempt N Datagram.Holdable c.bridge.bufferSize v ∨
      v = .registeredAlready target ∧ accepted = target := by
  obtain ⟨hbridge, hinterval, _⟩ := RelayConfig.usable_of_validate hv
  obtain ⟨hlinks, hl, hr⟩ := links_eq_ok hv accepted target
  generalize hleft : linked (.connected accepted) (c.limit .left) = left at hlinks hl
  generalize hright : linked (.connecting target) (c.limit .right) = right at hlinks hr
  unfold run at h
  rw [hlinks] at h
  simp only [Checked.ok_bind] at h
  rcases Bridge.between_cases left right hbridge with ⟨b, hb⟩ | ⟨hnone, hlarge⟩
  · rw [hb] at h
    simp only [Checked.ok_bind] at h
    rcases Checked.bind_eq_error_iff.mp h with hattach | ⟨⟨result, b₁, host⟩, hattach, h⟩
    · right
      have hstop := Bridge.attach_error hl hr hb hattach
      rwa [← hleft, ← hright, base_linked, base_linked] at hstop
    · obtain ⟨logged, hlogged, hproper, hfit⟩ :=
        Bridge.logged_of_attached hl hr hb OrderedMap.wellFormed_empty hattach
      have hresting := Bridge.resting_attached (w := { net, reactor := {} })
        ⟨Reactor.sound_new, .inl rfl⟩ (Bridge.attached hattach)
      cases result with
      | error e => cases h
      | ok _ =>
        rcases Checked.bind_eq_error_iff.mp h with hdrive | ⟨_, _, hdone⟩
        · have hready : Fit (sockets left right) c.bridge.bufferSize host.reactor
              { net := host.net, bridge := b₁ } :=
            ⟨logged, hlogged, hproper, fun _ => hfit⟩
          exact .inl (drive_error hinterval hresting hready hdrive)
        · cases hdone
  · rw [hnone] at h
    cases h
    refine .inl (.inr ⟨rfl, ?_⟩)
    unfold Datagram.Holdable
    omega

end Relay

end DuplexRelay
