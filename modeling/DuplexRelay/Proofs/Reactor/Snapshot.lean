import DuplexRelay.Proofs.Reactor.Delivery

/-! Passes as a whole. The notices of a pass are read off the registrations before it, and a pass
makes just the calls that they come to. -/

namespace DuplexRelay

/-- The table after a pass. Nothing is registered any more with a reactor that was discarded. -/
def Table.ended (t : Table) : Table := if t.discarded then ⟨fun _ => false, true⟩ else t

namespace Reactor

variable {C σ : Type} {r r' : Reactor C}

/-- What a pass has to tell, by ascending descriptors: of each registration the readiness that it
waits for, exceptional conditions and forced events, if there are any. -/
def notices (ready : Fd → SocketEvents) (r : Reactor C) : List (Notice C) :=
  r.registrations.toList.filterMap fun (fd, reg) =>
    let events := observed reg.interest (ready fd) ∪ reg.forced
    if events.isEmpty then none else reg.callback.map fun callback => ⟨fd, events, callback⟩

theorem notices_ascend (hr : r.registrations.WellFormed) (ready : Fd → SocketEvents) :
    (r.notices ready).Pairwise fun a b => a.fd < b.fd := by
  have hsorted := hr.entries_sorted
  unfold notices
  rw [hr.toList_eq, List.filterMap_map, List.pairwise_filterMap]
  refine hsorted.imp ?_
  intro x y hlt a ha b hb
  have hfd : ∀ {x : Handle × Fd × Registration C} {a : Notice C},
      (if (observed x.2.2.interest (ready x.2.1) ∪ x.2.2.forced).isEmpty then none else
        x.2.2.callback.map fun callback =>
          (⟨x.2.1, observed x.2.2.interest (ready x.2.1) ∪ x.2.2.forced, callback⟩ : Notice C)) =
        some a → a.fd = x.2.1 := by
    intro x a h
    split at h
    · cases h
    · rw [Option.map_eq_some_iff] at h
      obtain ⟨callback, _, rfl⟩ := h
      rfl
  rw [hfd ha, hfd hb]
  exact Int.compare_eq_lt.mp hlt

theorem entries_snapshot (ready : Fd → SocketEvents) (r : Reactor C) :
    (r.snapshot ready).entries = r.entries.map fun x => (x.1, x.2.1, { x.2.2 with
      pending := observed x.2.2.interest (ready x.2.1) ∪ x.2.2.forced, forced := .none }) :=
  OrderedMap.entries_mapValues _ r.registrations

theorem wellFormed_snapshot (hr : r.registrations.WellFormed) (ready : Fd → SocketEvents) :
    (r.snapshot ready).registrations.WellFormed := by
  dsimp only [snapshot]
  exact OrderedMap.wellFormed_mapValues _ hr

theorem sound_snapshot (hr : r.Sound none) (ready : Fd → SocketEvents) :
    (r.snapshot ready).Sound none := by
  refine ⟨wellFormed_snapshot hr.wf ready, ?_⟩
  intro id fd reg hx hcallback
  rw [entries_snapshot] at hx
  obtain ⟨⟨i, d, old⟩, hold, heq⟩ := List.mem_map.mp hx
  cases heq
  cases (hr.resting hold hcallback).1

theorem undelivered_snapshot (hr : r.registrations.WellFormed) (ready : Fd → SocketEvents) :
    (r.snapshot ready).undelivered = r.notices ready := by
  unfold undelivered notices
  rw [entries_snapshot, hr.toList_eq, List.filterMap_map, List.filterMap_map]
  rfl

theorem table_snapshot (hr : r.registrations.WellFormed) (ready : Fd → SocketEvents) :
    (r.snapshot ready).table = r.table := by
  have hregistered : (r.snapshot ready).isRegistered = r.isRegistered := by
    funext fd
    rw [Bool.eq_iff_iff, isRegistered_iff (wellFormed_snapshot hr ready),
      isRegistered_iff hr, entries_snapshot]
    simp
  unfold table
  rw [hregistered]
  rfl

theorem outstanding_eq (hr : r.Sound none) : r.outstanding = r.undelivered.length := by
  have hnotice : ∀ x ∈ r.entries, (noticeOf x.2.1 x.2.2).isSome = !x.2.2.pending.isEmpty := by
    rintro ⟨id, fd, reg⟩ hx
    cases hc : reg.callback with
    | none => cases (hr.resting hx hc).1
    | some callback => cases hp : reg.pending.isEmpty <;> simp [noticeOf, hc, hp]
  unfold outstanding undelivered
  rw [hr.wf.toList_eq, List.filter_map, List.length_map, List.length_filterMap_eq_countP,
    List.countP_eq_length_filter]
  congr 1
  apply List.filter_congr
  intro x hx
  exact (hnotice x hx).symm

theorem table_endPass (hr : r.registrations.WellFormed) (hb : r.Busy) :
    r.endPass.table = r.table.ended := by
  unfold endPass Table.ended
  rcases hb with hb | hb
  · have halive : r.table.discarded = false := by simp [table, isDisposed, hb]
    rw [if_neg (by simp [hb]), if_neg (by simp [halive])]
    simp only [table, isDisposed, hb]
    rfl
  · have hdiscarded : r.table.discarded = true := by simp [table, isDisposed, hb]
    have hnone : r.dispose.isRegistered = fun _ => false := by
      funext fd
      have hempty : r.dispose.entries = [] := OrderedMap.entries_drain hr
      have hwf : r.dispose.registrations.WellFormed := OrderedMap.wellFormed_drain hr
      cases hreg : r.dispose.isRegistered fd with
      | false => rfl
      | true =>
        obtain ⟨x, hx, _⟩ := (isRegistered_iff hwf).mp hreg
        rw [hempty] at hx
        cases hx
    rw [if_pos hb, if_pos hdiscarded]
    unfold table
    rw [hnone]
    rfl

/-- Between passes nothing is running. -/
structure Resting (r : Reactor C) : Prop where
  sound : r.Sound none
  still : r.phase = .idle ∨ r.phase = .disposed

theorem resting_performed {q : Request C} (hr : r.Resting) (h : Performed r q r') :
    r'.Resting := by
  refine ⟨sound_performed hr.sound h, ?_⟩
  cases h with
  | disposed => exact .inr rfl
  | deferred hp =>
    rcases hr.still with hs | hs <;> simp [hs] at hp
  | refused | ignored | absent | missed | added | modified | removed | forced => exact hr.still

theorem resting_endPass (hr : r.Sound none) : r.endPass.Resting := by
  unfold endPass
  split
  · refine ⟨⟨OrderedMap.wellFormed_drain hr.wf, ?_⟩, .inr rfl⟩
    intro id fd reg hx
    have hempty : r.dispose.entries = [] := OrderedMap.entries_drain hr.wf
    rw [hempty] at hx
    cases hx
  · exact ⟨⟨hr.wf, hr.resting⟩, .inl rfl⟩

/-- A reactor whose snapshot was taken, as a walk over it starts. -/
def begun (r : Reactor C) : Reactor C := { r with phase := .dispatching, touched := false }

inductive Monitored (poll : List Fd → Except OsError (Fd → SocketEvents))
    (invoke : C → SocketEvents → Reactor C → σ → Checked (Reactor C × σ)) (r : Reactor C) (s : σ) :
    Except Failure Nat → Reactor C → σ → Prop
  | refused (hp : r.phase = .disposed) : Monitored poll invoke r s (.error .reactorDiscarded) r s
  | failed {e : OsError} (hp : r.phase = .idle)
      (hs : settled (poll (r.registrations.toList.map (·.1))) = .error e) :
      Monitored poll invoke r s (.error (.selectFailed e)) r s
  | quiet {ready : Fd → SocketEvents} (hp : r.phase = .idle)
      (hs : settled (poll (r.registrations.toList.map (·.1))) = .ok ready)
      (hq : (r.anyReady ready || r.hasForced) = false) : Monitored poll invoke r s (.ok 0) r s
  | idle {ready : Fd → SocketEvents} (hp : r.phase = .idle)
      (hs : settled (poll (r.registrations.toList.map (·.1))) = .ok ready)
      (hn : (r.snapshot ready).outstanding = 0) :
      Monitored poll invoke r s (.ok 0) (r.snapshot ready) s
  | passed {ready : Fd → SocketEvents} {n : Nat} {r' : Reactor C} {s' : σ} (hp : r.phase = .idle)
      (hs : settled (poll (r.registrations.toList.map (·.1))) = .ok ready)
      (hd : dispatch invoke (r.snapshot ready).outstanding none (r.snapshot ready).begun s =
        .ok (n, r', s')) : Monitored poll invoke r s (.ok n) r'.endPass s'

theorem monitored {poll : List Fd → Except OsError (Fd → SocketEvents)}
    {invoke : C → SocketEvents → Reactor C → σ → Checked (Reactor C × σ)} {s s' : σ}
    {result : Except Failure Nat} (h : r.monitor poll invoke s = .ok (result, r', s')) :
    Monitored poll invoke r s result r' s' := by
  unfold monitor admitPass at h
  cases hp : r.phase with
  | dispatching => simp [hp] at h
  | pendingDispose => simp [hp] at h
  | disposed =>
    simp only [hp, Checked.ok_bind] at h
    cases h
    exact .refused hp
  | idle =>
    simp only [hp, Checked.ok_bind] at h
    cases hs : settled (poll (r.registrations.toList.map (·.1))) with
    | error e =>
      simp only [hs] at h
      cases h
      exact .failed hp hs
    | ok ready =>
      simp only [hs] at h
      split at h
      · simp only [Checked.bind_eq_ok_iff] at h
        obtain ⟨⟨n, r₁, s₁⟩, hpass, h⟩ := h
        cases h
        unfold pass at hpass
        dsimp only at hpass
        split at hpass
        · rename_i hn
          cases hpass
          exact .idle hp hs hn
        · simp only [Checked.bind_eq_ok_iff] at hpass
          obtain ⟨⟨k, r₂, s₂⟩, hd, hpass⟩ := hpass
          cases hpass
          exact .passed hp hs hd
      · rename_i hq
        cases h
        exact .quiet hp hs (by simpa using hq)

theorem dispatch_conserves {Q : σ → Prop}
    {invoke : C → SocketEvents → Reactor C → σ → Checked (Reactor C × σ)} {active n : Nat}
    {cursor : Option Handle} {s s' : σ}
    (hinvoke : ∀ {c e r s r' s'}, invoke c e r s = .ok (r', s') → Q s → Q s')
    (h : dispatch invoke active cursor r s = .ok (n, r', s')) (hs : Q s) : Q s' := by
  induction active generalizing cursor n r s with
  | zero =>
    cases h
    exact hs
  | succ active ih =>
    unfold dispatch at h
    split at h
    · cases h
      exact hs
    obtain ⟨⟨r₁, s₁⟩, hcall, h⟩ := Checked.bind_eq_ok_iff.mp h
    have hkept := hinvoke hcall hs
    dsimp only at h
    split at h
    · cases h
      exact hkept
    -- whether the walk starts over or goes on behind the call, what is left of it keeps the same
    split at h
    · obtain ⟨⟨m, r₂, s₂⟩, hrest, heq⟩ := Checked.bind_eq_ok_iff.mp h
      cases heq
      exact ih hrest hkept
    · obtain ⟨⟨m, r₂, s₂⟩, hrest, heq⟩ := Checked.bind_eq_ok_iff.mp h
      cases heq
      exact ih hrest hkept

/-- What is kept by each callback is kept by a pass. -/
theorem monitor_keeps {Q : σ → Prop}
    {invoke : C → SocketEvents → Reactor C → σ → Checked (Reactor C × σ)}
    {poll : List Fd → Except OsError (Fd → SocketEvents)} {s s' : σ}
    {result : Except Failure Nat}
    (hinvoke : ∀ {c e r s r' s'}, invoke c e r s = .ok (r', s') → Q s → Q s')
    (h : r.monitor poll invoke s = .ok (result, r', s')) (hs : Q s) : Q s' := by
  cases monitored h with
  | refused | failed | quiet | idle => exact hs
  | passed _ _ hd => exact dispatch_conserves hinvoke hd hs

theorem sound_begun {ready : Fd → SocketEvents} (hr : r.Sound none) :
    (r.snapshot ready).begun.Sound none :=
  ⟨(sound_snapshot hr ready).wf, (sound_snapshot hr ready).resting⟩

theorem resting_monitor {poll : List Fd → Except OsError (Fd → SocketEvents)}
    {invoke : C → SocketEvents → Reactor C → σ → Checked (Reactor C × σ)} (hi : Obeys invoke)
    {s s' : σ} {result : Except Failure Nat} (hr : r.Resting)
    (h : r.monitor poll invoke s = .ok (result, r', s')) : r'.Resting := by
  cases monitored h with
  | refused | failed | quiet => exact hr
  | idle hp => exact ⟨sound_snapshot hr.sound _, .inl hp⟩
  | @passed ready n r₁ s₁ hp hs hd =>
    have hcount : (r.snapshot ready).begun.undelivered.length ≤
        (r.snapshot ready).outstanding :=
      Nat.le_of_eq (outstanding_eq (sound_snapshot hr.sound ready)).symm
    have hkeeps : KeptByCalls invoke fun (_ : Reactor C) (_ : σ) => True :=
      ⟨fun h => h, fun _ _ h _ _ => h⟩
    obtain ⟨hsound, _⟩ := dispatch_keeps hi hkeeps (sound_begun hr.sound) (.inl rfl) trivial
      (nothingDueUpTo_none _) hcount hd
    exact resting_endPass hsound

/-- The reactors that come about by requests and passes, whatever callbacks do in them. -/
inductive Reached : Reactor C → Prop
  | new : Reached {}
  | requested {r r' : Reactor C} {q : Request C} (hr : Reached r) (h : q.perform r = .ok r') :
      Reached r'
  | monitored {σ : Type} {poll : List Fd → Except OsError (Fd → SocketEvents)}
      {invoke : C → SocketEvents → Reactor C → σ → Checked (Reactor C × σ)} {r r' : Reactor C}
      {s s' : σ} {result : Except Failure Nat} (hr : Reached r) (hi : Obeys invoke)
      (h : r.monitor poll invoke s = .ok (result, r', s')) : Reached r'

theorem Reached.resting (h : Reached r) : r.Resting := by
  induction h with
  | new => exact ⟨sound_new, .inl rfl⟩
  | requested _ h ih => exact resting_performed ih (performed h)
  | monitored _ hi h ih => exact resting_monitor hi ih h

theorem isEmpty_union {a b : SocketEvents} :
    (a ∪ b).isEmpty = (a.isEmpty && b.isEmpty) := by
  cases a with
  | mk r w e =>
    cases b with
    | mk r' w' e' =>
      cases r <;> cases w <;> cases e <;> cases r' <;> cases w' <;> cases e' <;> rfl

/-- Where nothing is ready and nothing forced, there is nothing to tell. -/
theorem notices_of_quiet {ready : Fd → SocketEvents}
    (h : (r.anyReady ready || r.hasForced) = false) : r.notices ready = [] := by
  simp only [Bool.or_eq_false_iff, anyReady, hasForced, List.any_eq_false] at h
  unfold notices
  rw [List.filterMap_eq_nil_iff]
  rintro ⟨fd, reg⟩ hx
  have hready := h.1 _ hx
  have hforced := h.2 _ hx
  simp only [Bool.not_eq_true', Bool.not_eq_false] at hready hforced
  simp [isEmpty_union, hready, hforced]

theorem Reached.performedAll {qs : List (Request C)} (hr : Reached r)
    (h : Request.performAll qs r = .ok r') : Reached r' := by
  induction qs generalizing r with
  | nil =>
    cases h
    exact hr
  | cons q rest ih =>
    obtain ⟨r₁, hq, h⟩ := Checked.bind_eq_ok_iff.mp h
    exact ih (.requested hr hq) h

/-- A pass over what some descriptors are ready for calls exactly what going once through the
notices comes to, in their order, and violates a contract exactly where that does. The notices are
those of the registrations before the pass, by strictly ascending descriptors, so no registration is
called twice, and none that came later is called at all. -/
theorem monitor_delivers_notices {poll : List Fd → Except OsError (Fd → SocketEvents)}
    {act : C → SocketEvents → σ → List (Request C) × σ} {ready : Fd → SocketEvents} {s : σ}
    (hr : Reached r) (hidle : r.phase = .idle)
    (hpoll : settled (poll (r.registrations.toList.map (·.1))) = .ok ready) :
    (r.monitor poll (scripted act) (s, [])).map (fun x => (x.1, x.2.1.table, x.2.2)) =
        (deliver act (r.notices ready) [] r.table s).map (fun x =>
          (.ok x.1.length, x.2.1.ended, x.2.2, x.1.map fun n => (n.callback, n.events))) ∧
      (r.notices ready).Pairwise (fun a b => a.fd < b.fd) ∧
      ∀ called t s', deliver act (r.notices ready) [] r.table s = .ok (called, t, s') →
        called.Sublist (r.notices ready) := by
  have hsound := hr.resting.sound
  refine ⟨?_, notices_ascend hsound.wf ready, fun _ _ _ => deliver_sublist⟩
  have halive : r.table.ended = r.table := by simp [Table.ended, table, isDisposed, hidle]
  have hallowed : r.admitPass = .ok (.ok ()) := by simp [admitPass, hidle]
  have hsnapshot := sound_snapshot hsound ready
  have hleft := undelivered_snapshot hsound.wf ready
  have htable := table_snapshot hsound.wf ready
  have hcount := outstanding_eq hsnapshot
  unfold monitor
  simp only [hallowed, Checked.ok_bind, hpoll]
  split
  · unfold pass
    dsimp only
    split
    · rename_i hnone
      have hnil : r.notices ready = [] := by
        rw [← hleft]
        exact List.eq_nil_of_length_eq_zero (hcount.symm.trans hnone)
      simp [hnil, deliver, htable, halive]
    · -- the walk starts at the first descriptor, with all notices before it
      have hstart : (r.snapshot ready).begun.phase = .dispatching := rfl
      have hbegun : (r.snapshot ready).begun.table = r.table := by
        rw [← htable]
        simp only [table, isDisposed, begun, snapshot, hidle]
        rfl
      have hwalk : (dispatch (scripted act) (r.snapshot ready).outstanding none
            (r.snapshot ready).begun (s, [])).map (fun x => (x.1, x.2.1.table, x.2.2)) =
          (deliver act (r.notices ready) [] r.table s).map fun x =>
            (x.1.length, x.2.1, x.2.2, [] ++ x.1.map fun n => (n.callback, n.events)) := by
        rw [← hleft, ← hbegun]
        exact dispatch_delivers (sound_begun hsound) hstart (nothingDueUpTo_none _)
          (Nat.le_of_eq hcount.symm)
      change Except.map _ ((dispatch (scripted act) (r.snapshot ready).outstanding none
        (r.snapshot ready).begun (s, []) >>= _) >>= _) = _
      cases hd : dispatch (scripted act) (r.snapshot ready).outstanding none
          (r.snapshot ready).begun (s, []) with
      | error v =>
        cases hdeliver : deliver act (r.notices ready) [] r.table s with
        | error u => simpa [hd, hdeliver] using hwalk
        | ok d => simp [hd, hdeliver] at hwalk
      | ok x =>
        cases hdeliver : deliver act (r.notices ready) [] r.table s with
        | error u => simp [hd, hdeliver] at hwalk
        | ok d =>
          have hkeeps : KeptByCalls (scripted act)
              fun (_ : Reactor C) (_ : σ × List (C × SocketEvents)) => True :=
            ⟨fun h => h, fun _ _ h _ _ => h⟩
          obtain ⟨hsound', hbusy', _⟩ := dispatch_keeps scripted_obeys hkeeps (sound_begun hsound)
            (.inl hstart) trivial (nothingDueUpTo_none _) (Nat.le_of_eq hcount.symm) hd
          simp only [hd, hdeliver, Checked.map_ok, Except.ok.injEq, Prod.mk.injEq,
            List.nil_append] at hwalk
          obtain ⟨hn, htable', hstate⟩ := hwalk
          simp only [Checked.ok_bind, Checked.pure_eq_ok, Checked.map_ok,
            table_endPass hsound'.wf hbusy', hn, htable', hstate]
  · rename_i hquiet
    have hnil : r.notices ready = [] := notices_of_quiet (by simpa using hquiet)
    simp [hnil, deliver, halive]

def threeRegistered : Checked (Reactor Nat) :=
  Request.performAll
    [.add 7 { readable := true } 70, .add 3 { readable := true } 30,
      .add 5 { readable := true } 50] {}

/-- The callback of the first one registers the second one anew. -/
def reRegistering (callback : Nat) (_ : SocketEvents) (s : Unit) : List (Request Nat) × Unit :=
  if callback = 30 then ([.del 5, .add 5 { readable := true } 51], s) else ([], s)

def allReadable (_ : Fd) : SocketEvents := { readable := true }

def delivered13 (r : Reactor Nat) : Bool :=
  (deliver reRegistering (r.notices allReadable) [] r.table ()).toOption.any fun x =>
    x.1.map (fun n => (n.callback, n.events)) =
      [(30, { readable := true }), (70, { readable := true })]

theorem threeRegistered_delivered :
    (threeRegistered.toOption.any fun r => r.phase = .idle && delivered13 r) = true := by
  decide +kernel

theorem monitor_delivers_notices_reused :
    ∃ r, threeRegistered = .ok r ∧ Reached r ∧ ∃ result t,
      (r.monitor (fun _ => .ok allReadable) (scripted reRegistering) ((), [])).map
          (fun x => (x.1, x.2.1.table, x.2.2)) =
        .ok (result, t, (), [(30, { readable := true }), (70, { readable := true })]) := by
  have hthree := threeRegistered_delivered
  cases hr : threeRegistered with
  | error v => simp [hr, Except.toOption] at hthree
  | ok r =>
    simp only [hr, Except.toOption, Option.any_some, Bool.and_eq_true, decide_eq_true_eq,
      delivered13] at hthree
    obtain ⟨hidle, hcalls⟩ := hthree
    have hreached : Reached r := Reached.performedAll .new hr
    refine ⟨r, rfl, hreached, ?_⟩
    obtain ⟨hpass, _⟩ := @monitor_delivers_notices Nat Unit r (fun _ => .ok allReadable)
      reRegistering allReadable () hreached hidle rfl
    rw [hpass]
    cases hd : deliver reRegistering (r.notices allReadable) [] r.table () with
    | error v => simp [hd] at hcalls
    | ok x =>
      simp only [hd, Option.any_some, decide_eq_true_eq] at hcalls
      exact ⟨_, _, by rw [Checked.map_ok, hcalls]⟩

end Reactor

end DuplexRelay
