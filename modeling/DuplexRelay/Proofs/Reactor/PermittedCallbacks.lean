import DuplexRelay.Proofs.Pipe.Answering
import DuplexRelay.Proofs.Reactor.ReachedBy

/-! Which callbacks are registered for which descriptors. The callback that is running counts, for
its registration is still there unless somebody removed it. -/

namespace DuplexRelay

namespace Request

variable {C D : Type}

/-- The same request with another callback. -/
def map (f : D → C) : Request D → Request C
  | add fd interest callback => .add fd interest (f callback)
  | modify fd interest => .modify fd interest
  | del fd => .del fd
  | reschedule fd events => .reschedule fd events
  | discard => .discard

@[simp] theorem removed_map (f : D → C) (q : Request D) : (q.map f).removed = q.removed := by
  cases q <;> rfl

theorem spares_map {f : D → C} {q : Request D} {fd : Fd} (h : q.Spares fd) :
    (q.map f).Spares fd := by
  cases q <;> exact h

theorem map_eq_discard {f : D → C} {q : Request D} (h : q.map f = .discard) : q = .discard := by
  cases q with
  | discard => rfl
  | add | modify | del | reschedule => cases h

def OnlyAdjustsOne (q : Request C) : Prop := ∃ fd, q.OnlyAdjusts fd

theorem OnlyAdjustsOne.removed {q : Request C} (h : q.OnlyAdjustsOne) : q.removed = [] := by
  obtain ⟨fd, h⟩ := h
  cases q with
  | del => cases h
  | add | modify | reschedule | discard => rfl

end Request

namespace Reactor

variable {C : Type} {X Y : C → Fd → Prop} {running : Option C} {r r' : Reactor C}

theorem Knows.performed {q : Request C} {fd : Fd} (h : r.Knows fd)
    (hr : r.registrations.WellFormed) (hq : q.Spares fd) (hperformed : Performed r q r') :
    r'.Knows fd := by
  rcases undisturbed_performed hr hq hperformed with hphase | hu
  · exact .inl hphase
  · rcases h with hphase | hreg
    · exact .inl (disposed_performed hphase hperformed)
    · obtain ⟨reg, hreg⟩ := Option.ne_none_iff_exists'.mp hreg
      obtain ⟨reg', hreg', _⟩ := hu reg hreg
      exact .inr (by simp [hreg'])

theorem Knows.asked {A : Request C → Prop} {fd : Fd} (h : r.Knows fd)
    (hr : r.registrations.WellFormed) (ha : ∀ q, A q → q.Spares fd) (hasked : Asked A r r') :
    r'.Knows fd := by
  have hkept : r'.registrations.WellFormed ∧ r'.Knows fd := by
    refine hasked.keeps (P := fun r => r.registrations.WellFormed ∧ r.Knows fd) ⟨hr, h⟩ ?_
    rintro r₁ q r₂ hq ⟨hwf, hknown⟩ hperformed
    exact ⟨wellFormed_performed hwf hperformed, hknown.performed hwf (ha q hq) hperformed⟩
  exact hkept.2

/-- Nobody discards a reactor but by asking for it. -/
theorem Asked.phase_or {A : Request C → Prop} (h : Asked A r r') :
    r'.phase = r.phase ∨ A .discard := by
  refine h.keeps (P := fun r₁ => r₁.phase = r.phase ∨ A .discard) (.inl rfl) ?_
  rintro r₁ q r₂ hq hold hperformed
  rcases phase_performed hperformed with hsame | ⟨rfl, _⟩
  · exact hold.imp_left hsame.trans
  · exact .inr hq

/-- The descriptor of a registration is one that its callback may be registered for. -/
def Permitted (X : C → Fd → Prop) (running : Option C) (r : Reactor C) : Prop :=
  ∀ x ∈ r.entries, ∀ callback, x.2.2.callback.or running = some callback → X callback x.2.1

theorem Permitted.mono (h : Permitted X running r)
    (hxy : ∀ callback fd, X callback fd → Y callback fd) :
    Permitted Y running r :=
  fun x hx callback hcallback => hxy _ _ (h x hx callback hcallback)

theorem Permitted.undelivered (h : Permitted X none r) {n : Notice C} (hn : n ∈ r.undelivered) :
    X n.callback n.fd := by
  obtain ⟨x, hx, hnotice⟩ := List.mem_filterMap.mp hn
  unfold noticeOf at hnotice
  split at hnotice
  · cases hnotice
  · obtain ⟨callback, hcallback, rfl⟩ := Option.map_eq_some_iff.mp hnotice
    exact h x hx callback (by rw [hcallback, Option.some_or])

theorem permitted_of_entries (h : r.entries = []) : Permitted X running r := by
  intro x hx
  rw [h] at hx
  cases hx

theorem permitted_quiet {f : Registration C → Registration C} (hf : Quiet f) {id : Handle}
    (h : Permitted X running r) : Permitted X running (r.update id f) := by
  rintro ⟨i, fd, reg⟩ hx callback hcallback
  obtain ⟨old, hold, rfl⟩ := mem_entries_update hx
  refine h _ hold callback ?_
  dsimp only at hcallback
  split at hcallback
  · rwa [(hf old).1] at hcallback
  · exact hcallback

theorem permitted_performed {q : Request C} (hr : r.registrations.WellFormed)
    (hq : ∀ fd interest callback, q = .add fd interest callback → X callback fd)
    (h : Permitted X running r) (hperformed : Performed r q r') : Permitted X running r' := by
  cases hperformed with
  | refused | ignored | absent | missed | deferred => exact h
  | added _ _ hi =>
    intro x hx callback hcallback
    rcases ((entries_added hr hi).1 _).mp hx with rfl | hx
    · cases hcallback
      exact hq _ _ _ rfl
    · exact h x hx callback hcallback
  | modified => exact permitted_quiet (quiet_interest _) h
  | removed hfind =>
    intro x hx callback hcallback
    unfold entries at hx
    rw [entries_removed hr hfind] at hx
    exact h x (List.mem_of_mem_filter hx) callback hcallback
  | forced => exact permitted_quiet (quiet_forced _) h
  | disposed => exact permitted_of_entries (OrderedMap.entries_drain hr)

theorem Asked.permitted {A : Request C → Prop} (h : Asked A r r') (hr : r.registrations.WellFormed)
    (ha : ∀ fd interest callback, A (.add fd interest callback) → X callback fd)
    (hx : Permitted X running r) : Permitted X running r' := by
  have hkept : r'.registrations.WellFormed ∧ Permitted X running r' := by
    refine h.keeps (P := fun r => r.registrations.WellFormed ∧ Permitted X running r) ⟨hr, hx⟩ ?_
    rintro r₁ q r₂ hq ⟨hwf, hold⟩ hperformed
    refine ⟨wellFormed_performed hwf hperformed, permitted_performed hwf ?_ hold hperformed⟩
    rintro fd interest callback rfl
    exact ha fd interest callback hq
  exact hkept.2

theorem permitted_takeDue {due : Due C} (hr : r.Sound none) (hdue : r.nextDue? none = some due)
    (h : Permitted X none r) : Permitted X (some due.callback) (r.takeDue due.id) := by
  obtain ⟨d, reg, before, after, hsplit, _, hnotice⟩ := nextDue?_split hr.wf hdue
  have hfirst : (due.id, d, reg) ∈ r.entries := by
    rw [hsplit]
    simp
  have hrunning : reg.callback = some due.callback := by
    unfold noticeOf at hnotice
    split at hnotice
    · cases hnotice
    · obtain ⟨callback, hcallback, heq⟩ := Option.map_eq_some_iff.mp hnotice
      rw [Notice.mk.injEq] at heq
      rw [hcallback, heq.2.2]
  rintro ⟨i, fd, new⟩ hx callback hcallback
  obtain ⟨old, hold, rfl⟩ := mem_entries_update hx
  refine h _ hold callback ?_
  by_cases hi : i = due.id
  · subst hi
    have hsame := hr.wf.mem_entries.mp hfirst
    rw [hr.wf.mem_entries.mp hold, Option.some.injEq, Prod.mk.injEq] at hsame
    rw [if_pos rfl] at hcallback
    rwa [hsame.2, hrunning, Option.some_or]
  · rw [if_neg hi] at hcallback
    cases hc : old.callback with
    | none => cases (hr.resting hold hc).1
    | some c => rwa [hc] at hcallback

theorem permitted_putBack {id : Handle} {callback : C} (h : Permitted X (some callback) r) :
    Permitted X none (r.putBack id callback) := by
  rintro ⟨i, fd, new⟩ hx c hc
  obtain ⟨old, hold, rfl⟩ := mem_entries_update hx
  refine h _ hold c ?_
  rw [Option.or_none] at hc
  dsimp only at hc
  split at hc
  · exact hc
  · rw [hc, Option.some_or]

theorem permitted_begun (ready : Fd → SocketEvents) (h : Permitted X running r) :
    Permitted X running (r.snapshot ready).begun := by
  intro x hx callback hcallback
  change x ∈ (r.snapshot ready).entries at hx
  rw [entries_snapshot] at hx
  obtain ⟨y, hy, rfl⟩ := List.mem_map.mp hx
  exact h y hy callback hcallback

theorem permitted_endPass (hr : r.registrations.WellFormed) (h : Permitted X running r) :
    Permitted X running r.endPass := by
  unfold endPass
  split
  · exact permitted_of_entries (OrderedMap.entries_drain hr)
  · exact h

theorem permitted_del (hr : r.registrations.WellFormed) (fd : Fd) (h : Permitted X running r) :
    Permitted (fun callback d => X callback d ∧ d ≠ fd) running (r.del fd) := by
  intro x hx callback hcallback
  unfold del at hx
  cases hfind : r.registrations.find? fd with
  | none =>
    rw [hfind] at hx
    refine ⟨h x hx callback hcallback, fun heq => ?_⟩
    have hne := hr.find?_eq_none_iff.mp hfind x hx
    rw [ne_eq, Std.LawfulEqCmp.compare_eq_iff_eq] at hne
    exact hne heq.symm
  | some id =>
    rw [hfind] at hx
    change x ∈ (r.registrations.erase id).2.entries at hx
    rw [entries_removed hr hfind, List.mem_filter, decide_eq_true_eq] at hx
    exact ⟨h x hx.1 callback hcallback, hx.2⟩

theorem isRegistered_del {id : Option Handle} (hr : r.Sound id) (hb : r.Busy) (fd d : Fd) :
    (r.del fd).isRegistered d = (d ≠ fd && r.isRegistered d) := by
  have htable := table_perform hr hb (.del fd)
  change Except.ok (r.del fd).table = Except.ok _ at htable
  rw [Except.ok.injEq] at htable
  exact congrFun (congrArg Table.registered htable) d

theorem Permitted.registration? (h : Permitted X none r) (hr : r.registrations.WellFormed) {fd : Fd}
    {reg : Registration C} {callback : C} (hreg : r.registration? fd = some reg)
    (hcallback : reg.callback = some callback) : X callback fd := by
  obtain ⟨id, hx⟩ := (registration?_eq_some_iff hr).mp hreg
  exact h _ hx callback (by rw [hcallback, Option.some_or])

end Reactor

end DuplexRelay
