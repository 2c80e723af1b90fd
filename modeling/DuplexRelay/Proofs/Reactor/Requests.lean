import DuplexRelay.Reactor.Pass
import DuplexRelay.Proofs.Checked
import DuplexRelay.Proofs.OrderedMap.Erase
import DuplexRelay.Proofs.OrderedMap.Insert
import DuplexRelay.Proofs.OrderedMap.Values

/-! What a callback can do to the reactor that runs it. Each request is told by what it does to the
list of registrations, to the descriptors that are registered, and to what was not delivered yet. -/

namespace DuplexRelay

instance : Std.TransCmp Fd.order := inferInstanceAs (Std.TransCmp (compare : Int → Int → Ordering))

instance : Std.LawfulEqCmp Fd.order :=
  inferInstanceAs (Std.LawfulEqCmp (compare : Int → Int → Ordering))

theorem SocketEvents.isEmpty_iff {e : SocketEvents} : e.isEmpty = true ↔ e = .none := by
  cases e with
  | mk readable writable error => cases readable <;> cases writable <;> cases error <;> decide

/-- What a callback may ask of the reactor that runs it. -/
inductive Request (C : Type) where
  | add (fd : Fd) (interest : SocketEvents) (callback : C)
  | modify (fd : Fd) (interest : SocketEvents)
  | del (fd : Fd)
  | reschedule (fd : Fd) (events : SocketEvents)
  | discard

/-- Which descriptors are registered, and whether the reactor was discarded. -/
structure Table where
  registered : Fd → Bool
  discarded : Bool

namespace Request

variable {C : Type}

/-- Does what is asked for. A registration that is refused changes nothing. -/
def perform : Request C → Reactor C → Checked (Reactor C)
  | add fd interest callback, r =>
    (r.add fd interest callback).map fun
      | .ok r => r
      | .error _ => r
  | modify fd interest, r => r.modify fd interest
  | del fd, r => .ok (r.del fd)
  | reschedule fd events, r => .ok (r.reschedule fd events).2
  | discard, r => r.discard

def performAll : List (Request C) → Reactor C → Checked (Reactor C)
  | [], r => .ok r
  | q :: rest, r => do performAll rest (← q.perform r)

/-- The descriptors whose registrations are to be removed. -/
def removed : Request C → List Fd
  | del fd => [fd]
  | _ => []

/-- What a request does to the descriptors that are registered. -/
def enter : Request C → Table → Checked Table
  | add fd _ _, t =>
    if t.discarded || !Reactor.selectable fd then .ok t
    else if t.registered fd then .error (.registeredAlready fd)
    else .ok { t with registered := fun d => d = fd || t.registered d }
  | modify fd _, t => if t.registered fd then .ok t else .error (.notRegistered fd)
  | del fd, t => .ok { t with registered := fun d => d ≠ fd && t.registered d }
  | reschedule _ _, t => .ok t
  | discard, t => if t.discarded then .error .discardedTwice else .ok { t with discarded := true }

/-- What requests do to the descriptors that are registered. -/
def enterAll : List (Request C) → Table → Checked Table
  | [], t => .ok t
  | q :: rest, t => do enterAll rest (← q.enter t)

end Request

namespace Reactor

variable {C : Type} {r r' : Reactor C} {id : Handle} {fd : Fd} {reg : Registration C}

/-- All registrations by ascending descriptors, with their handles. -/
def entries (r : Reactor C) : List (Handle × Fd × Registration C) := r.registrations.entries

/-- The registrations are well-formed, and only the one that is running lacks its callback. That one
has nothing to be told. -/
structure Sound (running : Option Handle) (r : Reactor C) : Prop where
  wf : r.registrations.WellFormed
  resting : ∀ {id fd reg}, (id, fd, reg) ∈ r.entries → reg.callback = none →
    running = some id ∧ reg.pending = .none

theorem sound_new : Sound none ({} : Reactor C) := by
  refine ⟨OrderedMap.wellFormed_empty, ?_⟩
  intro id fd reg h
  simp [entries, OrderedMap.entries, OrderedMap.empty] at h

theorem isRegistered_iff (hr : r.registrations.WellFormed) :
    r.isRegistered fd = true ↔ ∃ x ∈ r.entries, x.2.1 = fd := by
  unfold isRegistered entries
  rw [Option.isSome_iff_exists]
  simp only [hr.find?_eq_some_iff, Std.LawfulEqCmp.compare_eq_iff_eq]
  constructor
  · rintro ⟨id, e, hx, rfl⟩
    exact ⟨(id, e), hx, rfl⟩
  · rintro ⟨x, hx, rfl⟩
    exact ⟨x.1, x.2, hx, rfl⟩

/-- Something that a callback must be told. -/
structure Notice (C : Type) where
  fd : Fd
  events : SocketEvents
  callback : C

/-- What a registration must be told, if anything. -/
def noticeOf (fd : Fd) (reg : Registration C) : Option (Notice C) :=
  if reg.pending.isEmpty then none else reg.callback.map fun callback => ⟨fd, reg.pending, callback⟩

/-- What was not delivered yet, in the order of delivery. -/
def undelivered (r : Reactor C) : List (Notice C) :=
  r.entries.filterMap fun x => noticeOf x.2.1 x.2.2

theorem noticeOf_none (hp : reg.pending = .none) : noticeOf fd reg = none := by
  simp [noticeOf, hp, SocketEvents.isEmpty_iff]

theorem noticeOf_fd {n : Notice C} (h : noticeOf fd reg = some n) : n.fd = fd := by
  unfold noticeOf at h
  split at h
  · cases h
  · rw [Option.map_eq_some_iff] at h
    obtain ⟨callback, _, rfl⟩ := h
    rfl

theorem entries_update (id : Handle) (f : Registration C → Registration C) (r : Reactor C) :
    (r.update id f).entries =
      r.entries.map fun x => if x.1 = id then (x.1, x.2.1, f x.2.2) else x :=
  OrderedMap.entries_modify f r.registrations id

theorem mem_entries_update {f : Registration C → Registration C} {i : Handle}
    (h : (i, fd, reg) ∈ (r.update id f).entries) :
    ∃ old, (i, fd, old) ∈ r.entries ∧ reg = if i = id then f old else old := by
  rw [entries_update, List.mem_map] at h
  obtain ⟨⟨j, d, old⟩, hx, heq⟩ := h
  dsimp only at heq
  split at heq
  · rename_i hj
    cases heq
    exact ⟨old, hx, by rw [if_pos hj]⟩
  · rename_i hj
    cases heq
    exact ⟨reg, hx, by rw [if_neg hj]⟩

/-- A change that leaves callbacks and undelivered events alone. -/
def Quiet (f : Registration C → Registration C) : Prop :=
  ∀ reg, (f reg).callback = reg.callback ∧ (f reg).pending = reg.pending

theorem quiet_interest (interest : SocketEvents) :
    Quiet fun reg : Registration C => { reg with interest } := fun _ => ⟨rfl, rfl⟩

theorem quiet_forced (events : SocketEvents) :
    Quiet fun reg : Registration C => { reg with forced := reg.forced ∪ events } :=
  fun _ => ⟨rfl, rfl⟩

theorem noticeOf_quiet {f : Registration C → Registration C} (hf : Quiet f) (fd : Fd)
    (reg : Registration C) : noticeOf fd (f reg) = noticeOf fd reg := by
  unfold noticeOf
  rw [(hf reg).1, (hf reg).2]

theorem undelivered_update {f : Registration C → Registration C}
    (h : ∀ fd reg, (id, fd, reg) ∈ r.entries → noticeOf fd (f reg) = noticeOf fd reg) :
    (r.update id f).undelivered = r.undelivered := by
  unfold undelivered
  rw [entries_update, List.filterMap_map]
  apply List.filterMap_congr
  rintro ⟨i, fd, reg⟩ hx
  simp only [Function.comp_apply]
  split
  · rename_i hi
    rw [hi] at hx
    exact h fd reg hx
  · rfl

theorem undelivered_quiet {f : Registration C → Registration C} (hf : Quiet f) (id : Handle)
    (r : Reactor C) : (r.update id f).undelivered = r.undelivered :=
  undelivered_update fun fd reg _ => noticeOf_quiet hf fd reg

theorem sound_update {f : Registration C → Registration C} (hf : Quiet f) {running : Option Handle}
    (hr : r.Sound running) : (r.update id f).Sound running := by
  refine ⟨OrderedMap.wellFormed_modify f hr.wf id, ?_⟩
  intro i fd reg hx hcallback
  obtain ⟨old, hold, rfl⟩ := mem_entries_update hx
  split at hcallback
  · rw [if_pos (by assumption), (hf old).2]
    rw [(hf old).1] at hcallback
    exact hr.resting hold hcallback
  · rw [if_neg (by assumption)]
    exact hr.resting hold hcallback

theorem isRegistered_update (hr : r.registrations.WellFormed)
    (f : Registration C → Registration C) : (r.update id f).isRegistered = r.isRegistered := by
  funext fd
  rw [Bool.eq_iff_iff, isRegistered_iff (OrderedMap.wellFormed_modify f hr id),
    isRegistered_iff hr, entries_update]
  constructor
  · rintro ⟨x, hx, rfl⟩
    obtain ⟨y, hy, rfl⟩ := List.mem_map.mp hx
    refine ⟨y, hy, ?_⟩
    split <;> rfl
  · rintro ⟨y, hy, rfl⟩
    refine ⟨_, List.mem_map_of_mem hy, ?_⟩
    split <;> rfl

inductive Performed (r : Reactor C) : Request C → Reactor C → Prop
  | refused {fd : Fd} {interest : SocketEvents} {callback : C}
      (h : r.isDisposed = true ∨ selectable fd = false) :
      Performed r (.add fd interest callback) r
  | added {fd : Fd} {interest : SocketEvents} {callback : C} {id : Handle}
      {registrations : OrderedMap Fd (Registration C) Fd.order} (hd : r.isDisposed = false)
      (hs : selectable fd = true)
      (hi : r.registrations.insert fd { interest, callback := some callback } =
        (.added id, registrations)) :
      Performed r (.add fd interest callback) { r with registrations, touched := true }
  | ignored {fd : Fd} {interest : SocketEvents} (h : r.phase = .disposed) :
      Performed r (.modify fd interest) r
  | modified {fd : Fd} {interest : SocketEvents} {id : Handle}
      (h : r.registrations.find? fd = some id) :
      Performed r (.modify fd interest) (r.update id ({ · with interest }))
  | absent {fd : Fd} (h : r.registrations.find? fd = none) : Performed r (.del fd) r
  | removed {fd : Fd} {id : Handle} (h : r.registrations.find? fd = some id) :
      Performed r (.del fd)
        { r with registrations := (r.registrations.erase id).2, touched := true }
  | missed {fd : Fd} {events : SocketEvents} (h : r.registrations.find? fd = none) :
      Performed r (.reschedule fd events) r
  | forced {fd : Fd} {events : SocketEvents} {id : Handle}
      (h : r.registrations.find? fd = some id) :
      Performed r (.reschedule fd events)
        (r.update id fun reg => { reg with forced := reg.forced ∪ events })
  | disposed (h : r.phase = .idle) : Performed r .discard r.dispose
  | deferred (h : r.phase = .dispatching) :
      Performed r .discard { r with phase := .pendingDispose }

theorem performed_add {interest : SocketEvents} {callback : C}
    (h : (Request.add fd interest callback).perform r = .ok r') :
    Performed r (.add fd interest callback) r' := by
  obtain ⟨result, h, heq⟩ := Checked.map_eq_ok_iff.mp h
  unfold add at h
  cases hd : r.isDisposed with
  | true =>
    simp only [hd, if_true, Except.ok.injEq] at h
    subst h heq
    exact .refused (.inl hd)
  | false =>
    cases hs : selectable fd with
    | false =>
      simp only [hd, hs, Bool.false_eq_true, if_false, Bool.not_false, if_true,
        Except.ok.injEq] at h
      subst h heq
      exact .refused (.inr hs)
    | true =>
      simp only [hd, hs, Bool.false_eq_true, if_false, Bool.not_true] at h
      split at h
      · cases h
      · rename_i id registrations hi
        simp only [Except.ok.injEq] at h
        subst h heq
        exact .added hd hs hi

theorem performed {q : Request C} (h : q.perform r = .ok r') : Performed r q r' := by
  cases q with
  | add fd interest callback => exact performed_add h
  | modify fd interest =>
    replace h : r.modify fd interest = .ok r' := h
    unfold modify at h
    split at h
    · rename_i hp
      cases h
      exact .ignored hp
    · split at h
      · rename_i id hfind
        cases h
        exact .modified hfind
      · cases h
  | del fd =>
    replace h : (.ok (r.del fd) : Checked (Reactor C)) = .ok r' := h
    unfold del at h
    cases hfind : r.registrations.find? fd with
    | none =>
      simp only [hfind, Except.ok.injEq] at h
      subst h
      exact .absent hfind
    | some id =>
      simp only [hfind, Except.ok.injEq] at h
      subst h
      exact .removed hfind
  | reschedule fd events =>
    replace h : (.ok (r.reschedule fd events).2 : Checked (Reactor C)) = .ok r' := h
    unfold reschedule at h
    cases hfind : r.registrations.find? fd with
    | none =>
      simp only [hfind, Except.ok.injEq] at h
      subst h
      exact .missed hfind
    | some id =>
      simp only [hfind, Except.ok.injEq] at h
      subst h
      exact .forced hfind
  | discard =>
    replace h : r.discard = .ok r' := h
    unfold discard at h
    split at h
    · rename_i hp
      cases h
      exact .disposed hp
    · rename_i hp
      cases h
      exact .deferred hp
    · cases h
    · cases h

theorem entries_added {interest : SocketEvents} {callback : C}
    {registrations : OrderedMap Fd (Registration C) Fd.order} (hr : r.registrations.WellFormed)
    (hi : r.registrations.insert fd { interest, callback := some callback } =
      (.added id, registrations)) :
    (∀ x, x ∈ registrations.entries ↔
      x = (id, fd, { interest, callback := some callback }) ∨ x ∈ r.entries) ∧
    (registrations.entries.filterMap fun x => noticeOf x.2.1 x.2.2) = r.undelivered := by
  have habsent := OrderedMap.absent_of_added hi
  rw [hr.find?_eq_none_iff] at habsent
  have hsplit : ∀ x ∈ r.registrations.entries,
      Fd.order fd x.2.1 = .gt ∨ Fd.order fd x.2.1 = .lt := by
    intro x hx
    have hne := habsent x hx
    cases hc : Fd.order fd x.2.1 <;> simp_all
  rw [OrderedMap.entries_added hr hi]
  constructor
  · intro x
    simp only [List.mem_append, List.mem_cons, List.mem_filter, decide_eq_true_eq, entries]
    constructor
    · rintro (⟨hx, _⟩ | hx | ⟨hx, _⟩)
      · exact .inr hx
      · exact .inl hx
      · exact .inr hx
    · rintro (hx | hx)
      · exact .inr (.inl hx)
      · rcases hsplit x hx with hgt | hlt
        · exact .inl ⟨hx, hgt⟩
        · exact .inr (.inr ⟨hx, hlt⟩)
  · have hold := OrderedMap.filter_gt_append_filter_lt hr habsent
    unfold undelivered entries
    rw [List.filterMap_append, List.filterMap_cons, noticeOf_none rfl, ← List.filterMap_append,
      hold]

theorem entries_removed (hr : r.registrations.WellFormed)
    (h : r.registrations.find? fd = some id) :
    (r.registrations.erase id).2.entries = r.entries.filter (·.2.1 ≠ fd) := by
  obtain ⟨e, hx, he⟩ := hr.find?_eq_some_iff.mp h
  rw [Std.LawfulEqCmp.compare_eq_iff_eq] at he
  rw [OrderedMap.entries_erase hr]
  apply List.filter_congr
  rintro ⟨i, d, reg⟩ hy
  have hsame : i = id ↔ d = fd := by
    constructor
    · rintro rfl
      have hentry := hr.mem_entries.mp hx
      rw [hr.mem_entries.mp hy] at hentry
      cases hentry
      exact he.symm
    · rintro rfl
      have hfind : r.registrations.find? d = some i :=
        hr.find?_eq_some_iff.mpr ⟨(d, reg), hy, Std.ReflCmp.compare_self⟩
      rw [h] at hfind
      exact (Option.some.inj hfind).symm
  simp [hsame]

theorem wellFormed_performed {q : Request C} (hr : r.registrations.WellFormed)
    (h : Performed r q r') : r'.registrations.WellFormed := by
  cases h with
  | refused | ignored | absent | missed | deferred => exact hr
  | added _ _ hi => exact OrderedMap.wellFormed_added hr hi
  | modified | forced => exact OrderedMap.wellFormed_modify _ hr _
  | removed => exact OrderedMap.wellFormed_erase hr _
  | disposed => exact OrderedMap.wellFormed_drain hr

theorem sound_performed {running : Option Handle} {q : Request C} (hr : r.Sound running)
    (h : Performed r q r') : r'.Sound running := by
  refine ⟨wellFormed_performed hr.wf h, ?_⟩
  intro id fd reg hx hcallback
  cases h with
  | refused | ignored | absent | missed | deferred => exact hr.resting hx hcallback
  | added hd hs hi =>
    rcases ((entries_added hr.wf hi).1 _).mp hx with heq | hx
    · cases heq
      cases hcallback
    · exact hr.resting hx hcallback
  | modified => exact (sound_update (quiet_interest _) hr).resting hx hcallback
  | removed hfind =>
    unfold entries at hx
    rw [entries_removed hr.wf hfind] at hx
    exact hr.resting (List.mem_of_mem_filter hx) hcallback
  | forced => exact (sound_update (quiet_forced _) hr).resting hx hcallback
  | disposed =>
    unfold entries dispose at hx
    rw [OrderedMap.entries_drain hr.wf] at hx
    cases hx

end Reactor

end DuplexRelay
