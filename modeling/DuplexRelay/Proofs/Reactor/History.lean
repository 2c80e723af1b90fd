import DuplexRelay.Proofs.Reactor.Registrations

/-! What happens to a reactor, from its first registration on. A history has a moment for each
request that was answered, for each snapshot, and for each callback that was called. What a reactor
knows of a descriptor can be read off its history. -/

namespace DuplexRelay

/-- What can happen to a reactor. -/
inductive Event (C : Type) where
  | added (fd : Fd) (interest : SocketEvents) (callback : C)
  | refused (fd : Fd) (e : Failure)
  | modified (fd : Fd) (interest : SocketEvents)
  | removed (fd : Fd)
  | forced (fd : Fd) (events : SocketEvents)
  /-- events were to be forced for a descriptor that is not registered -/
  | missed (fd : Fd)
  | discarded
  /-- a snapshot was taken -/
  | looked
  | called (fd : Fd) (events : SocketEvents) (callback : C)

/-- Something that happened, and the reactor right after it. -/
structure Moment (C : Type) where
  event : Event C
  reactor : Reactor C

/-- All that happened, the first moment first. -/
abbrev History (C : Type) := List (Moment C)

/-- What a registered descriptor waits for, and the events that were forced for it since the last
snapshot. -/
structure Standing where
  interest : SocketEvents
  owed : SocketEvents := .none

namespace Event

variable {C : Type}

/-- What an event does to the standing of a descriptor. -/
def note (fd : Fd) : Event C → Option Standing → Option Standing
  | added d interest _, x => if d = fd then some { interest } else x
  | modified d interest, x => if d = fd then x.map ({ · with interest }) else x
  | removed d, x => if d = fd then none else x
  | forced d events, x =>
    if d = fd then x.map fun y => { y with owed := y.owed ∪ events } else x
  | looked, x => x.map ({ · with owed := .none })
  | refused .., x | missed _, x | discarded, x | called .., x => x

/-- The descriptors that are not to be told any more in the present pass. -/
def spent : Event C → List Fd
  | removed fd | called fd .. => [fd]
  | _ => []

/-- The reactor was discarded. -/
def isDiscard : Event C → Bool
  | discarded => true
  | _ => false

/-- A callback was called. -/
def isCall : Event C → Bool
  | called .. => true
  | _ => false

/-- What can still happen to a reactor that was discarded. -/
def Late : Event C → Prop
  | refused _ e => e = .reactorDiscarded
  | modified .. | removed _ | forced .. | missed _ => True
  | added .. | discarded | looked | called .. => False

end Event

namespace History

variable {C : Type}

/-- The standing of a descriptor after all that happened, if it is registered. -/
def standing (h : History C) (fd : Fd) : Option Standing :=
  h.foldl (fun x m => m.event.note fd x) none

/-- The descriptors that were told or removed. -/
def spent (h : History C) : List Fd := h.flatMap (·.event.spent)

/-- The reactor was discarded at some time. -/
def discarded (h : History C) : Bool := h.any (·.event.isDiscard)

/-- The number of callbacks that were called. -/
def calls (h : History C) : Nat := h.countP (·.event.isCall)

@[simp] theorem standing_concat (h : History C) (m : Moment C) (fd : Fd) :
    standing (h ++ [m]) fd = m.event.note fd (standing h fd) := by
  simp [standing]

@[simp] theorem spent_append (h p : History C) : spent (h ++ p) = spent h ++ spent p :=
  List.flatMap_append

@[simp] theorem spent_singleton (m : Moment C) : spent [m] = m.event.spent := by
  simp [spent]

@[simp] theorem discarded_append (h p : History C) :
    discarded (h ++ p) = (discarded h || discarded p) :=
  List.any_append

@[simp] theorem discarded_singleton (m : Moment C) : discarded [m] = m.event.isDiscard := by
  simp [discarded]

@[simp] theorem calls_append (h p : History C) : calls (h ++ p) = calls h + calls p :=
  List.countP_append

end History

namespace Request

variable {C : Type}

/-- Does what is asked for, and tells what happened. -/
def answer : Request C → Reactor C → Checked (Event C × Reactor C)
  | add fd interest callback, r =>
    (r.add fd interest callback).map fun
      | .ok r => (.added fd interest callback, r)
      | .error e => (.refused fd e, r)
  | modify fd interest, r => (r.modify fd interest).map (.modified fd interest, ·)
  | del fd, r => .ok (.removed fd, r.del fd)
  | reschedule fd events, r =>
    match r.reschedule fd events with
    | (true, r) => .ok (.forced fd events, r)
    | (false, r) => .ok (.missed fd, r)
  | discard, r => r.discard.map (.discarded, ·)

/-- Does everything that is asked for, in turn, and takes note of what happened. -/
def answerAll : List (Request C) → Reactor C → History C → Checked (Reactor C × History C)
  | [], r, h => .ok (r, h)
  | q :: rest, r, h => do
    let (e, r) ← q.answer r
    answerAll rest r (h ++ [⟨e, r⟩])

/-- What happens when a request is answered. -/
def event : Request C → Reactor C → Event C
  | add fd interest callback, r =>
    if r.isDisposed then .refused fd .reactorDiscarded
    else if !Reactor.selectable fd then .refused fd (.descriptorOutOfRange fd)
    else .added fd interest callback
  | modify fd interest, _ => .modified fd interest
  | del fd, _ => .removed fd
  | reschedule fd events, r => if r.isRegistered fd then .forced fd events else .missed fd
  | discard, _ => .discarded

theorem answer_perform (q : Request C) (r : Reactor C) :
    (q.answer r).map (·.2) = q.perform r := by
  cases q with
  | add fd interest callback =>
    change (Except.map _ (r.add fd interest callback)).map _ = Except.map _ _
    rcases r.add fd interest callback with v | e | r' <;> rfl
  | modify fd interest =>
    change (Except.map _ (r.modify fd interest)).map _ = r.modify fd interest
    cases r.modify fd interest <;> rfl
  | del fd => rfl
  | reschedule fd events =>
    change Except.map _ (match r.reschedule fd events with
      | (true, r) => _
      | (false, r) => _) = .ok (r.reschedule fd events).2
    rcases r.reschedule fd events with ⟨_ | _, r'⟩ <;> rfl
  | discard =>
    change (Except.map _ r.discard).map _ = r.discard
    cases r.discard <;> rfl

theorem answerAll_performAll (qs : List (Request C)) (r : Reactor C) (h : History C) :
    (answerAll qs r h).map (·.1) = performAll qs r := by
  induction qs generalizing r h with
  | nil => rfl
  | cons q rest ih =>
    unfold answerAll performAll
    rw [Checked.map_bind, ← answer_perform, Checked.bind_map]
    exact bind_congr fun x => ih x.2 _

end Request

namespace Reactor

variable {C σ : Type} {r r' : Reactor C} {fd d : Fd} {id : Handle} {q : Request C} {e : Event C}

/-- The standing of a descriptor as the reactor has it. -/
def standing (r : Reactor C) (fd : Fd) : Option Standing :=
  (r.registration? fd).map fun reg => ⟨reg.interest, reg.forced⟩

theorem registration?_added {interest : SocketEvents} {callback : C}
    {registrations : OrderedMap Fd (Registration C) Fd.order} (hr : r.registrations.WellFormed)
    (hi : r.registrations.insert fd { interest, callback := some callback } =
      (.added id, registrations)) (d : Fd) :
    ({ r with registrations, touched := true } : Reactor C).registration? d =
      if fd = d then some { interest, callback := some callback } else r.registration? d := by
  have hwf := OrderedMap.wellFormed_added hr hi
  have hmem := (entries_added hr hi).1
  have habsent : r.registration? fd = none := by
    unfold registration?
    rw [OrderedMap.absent_of_added hi]
    rfl
  apply Option.ext
  intro reg
  rw [registration?_eq_some_iff hwf]
  change (∃ i, (i, d, reg) ∈ registrations.entries) ↔ _
  simp only [hmem]
  split
  · rename_i hd
    subst hd
    constructor
    · rintro ⟨i, heq | hx⟩
      · cases heq
        rfl
      · have hreg := (registration?_eq_some_iff hr).mpr ⟨i, hx⟩
        rw [habsent] at hreg
        cases hreg
    · rintro ⟨⟩
      exact ⟨id, .inl rfl⟩
  · rename_i hd
    rw [registration?_eq_some_iff hr]
    constructor
    · rintro ⟨i, heq | hx⟩
      · cases heq
        exact absurd rfl hd
      · exact ⟨i, hx⟩
    · rintro ⟨i, hx⟩
      exact ⟨i, .inr hx⟩

theorem registration?_removed (hr : r.registrations.WellFormed)
    (h : r.registrations.find? fd = some id) (d : Fd) :
    ({ r with registrations := (r.registrations.erase id).2, touched := true } :
      Reactor C).registration? d = if fd = d then none else r.registration? d := by
  apply Option.ext
  intro reg
  rw [registration?_eq_some_iff (OrderedMap.wellFormed_erase hr id)]
  unfold entries
  simp only [entries_removed hr h, List.mem_filter, decide_eq_true_eq]
  split
  · rename_i hd
    subst hd
    simp
  · rename_i hd
    rw [registration?_eq_some_iff hr]
    exact ⟨fun ⟨i, hx, _⟩ => ⟨i, hx⟩, fun ⟨i, hx⟩ => ⟨i, hx, fun heq => hd heq.symm⟩⟩

theorem standing_update (hr : r.registrations.WellFormed) {f : Registration C → Registration C}
    (h : r.registrations.find? fd = some id) (d : Fd) :
    (r.update id f).standing d = if fd = d
      then (r.registration? d).map fun reg => ⟨(f reg).interest, (f reg).forced⟩
      else r.standing d := by
  unfold standing
  split
  · rename_i hd
    subst hd
    rw [registration?_update_self f h, Option.map_map]
    rfl
  · rename_i hd
    rw [registration?_update_other hr f h (Ne.symm hd)]

theorem standing_update_same {f : Registration C → Registration C}
    (hf : ∀ reg, (f reg).interest = reg.interest ∧ (f reg).forced = reg.forced) (id : Handle)
    (r : Reactor C) (d : Fd) : (r.update id f).standing d = r.standing d := by
  unfold standing
  rw [registration?_update, Option.map_map]
  apply congrArg fun g => (r.registration? d).map g
  funext reg
  simp only [Function.comp_apply]
  split
  · rw [(hf reg).1, (hf reg).2]
  · rfl

theorem standing_takeDue (id : Handle) (r : Reactor C) (d : Fd) :
    (r.takeDue id).standing d = r.standing d := by
  apply standing_update_same
  exact fun _ => ⟨rfl, rfl⟩

theorem standing_putBack (id : Handle) (callback : C) (r : Reactor C) (d : Fd) :
    (r.putBack id callback).standing d = r.standing d := by
  apply standing_update_same
  exact fun _ => ⟨rfl, rfl⟩

theorem standing_snapshot (hr : r.registrations.WellFormed) (ready : Fd → SocketEvents) (d : Fd) :
    (r.snapshot ready).standing d = Event.note d (.looked : Event C) (r.standing d) := by
  have hsame : (r.snapshot ready).registration? d = (r.registration? d).map fun reg =>
      { reg with pending := observed reg.interest (ready d) ∪ reg.forced, forced := .none } := by
    cases hreg : r.registration? d with
    | some reg => exact registration?_snapshot hr ready hreg
    | none =>
      apply Option.eq_none_iff_forall_ne_some.mpr
      intro reg hnew
      obtain ⟨id, hx⟩ := (registration?_eq_some_iff (wellFormed_snapshot hr ready)).mp hnew
      rw [entries_snapshot] at hx
      obtain ⟨⟨i, fd, old⟩, hold, heq⟩ := List.mem_map.mp hx
      cases heq
      rw [(registration?_eq_some_iff hr).mpr ⟨_, hold⟩] at hreg
      cases hreg
  unfold standing
  rw [hsame]
  simp only [Event.note, Option.map_map]
  rfl

theorem answered (h : q.answer r = .ok (e, r')) : Performed r q r' ∧ e = q.event r := by
  refine ⟨performed (by rw [← Request.answer_perform, h, Checked.map_ok]), ?_⟩
  cases q with
  | add fd interest callback =>
    obtain ⟨result, hadd, heq⟩ := Checked.map_eq_ok_iff.mp h
    unfold add at hadd
    rw [Request.event]
    split at hadd
    · rename_i hd
      cases hadd
      cases heq
      rw [if_pos hd]
    · rename_i hd
      rw [if_neg hd]
      split at hadd
      · rename_i hs
        cases hadd
        cases heq
        rw [if_pos hs]
      · rename_i hs
        rw [if_neg hs]
        split at hadd <;> cases hadd
        cases heq
        rfl
  | modify fd interest =>
    obtain ⟨_, _, heq⟩ := Checked.map_eq_ok_iff.mp h
    cases heq
    rfl
  | del fd =>
    cases h
    rfl
  | reschedule fd events =>
    unfold Request.answer reschedule at h
    rw [Request.event, isRegistered]
    cases hfind : r.registrations.find? fd <;> simp only [hfind] at h <;> cases h <;> rfl
  | discard =>
    obtain ⟨_, _, heq⟩ := Checked.map_eq_ok_iff.mp h
    cases heq
    rfl

/-- What is forced for a registered descriptor is noted as that. -/
theorem answer_reschedule (h : r.isRegistered fd = true) (events : SocketEvents) :
    (Request.reschedule fd events).answer r =
      .ok (.forced fd events, (r.reschedule fd events).2) := by
  obtain ⟨id, hfind⟩ := Option.isSome_iff_exists.mp h
  simp only [Request.answer, reschedule, hfind]

theorem event_refused {interest : SocketEvents} {callback : C}
    (h : r.isDisposed = true ∨ selectable fd = false) :
    ∃ f, (Request.add fd interest callback).event r = .refused fd f := by
  rw [Request.event]
  split
  · exact ⟨_, rfl⟩
  · rename_i hd
    rw [if_pos (by simpa [hd] using h)]
    exact ⟨_, rfl⟩

/-- A request does to the standing of each descriptor what its note says, unless the reactor is
disposed. -/
theorem standing_answered (hr : r.registrations.WellFormed) (h : q.answer r = .ok (e, r'))
    (hp : r'.phase ≠ .disposed) (d : Fd) : r'.standing d = e.note d (r.standing d) := by
  obtain ⟨hperformed, rfl⟩ := answered h
  cases hperformed with
  | refused hrefused =>
    obtain ⟨f, hf⟩ := event_refused hrefused
    rw [hf]
    rfl
  | added hd hs hi =>
    simp only [Request.event, hd, hs, Event.note]
    unfold standing
    rw [registration?_added hr hi]
    split <;> simp_all
  | ignored hdisposed => exact absurd hdisposed hp
  | modified hfind =>
    simp only [standing_update hr hfind, Request.event, Event.note]
    simp only [standing, Option.map_map]
    rfl
  | @absent fd hfind =>
    simp only [Request.event, Event.note]
    split
    · rename_i hd
      subst hd
      simp [standing, registration?, hfind]
    · rfl
  | removed hfind =>
    simp only [Request.event, Event.note, standing, registration?_removed hr hfind]
    split <;> rfl
  | missed hfind => simp [Request.event, isRegistered, hfind, Event.note]
  | forced hfind =>
    simp only [standing_update hr hfind, Request.event, isRegistered, hfind, Option.isSome_some,
      if_true, Event.note]
    simp only [standing, Option.map_map]
    rfl
  | disposed => exact absurd rfl hp
  | deferred => rfl

theorem isDisposed_answered (h : q.answer r = .ok (e, r')) :
    r'.isDisposed = (r.isDisposed || e.isDiscard) := by
  obtain ⟨hperformed, rfl⟩ := answered h
  cases hperformed with
  | refused hrefused =>
    obtain ⟨f, hf⟩ := event_refused hrefused
    rw [hf]
    exact (Bool.or_false _).symm
  | added hd hs =>
    simp only [Request.event, hd, hs]
    exact hd
  | missed hfind | forced hfind =>
    simp only [Request.event, isRegistered, hfind]
    exact (Bool.or_false _).symm
  | ignored | absent | modified | removed => exact (Bool.or_false _).symm
  | disposed | deferred => exact (Bool.or_true _).symm

/-- A reactor that was discarded accepts no registration, and is not discarded again. -/
theorem late_answered (h : q.answer r = .ok (e, r')) (hd : r.isDisposed = true) : e.Late := by
  obtain ⟨hperformed, rfl⟩ := answered h
  cases hperformed with
  | refused => simp [Request.event, hd, Event.Late]
  | added hd' => simp [hd] at hd'
  | missed hfind | forced hfind => simp [Request.event, isRegistered, hfind, Event.Late]
  | ignored | absent | modified | removed => trivial
  | disposed hp | deferred hp => simp [isDisposed, hp] at hd

theorem spent_answered (h : q.answer r = .ok (e, r')) :
    e.spent = q.removed ∧ e.isCall = false ∧ e ≠ .looked := by
  obtain ⟨_, rfl⟩ := answered h
  cases q with
  | add =>
    rw [Request.event]
    split
    · exact ⟨rfl, rfl, nofun⟩
    · split <;> exact ⟨rfl, rfl, nofun⟩
  | reschedule =>
    rw [Request.event]
    split <;> exact ⟨rfl, rfl, nofun⟩
  | modify | del | discard => exact ⟨rfl, rfl, nofun⟩

end Reactor

end DuplexRelay
