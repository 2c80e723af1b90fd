import DuplexRelay.Proofs.Bridge.Outcomes
import DuplexRelay.Proofs.Pipe.Waiting

/-! What it means that no side of a bridge is forgotten: a side that could be relayed from is told
of readability again. Work on one side leaves what the other side waits for. -/

namespace DuplexRelay

/-- A registered descriptor will be told of readability in this pass or the next. -/
def Reactor.WillBeTold {C : Type} (fd : Fd) (r : Reactor C) : Prop :=
  ∃ reg, r.registration? fd = some reg ∧
    (reg.forced.readable = true ∨ reg.pending.readable = true)

theorem Reactor.WillBeTold.retained {C : Type} {fd : Fd} {r r' : Reactor C} (h : r.WillBeTold fd)
    (hr : r.Retained fd r') : r'.WillBeTold fd := by
  obtain ⟨reg, hreg, htell⟩ := h
  obtain ⟨reg', hreg', hkept⟩ := hr reg hreg
  refine ⟨reg', hreg', ?_⟩
  rw [hkept.pending]
  exact htell.imp hkept.forced id

theorem Reactor.Undisturbed.interest? {C : Type} {fd : Fd} {r r' : Reactor C}
    {interest : SocketEvents} (h : r.Undisturbed fd r') (hr : r.interest? fd = some interest) :
    r'.interest? fd = some interest := by
  obtain ⟨reg, hreg, rfl⟩ := Option.map_eq_some_iff.mp hr
  obtain ⟨reg', hreg', _, hsame⟩ := h reg hreg
  exact Option.map_eq_some_iff.mpr ⟨reg', hreg', hsame⟩

theorem Tcp.willBeTold_reschedule {N C : Type} [Sockets N] {p : Tcp} {w : Host N C}
    (h : p.Waiting w.reactor) : (Pipe.rescheduleRead p w).reactor.WillBeTold p.fd := by
  obtain ⟨reg, hreg, _⟩ := Option.map_eq_some_iff.mp h.registered
  have hfound : ∃ id, w.reactor.registrations.find? p.fd = some id := by
    unfold Reactor.registration? at hreg
    obtain ⟨id, hid, _⟩ := Option.bind_eq_some_iff.mp hreg
    exact ⟨id, hid⟩
  obtain ⟨id, hid⟩ := hfound
  have hworld : Pipe.rescheduleRead p w =
      { w with reactor := (w.reactor.reschedule p.fd { readable := true }).2 } :=
    if_pos h.attached
  rw [hworld]
  simp only [Reactor.reschedule, hid]
  refine ⟨{ reg with forced := reg.forced ∪ { readable := true } }, ?_, .inl ?_⟩
  · rw [Reactor.registration?_update_self _ hid, hreg]
    rfl
  · exact Bool.or_true _

namespace Bridge

variable {P N C : Type}

@[simp] theorem setSide_side (b : Bridge P) (s : Side) : b.setSide s (b.side s) = b := by
  cases s <;> rfl

/-- The descriptor of a side. -/
def fdOf (o : Outlook P) (b : Bridge P) (s : Side) : Fd := (o.base (b.side s).pipe).fd

section States

variable [HasPipeState P]

/-- Something could be received from `src` and be taken by the other side. -/
def CanRelay (src : Side) (b : Bridge P) : Prop :=
  (state (b.side src).pipe).isReadable = true ∧
    (state (b.side src.peer).pipe).isWritable = true

/-- Both pipes are at work, their registrations wait for what they should, and a side that something
is queued for was not closed. -/
structure PipesAtWork (o : Outlook P) (b : Bridge P) (r : Reactor C) : Prop where
  wf : r.registrations.WellFormed
  undisposed : r.phase ≠ .disposed
  apart : ∀ s : Side, b.fdOf o s.peer ≠ b.fdOf o s
  regular : ∀ s, o.regular (b.side s).pipe
  waiting : ∀ s, (o.base (b.side s).pipe).Waiting r
  unclosed : ∀ s, (b.side s).pending ≠ none → ¬o.closing (b.side s).pipe

/-- A side that something is queued for takes nothing. -/
def BlockedWhileQueued (b : Bridge P) : Prop :=
  ∀ s, (b.side s).pending ≠ none → (state (b.side s).pipe).isWritable = false

theorem blockedWhileQueued_setSide {b : Bridge P} {s : Side} {new : BridgeSide P}
    (hpeer : (b.side s.peer).pending ≠ none →
      (state (b.side s.peer).pipe).isWritable = false)
    (hnew : new.pending ≠ none → (state new.pipe).isWritable = false) :
    BlockedWhileQueued (b.setSide s new) := by
  intro d
  rcases Side.eq_or_eq_peer s d with rfl | rfl
  · simpa using hnew
  · simpa using hpeer

theorem not_canRelay_iff {b : Bridge P} {src : Side} {n : Nat} :
    ¬CanRelay src b ↔ b.verdict src n = .stop := by
  unfold CanRelay verdict
  by_cases h : ((state (b.side src).pipe).isReadable &&
      (state (b.side src.peer).pipe).isWritable) = true
  · rw [if_pos h]
    simp only [Bool.and_eq_true] at h
    refine iff_of_false (fun hn => hn h) ?_
    split <;> simp
  · rw [if_neg h]
    simp only [Bool.and_eq_true] at h
    exact iff_of_true h rfl

theorem canRelay_of_verdict {b : Bridge P} {src : Side} {n : Nat} (h : b.verdict src n = .go) :
    CanRelay src b := by
  by_contra hn
  rw [not_canRelay_iff.mp hn] at h
  cases h

/-- What an operation of a bridge leaves as it was. -/
structure OthersUnchanged (o : Outlook P) (b : Bridge P) (r : Reactor C) (b' : Bridge P)
    (r' : Reactor C) : Prop where
  atWork : PipesAtWork o b' r'
  fd : ∀ s, b'.fdOf o s = b.fdOf o s
  retained : ∀ s, r.Retained (b.fdOf o s) r'
  canRelay : ∀ src, CanRelay src b' → CanRelay src b

/-- A bridge that acts on a report of one side. What the report does not tell of was taken care of
before. -/
structure ActingOnReport (o : Outlook P) (s : Side) (report : PipeEvents) (b : Bridge P)
    (r : Reactor C) : Prop where
  atWork : PipesAtWork o b r
  peerFull : (b.side s.peer).pending ≠ none → (state (b.side s.peer).pipe).isWritable = false
  sideFull : (b.side s).pending ≠ none → (state (b.side s).pipe).isWritable = true →
    report.writable = true
  reported : report.writable = true → (state (b.side s).pipe).isWritable = true
  reading : CanRelay s b → report.readable = true ∨ r.WillBeTold (b.fdOf o s)
  writing : CanRelay s.peer b → report.writable = true ∨ r.WillBeTold (b.fdOf o s.peer)

/-- A bridge that waits for nothing in vain. -/
structure Unstalled (o : Outlook P) (b : Bridge P) (r : Reactor C) : Prop where
  atWork : PipesAtWork o b r
  full : BlockedWhileQueued b
  willBeTold : ∀ src, CanRelay src b → r.WillBeTold (b.fdOf o src)

variable {o : Outlook P} {b b₁ b' : Bridge P} {r r₁ r' : Reactor C}

theorem OthersUnchanged.refl (h : PipesAtWork o b r) : OthersUnchanged o b r b r :=
  ⟨h, fun _ => rfl, fun _ => .refl _ _, fun _ => id⟩

theorem OthersUnchanged.trans (h : OthersUnchanged o b r b₁ r₁)
    (h' : OthersUnchanged o b₁ r₁ b' r') : OthersUnchanged o b r b' r' := by
  refine ⟨h'.atWork, fun s => (h'.fd s).trans (h.fd s), ?_,
    fun src => h.canRelay src ∘ h'.canRelay src⟩
  intro s
  have hlater := h'.retained s
  rw [h.fd s] at hlater
  exact (h.retained s).trans hlater

theorem OthersUnchanged.willBeTold (h : OthersUnchanged o b r b' r') {s : Side}
    (hw : r.WillBeTold (b.fdOf o s)) : r'.WillBeTold (b'.fdOf o s) := by
  rw [h.fd s]
  exact hw.retained (h.retained s)

variable {w w' : Host N C} {s : Side}

omit [HasPipeState P] in
theorem pipesAtWork_setSide (s : Side) (new : BridgeSide P) (h : PipesAtWork o b w.reactor)
    (ha : (o.base (b.side s).pipe).Advanced w (o.base new.pipe) w') (hr : o.regular new.pipe)
    (hq : new.pending ≠ none → ¬o.closing new.pipe) :
    PipesAtWork o (b.setSide s new) w'.reactor ∧
      (∀ d, (b.setSide s new).fdOf o d = b.fdOf o d) ∧
      ∀ d, w.reactor.Retained (b.fdOf o d) w'.reactor := by
  have hphase := ha.asked.phase
  have hother : w.reactor.Undisturbed (b.fdOf o s.peer) w'.reactor := by
    rcases ha.asked.undisturbed h.wf (fun q hq => hq.spares (h.apart s)) with hp | hkept
    · exact absurd (hphase.symm.trans hp) h.undisposed
    · exact hkept
  have hfd : ∀ d, (b.setSide s new).fdOf o d = b.fdOf o d := by
    intro d
    rcases Side.eq_or_eq_peer s d with rfl | rfl
    · simpa [fdOf] using ha.fd
    · simp [fdOf]
  refine ⟨⟨ha.asked.wellFormed h.wf, ?_, ?_, ?_, ?_, ?_⟩, hfd, ?_⟩
  · rw [hphase]
    exact h.undisposed
  · intro d
    rw [hfd, hfd]
    exact h.apart d
  · intro d
    rcases Side.eq_or_eq_peer s d with rfl | rfl
    · simpa using hr
    · simpa using h.regular s.peer
  · intro d
    rcases Side.eq_or_eq_peer s d with rfl | rfl
    · simpa using ha.waiting h.undisposed (h.waiting d)
    · have hold := h.waiting s.peer
      simpa using ⟨hold.attached, hold.interest, hother.interest? hold.registered⟩
  · intro d
    rcases Side.eq_or_eq_peer s d with rfl | rfl
    · simpa using hq
    · simpa using h.unclosed s.peer
  · intro d
    rcases Side.eq_or_eq_peer s d with rfl | rfl
    · exact ha.asked.retained
    · exact hother.retained

theorem othersUnchanged_setSide (s : Side) (new : BridgeSide P) (h : PipesAtWork o b w.reactor)
    (ha : (o.base (b.side s).pipe).Advanced w (o.base new.pipe) w') (hr : o.regular new.pipe)
    (hq : new.pending ≠ none → ¬o.closing new.pipe)
    (hread : (state new.pipe).isReadable = true → (state (b.side s).pipe).isReadable = true)
    (hwrite : (state new.pipe).isWritable = true → (state (b.side s).pipe).isWritable = true) :
    OthersUnchanged o b w.reactor (b.setSide s new) w'.reactor := by
  obtain ⟨hwork, hfd, hretained⟩ := pipesAtWork_setSide s new h ha hr hq
  refine ⟨hwork, hfd, hretained, ?_⟩
  intro d
  rcases Side.eq_or_eq_peer s d with rfl | rfl
  · simpa [CanRelay] using fun hd hp => ⟨hread hd, hp⟩
  · simpa [CanRelay] using fun hd hp => ⟨hd, hwrite hp⟩

end States

end Bridge

end DuplexRelay
