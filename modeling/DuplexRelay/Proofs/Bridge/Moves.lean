import DuplexRelay.Proofs.Bridge.Outcomes

/-! A life of a bridge as a path of single operations. An activity is a notice of readiness followed
by flushes and transfers, and each of these changes what is queued for a side at most once. -/

namespace DuplexRelay

/-- Readiness of one side, and what happened to the world before the bridge is told of it. -/
structure Activity (W : Type) where
  side : Side
  events : SocketEvents
  meanwhile : W → W

namespace Bridge

variable {P W C : Type} [Pipe P W C]

/-- Tells a bridge of readiness time after time. -/
def undergo : List (Activity W) → Bridge P → W → Checked (Bridge P × W)
  | [], b, w => .ok (b, w)
  | a :: rest, b, w => do
    let (_, b, w) ← b.onActivity a.side a.events (a.meanwhile w)
    undergo rest b w

/-- One operation of a bridge, or a change of the world around it. A failure of an operation and
the end that it brings about are one move. -/
inductive Move : Bridge P → W → Bridge P → W → Prop
  | elsewhere (b : Bridge P) (w w' : W) : Move b w b w'
  | noticed {b : Bridge P} {w w' : W} {s : Side} {events : SocketEvents} {report : PipeEvents}
      {pipe : P} (hd : b.dead = false)
      (hr : Pipe.react events (b.side s).pipe w = .ok (report, pipe, w')) :
      Move b w (b.setSide s { b.side s with pipe }) w'
  | flushed {b b' : Bridge P} {w w' : W} {s : Side} (hd : b.dead = false)
      (hf : b.flush s w = .ok (.ok (), b', w')) : Move b w b' w'
  | flushFailed {b b' : Bridge P} {w w' : W} {s : Side} {e : PipeError} (hd : b.dead = false)
      (hf : b.flush s w = .ok (.error e, b', w')) : Move b w b'.die w'
  | transferred {b b' : Bridge P} {w w' : W} {src : Side} {n : Nat} (hd : b.dead = false)
      (ht : b.transfer src w = .ok (.ok n, b', w')) : Move b w b' w'
  | transferFailed {b b' : Bridge P} {w w' : W} {src : Side} {e : PipeError} (hd : b.dead = false)
      (ht : b.transfer src w = .ok (.error e, b', w')) : Move b w b'.die w'
  | ended {b : Bridge P} (w : W) (hd : b.dead = false) : Move b w b.die w

/-- A sequence of moves, with all states that it goes through. -/
inductive Path : Bridge P → W → List (Bridge P) → Bridge P → W → Prop
  | refl (b : Bridge P) (w : W) : Path b w [b] b w
  | cons {b b₁ b' : Bridge P} {w w₁ w' : W} {states : List (Bridge P)} (h : Move b w b₁ w₁)
      (t : Path b₁ w₁ states b' w') : Path b w (b :: states) b' w'

/-- One if what is queued for a side went from absent to present. -/
def newlyQueued (d : Side) (b b' : Bridge P) : Nat :=
  if (b.side d).pending = none ∧ (b'.side d).pending ≠ none then 1 else 0

/-- How often what is queued for a side went from absent to present. -/
def queueings (d : Side) : List (Bridge P) → Nat
  | b :: c :: rest => newlyQueued d b c + queueings d (c :: rest)
  | _ => 0

theorem dead_of_flushed {dst : Side} {b b' : Bridge P} {w w' : W} {result : PipeResult Unit}
    (h : Flushed dst b w result b' w') : b'.dead = b.dead := by
  cases h <;> simp

theorem dead_of_transferred {src : Side} {b b' : Bridge P} {w w' : W} {result : PipeResult Nat}
    (h : Transferred src b w result b' w') : b'.dead = b.dead := by
  cases h <;> simp

theorem finalStats_of_flushed {dst : Side} {b b' : Bridge P} {w w' : W} {result : PipeResult Unit}
    (h : Flushed dst b w result b' w') : b'.finalStats = b.finalStats := by
  cases h <;> simp

theorem finalStats_of_transferred {src : Side} {b b' : Bridge P} {w w' : W}
    {result : PipeResult Nat} (h : Transferred src b w result b' w') :
    b'.finalStats = b.finalStats := by
  cases h <;> simp

/-- A side that is replaced without being queued for anew keeps its count of congestions. -/
theorem congestions_setSide {b : Bridge P} {s : Side} {new : BridgeSide P}
    (hcount : new.traffic.congestions = (b.side s).traffic.congestions)
    (hq : (b.side s).pending = none → new.pending = none) (d : Side) :
    ((b.setSide s new).side d).traffic.congestions =
      (b.side d).traffic.congestions + newlyQueued d b (b.setSide s new) := by
  rcases Side.eq_or_eq_peer s d with rfl | rfl
  · have hnone : newlyQueued d b (b.setSide d new) = 0 := by
      simpa [newlyQueued] using hq
    rw [hnone, side_setSide, hcount, Nat.add_zero]
  · simp [newlyQueued]

theorem congestions_of_flushed {dst : Side} {b b' : Bridge P} {w w' : W}
    {result : PipeResult Unit} (h : Flushed dst b w result b' w') (d : Side) :
    (b'.side d).traffic.congestions = (b.side d).traffic.congestions + newlyQueued d b b' := by
  cases h with
  | idle => simp [newlyQueued]
  | refused hq | failed hq | partly hq | done hq | closed hq =>
    refine congestions_setSide ?_ ?_ d
    · rfl
    · intro hnone
      simp [hnone] at hq

theorem congestions_of_transferred {src : Side} {b b' : Bridge P} {w w' : W}
    {result : PipeResult Nat} (h : Transferred src b w result b' w') (d : Side) :
    (b'.side d).traffic.congestions = (b.side d).traffic.congestions + newlyQueued d b b' := by
  cases h with
  | dry | failed =>
    refine congestions_setSide ?_ ?_ d
    · rfl
    · exact id
  | ended hp | undeliverable hp | relayed hp =>
    rcases Side.eq_or_eq_peer src d with rfl | rfl
    · simp [newlyQueued, afterRecv]
    · simp [newlyQueued, afterSend]
  | congested hp =>
    rcases Side.eq_or_eq_peer src d with rfl | rfl
    · simp [newlyQueued, afterRecv]
    · simp [newlyQueued, afterQueueing, hp]

/-- Only a queue that was not there before is counted as a congestion. -/
theorem congestions_of_move {b b' : Bridge P} {w w' : W} (h : Move b w b' w') (d : Side) :
    (b'.side d).traffic.congestions = (b.side d).traffic.congestions + newlyQueued d b b' := by
  cases h with
  | elsewhere => simp [newlyQueued]
  | noticed =>
    refine congestions_setSide ?_ ?_ d
    · rfl
    · exact id
  | flushed _ hf => exact congestions_of_flushed (Bridge.flushed hf) d
  | flushFailed _ hf => exact congestions_of_flushed (Bridge.flushed hf) d
  | transferred _ ht => exact congestions_of_transferred (Bridge.transferred ht) d
  | transferFailed _ ht => exact congestions_of_transferred (Bridge.transferred ht) d
  | ended => simp [newlyQueued, die, side]

theorem congestions_of_path {b b' : Bridge P} {w w' : W} {states : List (Bridge P)}
    (h : Path b w states b' w') (d : Side) :
    (b'.side d).traffic.congestions = (b.side d).traffic.congestions + queueings d states := by
  induction h with
  | refl => simp [queueings]
  | @cons b b₁ b' w w₁ w' states hm ht ih =>
    have hstep := congestions_of_move hm d
    cases ht with
    | refl => simpa [queueings] using hstep
    | cons hm' ht' =>
      rw [ih, hstep, queueings]
      omega

def Reaches (b : Bridge P) (w : W) (b' : Bridge P) (w' : W) : Prop :=
  ∃ states, Path b w states b' w'

namespace Reaches

variable {b b₁ b' : Bridge P} {w w₁ w' : W}

theorem refl (b : Bridge P) (w : W) : Reaches b w b w := ⟨[b], .refl b w⟩

theorem step (h : Move b w b₁ w₁) (t : Reaches b₁ w₁ b' w') : Reaches b w b' w' := by
  obtain ⟨states, t⟩ := t
  exact ⟨b :: states, .cons h t⟩

theorem single (h : Move b w b' w') : Reaches b w b' w' := step h (refl b' w')

theorem trans (h : Reaches b w b₁ w₁) (t : Reaches b₁ w₁ b' w') : Reaches b w b' w' := by
  obtain ⟨states, h⟩ := h
  induction h with
  | refl => exact t
  | cons h _ ih => exact step h (ih t)

end Reaches

/-- Where an operation led: to a state in which the bridge goes on, or to one that it ends in. -/
def ReachesEnd (b : Bridge P) (w : W) (result : PipeResult Unit) (b' : Bridge P) (w' : W) :
    Prop :=
  match result with
  | .ok _ => b'.dead = false ∧ Reaches b w b' w'
  | .error _ => Reaches b w b'.die w'

theorem ReachesEnd.after {b b₁ b' : Bridge P} {w w₁ w' : W} {result : PipeResult Unit}
    (h : Reaches b w b₁ w₁) (t : ReachesEnd b₁ w₁ result b' w') :
    ReachesEnd b w result b' w' := by
  cases result with
  | error e => exact h.trans t
  | ok _ => exact ⟨t.1, h.trans t.2⟩

theorem reachesEnd_of_flush {dst : Side} {b b' : Bridge P} {w w' : W} {result : PipeResult Unit}
    (hd : b.dead = false) (h : b.flush dst w = .ok (result, b', w')) :
    ReachesEnd b w result b' w' := by
  cases result with
  | error e => exact .single (.flushFailed hd h)
  | ok _ => exact ⟨by rw [dead_of_flushed (flushed h), hd], .single (.flushed hd h)⟩

theorem reachesEnd_of_relayed {src : Side} {n : Nat} {b b' : Bridge P} {w w' : W}
    {result : PipeResult Unit} (hd : b.dead = false) (h : Relayed src n b w result b' w') :
    ReachesEnd b w result b' w' := by
  induction h with
  | stopped => exact ⟨hd, .refl _ _⟩
  | yielded => exact ⟨hd, .single (.elsewhere _ _ _)⟩
  | failed _ ht => exact .single (.transferFailed hd ht)
  | more _ ht _ ih =>
    have hd₁ := dead_of_transferred (transferred ht)
    exact (ih (hd₁.trans hd)).after (.single (.transferred hd ht))

theorem reachesEnd_of_writePhase {s : Side} {report : PipeEvents} {b b' : Bridge P} {w w' : W}
    {result : PipeResult Unit} (hd : b.dead = false)
    (h : WritePhase s report b w result b' w') : ReachesEnd b w result b' w' := by
  cases h with
  | skipped => exact ⟨hd, .refl _ _⟩
  | failed _ hf => exact reachesEnd_of_flush hd hf
  | full _ hf => exact reachesEnd_of_flush hd hf
  | relayed _ hf _ hr =>
    have hflush := reachesEnd_of_flush hd hf
    exact (reachesEnd_of_relayed hflush.1 hr).after hflush.2

theorem reachesEnd_of_handled {s : Side} {report : PipeEvents} {b b' : Bridge P} {w w' : W}
    {result : PipeResult Unit} (hd : b.dead = false) (h : Handled s report b w result b' w') :
    ReachesEnd b w result b' w' := by
  cases h with
  | broken => exact .single (.ended w hd)
  | failed _ hw => exact reachesEnd_of_writePhase hd hw
  | done _ hw hr =>
    have hwrite := reachesEnd_of_writePhase hd hw
    cases hr with
    | skipped => exact hwrite
    | relayed _ _ hrel => exact (reachesEnd_of_relayed hwrite.1 hrel).after hwrite.2

theorem reaches_of_onActivity {s : Side} {events : SocketEvents} {b b' : Bridge P} {w w' : W}
    {ending : Option Bool} (h : b.onActivity s events w = .ok (ending, b', w')) :
    Reaches b w b' w' := by
  cases acted h with
  | ignored => exact .refl b w
  | failed hd hr hh =>
    exact .step (.noticed hd hr) (reachesEnd_of_handled (by simpa using hd) hh)
  | closed hd hr hh =>
    obtain ⟨hd', hreach⟩ := reachesEnd_of_handled (by simpa using hd) hh
    exact .step (.noticed hd hr) (hreach.trans (.single (.ended w' hd')))
  | lives hd hr hh =>
    exact .step (.noticed hd hr) (reachesEnd_of_handled (by simpa using hd) hh).2

theorem reaches_of_undergo {activities : List (Activity W)} {b b' : Bridge P} {w w' : W}
    (h : undergo activities b w = .ok (b', w')) : Reaches b w b' w' := by
  induction activities generalizing b w with
  | nil =>
    cases h
    exact .refl _ _
  | cons a rest ih =>
    unfold undergo at h
    simp only [Checked.bind_eq_ok_iff] at h
    obtain ⟨⟨ending, b₁, w₁⟩, ha, h⟩ := h
    exact .step (.elsewhere _ _ (a.meanwhile _)) ((reaches_of_onActivity ha).trans (ih h))

end Bridge

end DuplexRelay
