import DuplexRelay.Proofs.Bridge.Moves
import DuplexRelay.Proofs.Pipe.Below

/-! All that a bridge does to its pipes and to the world it does by operations of its pipes. -/

namespace DuplexRelay.Bridge

variable {P W C : Type} [Pipe P W C] {R : W → W → Prop} {b b' : Bridge P} {w w' : W}

/-- A relation between worlds that holds over each operation of a pipe, and over sequences of what
it holds over. -/
structure WorldRelation (P : Type) [Pipe P W C] (R : W → W → Prop) : Prop where
  refl : ∀ w, R w w
  trans : ∀ {w w₁ w'}, R w w₁ → R w₁ w' → R w w'
  below : Pipe.Below (fun _ : P => ()) fun _ w _ w' => R w w'

theorem WorldRelation.flushed (h : WorldRelation P R) {dst : Side} {result : PipeResult Unit}
    (hf : Flushed dst b w result b' w') : R w w' := by
  cases hf with
  | idle => exact h.refl w
  | refused _ hs | failed _ hs | partly _ hs | done _ hs => exact h.below.send hs
  | closed _ hs _ _ _ hc => exact h.trans (h.below.send hs) (h.below.sendFin hc)

theorem WorldRelation.transferred (h : WorldRelation P R) {src : Side} {result : PipeResult Nat}
    (ht : Transferred src b w result b' w') : R w w' := by
  cases ht with
  | dry _ hr | failed _ hr => exact h.below.recv hr
  | ended _ hr hc => exact h.trans (h.below.recv hr) (h.below.sendFin hc)
  | undeliverable _ hr hs | relayed _ hr hs | congested _ hr hs =>
    exact h.trans (h.below.recv hr) (h.below.send hs)

theorem WorldRelation.relayed (h : WorldRelation P R) {src : Side} {n : Nat}
    {result : PipeResult Unit} (hr : Relayed src n b w result b' w') : R w w' := by
  induction hr with
  | stopped => exact h.refl _
  | yielded => exact h.below.reschedule _ _
  | failed _ ht => exact h.transferred (Bridge.transferred ht)
  | more _ ht _ ih => exact h.trans (h.transferred (Bridge.transferred ht)) ih

theorem WorldRelation.writePhase (h : WorldRelation P R) {s : Side} {report : PipeEvents}
    {result : PipeResult Unit} (hw : WritePhase s report b w result b' w') : R w w' := by
  cases hw with
  | skipped => exact h.refl w
  | failed _ hf | full _ hf => exact h.flushed (Bridge.flushed hf)
  | relayed _ hf _ hr => exact h.trans (h.flushed (Bridge.flushed hf)) (h.relayed hr)

theorem WorldRelation.readPhase (h : WorldRelation P R) {s : Side} {report : PipeEvents}
    {result : PipeResult Unit} (hr : ReadPhase s report b w result b' w') : R w w' := by
  cases hr with
  | skipped => exact h.refl w
  | relayed _ _ hr => exact h.relayed hr

theorem WorldRelation.handled (h : WorldRelation P R) {s : Side} {report : PipeEvents}
    {result : PipeResult Unit} (hh : Handled s report b w result b' w') : R w w' := by
  cases hh with
  | broken => exact h.refl w
  | failed _ hw => exact h.writePhase hw
  | done _ hw hr => exact h.trans (h.writePhase hw) (h.readPhase hr)

theorem WorldRelation.acted (h : WorldRelation P R) {s : Side} {events : SocketEvents}
    {ending : Option Bool} (ha : Acted s events b w ending b' w') : R w w' := by
  cases ha with
  | ignored => exact h.refl w
  | failed _ hr hh | closed _ hr hh | lives _ hr hh =>
    exact h.trans (h.below.react hr) (h.handled hh)

/-- A relation between pipes that holds over each operation, and over sequences of what it holds
over. -/
structure PipeRelation (W : Type) [Pipe P W C] (K : P → P → Prop) : Prop where
  refl : ∀ p, K p p
  trans : ∀ {p p₁ p'}, K p p₁ → K p₁ p' → K p p'
  below : Pipe.Below (id : P → P) fun p (_ : W) p' _ => K p p'

namespace PipeRelation

variable {K : P → P → Prop} (h : PipeRelation W K)
include h

theorem setSide {d : Side} {new : BridgeSide P} (hnew : K (b.side d).pipe new.pipe) (s : Side) :
    K (b.side s).pipe ((b.setSide d new).side s).pipe := by
  refine Side.forall_of (Q := fun s => K (b.side s).pipe ((b.setSide d new).side s).pipe) d ?_ ?_ s
  · rwa [side_setSide]
  · rw [side_setSide_peer]
    exact h.refl _

theorem setSides {d : Side} {new other : BridgeSide P} (hnew : K (b.side d).pipe new.pipe)
    (hother : K (b.side d.peer).pipe other.pipe) (s : Side) :
    K (b.side s).pipe (((b.setSide d new).setSide d.peer other).side s).pipe := by
  refine h.trans (h.setSide hnew s) (h.setSide ?_ s)
  rwa [side_setSide_peer]

theorem flushed {dst : Side} {result : PipeResult Unit} (hf : Flushed dst b w result b' w')
    (s : Side) : K (b.side s).pipe (b'.side s).pipe := by
  cases hf with
  | idle => exact h.refl _
  | refused _ hs | failed _ hs | partly _ hs | done _ hs => exact h.setSide (h.below.send hs) s
  | closed _ hs _ _ _ hc => exact h.setSide (h.trans (h.below.send hs) (h.below.sendFin hc)) s

theorem transferred {src : Side} {result : PipeResult Nat}
    (ht : Transferred src b w result b' w') (s : Side) : K (b.side s).pipe (b'.side s).pipe := by
  cases ht with
  | dry _ hr | failed _ hr => exact h.setSide (h.below.recv hr) s
  | ended _ hr hc => exact h.setSides (h.below.recv hr) (h.below.sendFin hc) s
  | undeliverable _ hr hs | relayed _ hr hs | congested _ hr hs =>
    exact h.setSides (h.below.recv hr) (h.below.send hs) s

theorem move (hm : Move b w b' w') (s : Side) : K (b.side s).pipe (b'.side s).pipe := by
  have hdie : ∀ b : Bridge P, b.die.side s = b.side s := by
    intro b
    cases s <;> rfl
  cases hm with
  | elsewhere => exact h.refl _
  | noticed _ hr => exact h.setSide (h.below.react hr) s
  | flushed _ hf => exact h.flushed (Bridge.flushed hf) s
  | flushFailed _ hf =>
    rw [hdie]
    exact h.flushed (Bridge.flushed hf) s
  | transferred _ ht => exact h.transferred (Bridge.transferred ht) s
  | transferFailed _ ht =>
    rw [hdie]
    exact h.transferred (Bridge.transferred ht) s
  | ended =>
    rw [hdie]
    exact h.refl _

theorem acted {s : Side} {events : SocketEvents} {ending : Option Bool}
    (ha : b.onActivity s events w = .ok (ending, b', w')) (d : Side) :
    K (b.side d).pipe (b'.side d).pipe := by
  obtain ⟨states, hpath⟩ := reaches_of_onActivity ha
  clear ha
  induction hpath with
  | refl => exact h.refl _
  | cons hm _ ih => exact h.trans (h.move hm d) ih

end PipeRelation

end DuplexRelay.Bridge
