import DuplexRelay.Pipe.Scripted
import DuplexRelay.Proofs.Bridge.Logged
import DuplexRelay.Session.Testbed

/-! The life of a bridge. It goes on until an activity fails or leaves both sides closed, reports
that once, and never touches its pipes again. -/

namespace DuplexRelay

/-- One activity as it happened. -/
structure Episode (P W : Type) where
  before : Bridge P
  /-- the world as the bridge found it -/
  world : W
  /-- what the bridge reported of its end -/
  ending : Option Bool
  after : Bridge P
  /-- the world as the bridge left it -/
  outcome : W

namespace Bridge

variable {P Q W C : Type}

/-- Tells a bridge of readiness time after time, and keeps an account of it. -/
def course [Pipe P W C] : List (Activity W) → Bridge P → W → Checked (List (Episode P W))
  | [], _, _ => .ok []
  | a :: rest, b, w => do
    let (ending, b', w') ← b.onActivity a.side a.events (a.meanwhile w)
    let later ← course rest b' w'
    return { before := b, world := a.meanwhile w, ending, after := b', outcome := w' } :: later

/-- Neither what a bridge does nor what it shows depends on its pipes, whatever is put in their
place. -/
def Detached [HasPipeState P] (W : Type) (b : Bridge P) : Prop :=
  ∀ {Q C : Type} [Pipe Q W C] (f : P → Q),
    (b.mapPipes f).stats = b.stats ∧
    ∀ (s : Side) (events : SocketEvents) (w : W),
      (b.mapPipes f).onActivity s events w = .ok (none, b.mapPipes f, w)

theorem onActivity_dead [Pipe P W C] {b : Bridge P} (hd : b.dead = true) (s : Side)
    (events : SocketEvents) (w : W) : b.onActivity s events w = .ok (none, b, w) := by
  unfold onActivity
  rw [if_pos hd]
  rfl

theorem detached_die [HasPipeState P] (b : Bridge P) : Detached W b.die := by
  intro Q C _ f
  refine ⟨rfl, ?_⟩
  intro s events w
  exact onActivity_dead rfl s events w

theorem stats_alive [HasPipeState P] {b : Bridge P} (hf : b.finalStats = none) (s : Side) :
    b.stats.side s = b.sideStats s := by
  cases s <;> simp [stats, hf, BridgeStats.side]

theorem stats_die [HasPipeState P] {b : Bridge P} (hf : b.finalStats = none) (s : Side) :
    b.die.stats.side s = b.die.sideStats s := by
  have halive := stats_alive hf s
  cases s <;> exact halive

end Bridge

namespace Episode

variable {P W C : Type}

def map {Q : Type} (f : Q → P) (e : Episode Q W) : Episode P W where
  before := e.before.mapPipes f
  world := e.world
  ending := e.ending
  after := e.after.mapPipes f
  outcome := e.outcome

/-- The calls of the pipe of a side that were made in an episode. -/
def calls (e : Episode (Logged P) W) (s : Side) : List PipeCall :=
  (e.after.calls s).drop (e.before.calls s).length

/-- There was an answer that a bridge does not go on after. -/
def failed (e : Episode (Logged P) W) : Bool :=
  (e.calls .left ++ e.calls .right).any PipeCall.ends

/-- There was the report of a broken pipe, or a fatal error. -/
def broke (e : Episode (Logged P) W) : Bool :=
  (e.calls .left ++ e.calls .right).any PipeCall.fatal

theorem failed_of_traced {b b' : Bridge (Logged P)} {f : Bool} (h : Bridge.Traced f b b') (w : W)
    (ending : Option Bool) (w' : W) : failed ⟨b, w, ending, b', w'⟩ = f := by
  obtain ⟨left, right, hl, hr, rfl⟩ := h.calls
  simp [failed, calls, hl, hr]

variable [HasPipeState P]

/-- The bridge goes on. -/
structure Continues (e : Episode (Logged P) W) : Prop where
  alive : e.before.dead = false
  unfailed : e.failed = false
  unclosed : e.after.isClosed = false
  unreported : e.ending = none
  survived : e.after.dead = false
  shown : ∀ s, e.after.stats.side s = e.after.sideStats s

/-- The bridge comes to its end. -/
structure Ends (e : Episode (Logged P) W) : Prop where
  alive : e.before.dead = false
  reported : e.failed = true ∧ e.ending = some false ∨
    e.failed = false ∧ e.after.isClosed = true ∧ e.ending = some true
  dead : e.after.dead = true
  shown : ∀ s, e.after.stats.side s = e.after.sideStats s
  detached : e.after.Detached W

/-- Nothing happens to a bridge that came to its end before. -/
structure Rests (last : Bridge (Logged P)) (e : Episode (Logged P) W) : Prop where
  before : e.before = last
  after : e.after = last
  unreported : e.ending = none
  untouched : e.outcome = e.world

/-- Each activity goes on from the one before, there is at most one that ends the bridge, and
nothing happens after that. -/
inductive Lifecycle : List (Episode (Logged P) W) → Prop
  | lives {all : List (Episode (Logged P) W)} (h : ∀ e ∈ all, e.Continues) : Lifecycle all
  | ended {earlier later : List (Episode (Logged P) W)} {last : Episode (Logged P) W}
      (he : ∀ e ∈ earlier, e.Continues) (hl : last.Ends)
      (hr : ∀ e ∈ later, e.Rests last.after) : Lifecycle (earlier ++ last :: later)

theorem Lifecycle.cons {e : Episode (Logged P) W} {rest : List (Episode (Logged P) W)}
    (he : e.Continues) (h : Lifecycle rest) : Lifecycle (e :: rest) := by
  cases h with
  | lives h =>
    refine .lives ?_
    intro x hx
    rcases List.mem_cons.mp hx with rfl | hx
    · exact he
    · exact h x hx
  | @ended earlier later last hearlier hl hr =>
    have hall : ∀ x ∈ e :: earlier, x.Continues := by
      intro x hx
      rcases List.mem_cons.mp hx with rfl | hx
      · exact he
      · exact hearlier x hx
    exact Lifecycle.ended hall hl hr

/-- Whoever is told of an end can look up in the calls what it came from. -/
theorem Lifecycle.ends_of_reported {all : List (Episode (Logged P) W)} (h : Lifecycle all)
    {e : Episode (Logged P) W} (he : e ∈ all) (hr : e.ending ≠ none) : e.Ends := by
  cases h with
  | lives h => exact absurd (h e he).unreported hr
  | ended hearlier hl hlater =>
    rcases List.mem_append.mp he with he | he
    · exact absurd (hearlier e he).unreported hr
    rcases List.mem_cons.mp he with rfl | he
    · exact hl
    · exact absurd (hlater e he).unreported hr

theorem Lifecycle.reported_once {all : List (Episode (Logged P) W)} (h : Lifecycle all) :
    (all.filterMap ending).length ≤ 1 := by
  have hnone : ∀ es : List (Episode (Logged P) W), (∀ e ∈ es, e.ending = none) →
      es.filterMap ending = [] := by
    intro es hes
    exact List.filterMap_eq_nil_iff.mpr hes
  cases h with
  | lives h =>
    rw [hnone all fun e he => (h e he).unreported]
    exact Nat.zero_le 1
  | ended he hl hr =>
    rw [List.filterMap_append, hnone _ fun e hmem => (he e hmem).unreported, List.nil_append,
      List.filterMap_cons]
    split <;> simp [hnone _ fun e hmem => (hr e hmem).unreported]

end Episode

namespace Bridge

section Course

variable {P Q W C : Type} [Pipe P W C]

/-- What an activity of a live bridge comes to, as its episode tells it. -/
theorem episode_cases {s : Side} {events : SocketEvents} {b b' : Bridge (Logged P)} {w w' : W}
    {ending : Option Bool} (hd : b.dead = false) (hf : b.finalStats = none)
    (h : b.onActivity s events w = .ok (ending, b', w')) :
    Episode.Continues ⟨b, w, ending, b', w'⟩ ∧ b'.finalStats = none ∨
      Episode.Ends ⟨b, w, ending, b', w'⟩ := by
  cases acted h with
  | ignored hdead =>
    rw [hd] at hdead
    cases hdead
  | failed _ hr hh =>
    have htraced := traced_of_notice hr hh
    have hfailed := Episode.failed_of_traced htraced w (some false) w'
    right
    exact ⟨hd, .inl ⟨hfailed, rfl⟩, rfl, stats_die (htraced.finalStats.trans hf), detached_die _⟩
  | closed _ hr hh hc =>
    have htraced := traced_of_notice hr hh
    have hfailed := Episode.failed_of_traced htraced w (some true) w'
    right
    exact ⟨hd, .inr ⟨hfailed, hc, rfl⟩, rfl, stats_die (htraced.finalStats.trans hf),
      detached_die _⟩
  | lives _ hr hh hc =>
    have htraced := traced_of_notice hr hh
    have hfailed := Episode.failed_of_traced htraced w none w'
    have hf' := htraced.finalStats.trans hf
    left
    exact ⟨⟨hd, hfailed, hc, rfl, htraced.dead.trans hd, stats_alive hf'⟩, hf'⟩

theorem acted_of_course {activities : List (Activity W)} {b : Bridge P} {w : W}
    {all : List (Episode P W)} (h : course activities b w = .ok all) :
    ∀ e ∈ all, ∃ s events, Acted s events e.before e.world e.ending e.after e.outcome := by
  induction activities generalizing b w all with
  | nil =>
    cases h
    exact fun e he => absurd he List.not_mem_nil
  | cons a rest ih =>
    unfold course at h
    simp only [Checked.bind_eq_ok_iff] at h
    obtain ⟨⟨ending, b', w'⟩, hact, later, hlater, heq⟩ := h
    cases heq
    intro e he
    rcases List.mem_cons.mp he with rfl | he
    · exact ⟨a.side, a.events, acted hact⟩
    · exact ih hlater e he

theorem rests_of_course {activities : List (Activity W)} {b : Bridge (Logged P)} {w : W}
    {all : List (Episode (Logged P) W)} (hd : b.dead = true)
    (h : course activities b w = .ok all) : ∀ e ∈ all, e.Rests b := by
  induction activities generalizing w all with
  | nil =>
    cases h
    simp
  | cons a rest ih =>
    unfold course at h
    rw [onActivity_dead hd, Checked.ok_bind] at h
    obtain ⟨later, hlater, heq⟩ := Checked.bind_eq_ok_iff.mp h
    cases heq
    intro e he
    rcases List.mem_cons.mp he with rfl | he
    · exact ⟨rfl, rfl, rfl, rfl⟩
    · exact ih hlater e he

theorem lifecycle_of_course {activities : List (Activity W)} {b : Bridge (Logged P)} {w : W}
    {all : List (Episode (Logged P) W)} (hd : b.dead = false) (hf : b.finalStats = none)
    (h : course activities b w = .ok all) : Episode.Lifecycle all := by
  induction activities generalizing b w all with
  | nil =>
    cases h
    exact .lives fun e he => absurd he List.not_mem_nil
  | cons a rest ih =>
    unfold course at h
    simp only [Checked.bind_eq_ok_iff] at h
    obtain ⟨⟨ending, b', w'⟩, hact, later, hlater, heq⟩ := h
    cases heq
    -- what is left of the course starts from a bridge that goes on, or from one that is dead
    rcases episode_cases hd hf hact with ⟨hcontinues, hf'⟩ | hends
    · exact .cons hcontinues (ih hcontinues.survived hf' hlater)
    · have hrests := rests_of_course hends.dead hlater
      exact Episode.Lifecycle.ended (fun e he => absurd he List.not_mem_nil) hends hrests

theorem course_mapPipes [Pipe Q W C] {f : Q → P} (hf : Pipe.Erases W f)
    (activities : List (Activity W)) (b : Bridge Q) (w : W) :
    course activities (b.mapPipes f) w =
      (course activities b w).map fun all => all.map (Episode.map f) := by
  induction activities generalizing b w with
  | nil => rfl
  | cons a rest ih =>
    unfold course
    rw [onActivity_mapPipes hf, Checked.bind_map, Checked.map_bind]
    refine bind_congr fun ⟨ending, b', w'⟩ => ?_
    dsimp only
    rw [ih, Checked.bind_map, Checked.map_bind]
    rfl

theorem unended_of_attached {b b' : Bridge P} {callback : Side → C} {w w' : W}
    {result : Except Failure Unit} (h : Attached callback b w result b' w') :
    b'.dead = b.dead ∧ b'.finalStats = b.finalStats := by
  cases h <;> simp [started]

/-- Whatever the pipes of a bridge do, and whenever it is told of readiness, it goes on until an
activity ends it: in good order if both sides are closed after that, and abruptly if there was a
fatal error, the report of a broken pipe, or a way out that could not be closed. It reports that
once, and from then on it is dead, shows the same figures, and has no use for its pipes. The calls
are those of a run over logged pipes, which is the same run. -/
theorem ends_once {left right : P} {config : BridgeConfig} {callback : Side → C}
    {activities : List (Activity W)} {b b₁ : Bridge P} {w w₁ : W}
    {result : Except Failure Unit} {episodes : List (Episode P W)}
    (hb : between left right config = .ok (.ok b))
    (ha : b.attach callback w = .ok (result, b₁, w₁))
    (hc : course activities b₁ w₁ = .ok episodes) :
    (episodes.filterMap Episode.ending).length ≤ 1 ∧
    ∃ (r r₁ : Bridge (Logged P)) (logged : List (Episode (Logged P) W)),
      between (Logged.fresh left) (.fresh right) config = .ok (.ok r) ∧
      r.attach callback w = .ok (result, r₁, w₁) ∧ course activities r₁ w₁ = .ok logged ∧
      logged.map (Episode.map Logged.pipe) = episodes ∧ Episode.Lifecycle logged := by
  have herases : Pipe.Erases W (Logged.pipe : Logged P → P) := Logged.erases
  obtain ⟨r, hr, rfl⟩ := between_mapPipes Logged.pipe (.fresh left) (.fresh right) hb
  rw [attach_mapPipes herases] at ha
  obtain ⟨⟨_, r₁, _⟩, hattach, heq⟩ := Checked.map_eq_ok_iff.mp ha
  simp only [Prod.mk.injEq] at heq
  obtain ⟨rfl, rfl, rfl⟩ := heq
  rw [course_mapPipes herases] at hc
  obtain ⟨logged, hlogged, rfl⟩ := Checked.map_eq_ok_iff.mp hc
  obtain ⟨hdead, hfinal⟩ := unended_of_attached (attached hattach)
  rw [between_eq_ok hr] at hdead hfinal
  have hlife := lifecycle_of_course hdead hfinal hlogged
  refine ⟨?_, r, r₁, logged, hr, hattach, hlogged, rfl, hlife⟩
  rw [List.filterMap_map]
  exact hlife.reported_once

end Course

section Scripted

/-- The network and the reactor of a scripted run, where nothing happened yet. -/
abbrev scriptedHost : Host Session.Testbed Side := { net := {}, reactor := {} }

def scriptedCourse {P : Type} [Pipe P (Host Session.Testbed Side) Side]
    (activities : List (Activity (Host Session.Testbed Side))) (b : Bridge P) :
    Checked (List (Episode P (Host Session.Testbed Side))) := do
  let (_, b, w) ← b.attach id scriptedHost
  course activities b w

/-- A bridge from a pipe that yields two chunks, one at a time, to one that fails at the second
send. -/
def failingBridge : Bridge Scripted where
  left := {
    pipe := { name := "L", recvs := [.data [1, 2, 3], .block, .data [4]] }
    recvSize := 8192 }
  right := { pipe := { name := "R", sends := [.atMost 8, .fail] }, recvSize := 8192 }
  budget := 65536

/-- The left pipe has data twice, and the right one once, when it is too late. -/
def lateActivities : List (Activity (Host Session.Testbed Side)) :=
  [ { side := .left, events := { readable := true }, meanwhile := id },
    { side := .left, events := { readable := true }, meanwhile := id },
    { side := .right, events := { readable := true }, meanwhile := id } ]

theorem failingBridge_endings :
    (scriptedCourse lateActivities failingBridge).toOption.map (List.map Episode.ending) =
      some [none, some false, none] := by
  decide +kernel

theorem ends_once_failing :
    between failingBridge.left.pipe failingBridge.right.pipe {} = .ok (.ok failingBridge) ∧
    ∃ (all : List (Episode Scripted (Host Session.Testbed Side)))
      (logged : List (Episode (Logged Scripted) (Host Session.Testbed Side))),
      scriptedCourse lateActivities failingBridge = .ok all ∧
      logged.map (Episode.map Logged.pipe) = all ∧
      all.map Episode.ending = [none, some false, none] ∧
      ∃ e ∈ logged, e.ending = some false ∧ e.failed = true ∧ e.after.dead = true := by
  have hnew : between failingBridge.left.pipe failingBridge.right.pipe {} =
      .ok (.ok failingBridge) := rfl
  refine ⟨hnew, ?_⟩
  have hendings := failingBridge_endings
  cases hrun : scriptedCourse lateActivities failingBridge with
  | error v => simp [hrun, Except.toOption] at hendings
  | ok all =>
    simp only [hrun, Except.toOption, Option.map_some, Option.some.injEq] at hendings
    simp only [scriptedCourse, Checked.bind_eq_ok_iff] at hrun
    obtain ⟨⟨result, b, w⟩, ha, hc⟩ := hrun
    obtain ⟨_, _, _, logged, _, _, _, hmap, hlife⟩ := ends_once hnew ha hc
    refine ⟨all, logged, rfl, hmap, hendings, ?_⟩
    have hmem : some false ∈ logged.map Episode.ending := by
      rw [← hmap, List.map_map] at hendings
      change logged.map Episode.ending = _ at hendings
      simp [hendings]
    obtain ⟨e, he, hfalse⟩ := List.mem_map.mp hmem
    have hends := hlife.ends_of_reported he (by simp [hfalse])
    refine ⟨e, he, hfalse, ?_, hends.dead⟩
    rcases hends.reported with ⟨hfailed, _⟩ | ⟨_, _, htrue⟩
    · exact hfailed
    · rw [hfalse] at htrue
      cases htrue

/-- A bridge from a pipe that ends at once to one whose way out can not be closed right now. -/
def refusingBridge : Bridge (Logged Scripted) where
  left := { pipe := .fresh { name := "L", recvs := [.fin] }, recvSize := 8192 }
  right := { pipe := .fresh { name := "R", fins := [.block] }, recvSize := 8192 }
  budget := 65536

theorem refusingBridge_endings :
    (scriptedCourse (lateActivities.take 1) refusingBridge).toOption.map
      (List.map fun e => (e.ending, e.broke)) = some [(some false, false)] := by
  decide +kernel

/-- A bridge can end abruptly though neither pipe broke and no error was fatal. -/
theorem ends_unbroken :
    between (.fresh { name := "L", recvs := [.fin] })
      (.fresh { name := "R", fins := [.block] }) {} =
      .ok (.ok refusingBridge) ∧
    ∃ e, scriptedCourse (lateActivities.take 1) refusingBridge = .ok [e] ∧
      e.ending = some false ∧ e.broke = false := by
  refine ⟨rfl, ?_⟩
  have hendings := refusingBridge_endings
  cases hrun : scriptedCourse (lateActivities.take 1) refusingBridge with
  | error v => simp [hrun, Except.toOption] at hendings
  | ok all =>
    simp only [hrun, Except.toOption, Option.map_some, Option.some.injEq] at hendings
    obtain ⟨e, rfl, he⟩ := List.map_eq_singleton_iff.mp hendings
    simp only [Prod.mk.injEq] at he
    exact ⟨e, rfl, he.1, he.2⟩

end Scripted

end Bridge

end DuplexRelay
