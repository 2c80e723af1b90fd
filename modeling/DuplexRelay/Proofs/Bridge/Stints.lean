import Mathlib.Data.List.Forall2
import DuplexRelay.Proofs.Bridge.Lifecycle

/-! The relaying within an activity, noted beside the run. There is one stint of it at most for each
direction: first from the peer of the side that was reported, then from that side itself. -/

namespace DuplexRelay

/-- One relaying from beginning to end. -/
structure Stint (P W : Type) where
  src : Side
  before : Bridge P
  world : W
  result : PipeResult Unit
  after : Bridge P
  outcome : W

def Stint.map {P Q W : Type} (f : Q → P) (x : Stint Q W) : Stint P W where
  src := x.src
  before := x.before.mapPipes f
  world := x.world
  result := x.result
  after := x.after.mapPipes f
  outcome := x.outcome

namespace Bridge

variable {P Q W C : Type}

section Noting

variable [Pipe P W C]

/-- `relay`, noted. -/
def relayNoting (src : Side) (b : Bridge P) (w : W) :
    Checked (List (Stint P W) × PipeResult Unit × Bridge P × W) := do
  let (result, after, outcome) ← b.relay src w
  return ([{ src, before := b, world := w, result, after, outcome }], result, after, outcome)

/-- The first half of `handle` with a note of its relaying. -/
def writePhaseNoting (s : Side) (report : PipeEvents) (b : Bridge P) (w : W) :
    Checked (List (Stint P W) × PipeResult Unit × Bridge P × W) := do
  if report.writable then
    let (result, b, w) ← flush s b w
    match result with
    | .error e => return ([], .error e, b, w)
    | .ok () =>
      if (state (b.side s).pipe).isWritable then relayNoting s.peer b w
      else return ([], .ok (), b, w)
  else return ([], .ok (), b, w)

def readPhaseNoting (s : Side) (report : PipeEvents) (b : Bridge P) (w : W) :
    Checked (List (Stint P W) × PipeResult Unit × Bridge P × W) :=
  if report.readable && (state (b.side s.peer).pipe).isWritable then relayNoting s b w
  else return ([], .ok (), b, w)

def handleNoting (s : Side) (report : PipeEvents) (b : Bridge P) (w : W) :
    Checked (List (Stint P W) × PipeResult Unit × Bridge P × W) := do
  if report.broken then return ([], .error .broken, b, w)
  let (first, result, b, w) ← writePhaseNoting s report b w
  match result with
  | .error e => return (first, .error e, b, w)
  | .ok () =>
    let (second, result, b, w) ← readPhaseNoting s report b w
    return (first ++ second, result, b, w)

def onActivityNoting (s : Side) (events : SocketEvents) (b : Bridge P) (w : W) :
    Checked (List (Stint P W) × Option Bool × Bridge P × W) := do
  if b.dead then return ([], none, b, w)
  let (report, pipe, w) ← Pipe.react events (b.side s).pipe w
  let (stints, result, b, w) ← handleNoting s report (b.setPipe s pipe) w
  match result with
  | .error _ => return (stints, some false, b.die, w)
  | .ok () =>
    if b.isClosed then return (stints, some true, b.die, w) else return (stints, none, b, w)

variable {b b' : Bridge P} {w w' : W} {s src : Side} {report : PipeEvents}

theorem relayNoting_snd (src : Side) (b : Bridge P) (w : W) :
    (b.relayNoting src w).map Prod.snd = b.relay src w := by
  unfold relayNoting
  cases b.relay src w <;> rfl

theorem readPhaseNoting_snd (s : Side) (report : PipeEvents) (b : Bridge P) (w : W) :
    (b.readPhaseNoting s report w).map Prod.snd =
      if report.readable && (state (b.side s.peer).pipe).isWritable then b.relay s w
      else return (.ok (), b, w) := by
  unfold readPhaseNoting
  split
  · exact relayNoting_snd s b w
  · rfl

theorem handleNoting_snd (s : Side) (report : PipeEvents) (b : Bridge P) (w : W) :
    (b.handleNoting s report w).map Prod.snd = b.handle s report w := by
  have hread (first : List (Stint P W)) (b : Bridge P) (w : W) :
      (b.readPhaseNoting s report w >>= fun (second, result, b, w) =>
        (pure (first ++ second, result, b, w) : Checked _)).map Prod.snd =
      if report.readable && (state (b.side s.peer).pipe).isWritable then b.relay s w
      else return (.ok (), b, w) := by
    rw [← readPhaseNoting_snd]
    cases b.readPhaseNoting s report w <;> rfl
  unfold handleNoting handle
  split
  · rfl
  unfold writePhaseNoting
  dsimp only
  split
  · cases b.flush s w with
    | error v => rfl
    | ok x =>
      obtain ⟨result, b₁, w₁⟩ := x
      cases result with
      | error e => rfl
      | ok _ =>
        simp only [Checked.ok_bind]
        split
        · rw [← relayNoting_snd s.peer b₁ w₁]
          cases b₁.relayNoting s.peer w₁ with
          | error v => rfl
          | ok y =>
            obtain ⟨first, result, b₂, w₂⟩ := y
            cases result with
            | error e => rfl
            | ok _ => exact hread first b₂ w₂
        · exact hread [] b₁ w₁
  · exact hread [] b w

theorem onActivityNoting_snd (s : Side) (events : SocketEvents) (b : Bridge P) (w : W) :
    (b.onActivityNoting s events w).map Prod.snd = b.onActivity s events w := by
  unfold onActivityNoting onActivity
  split
  · rfl
  cases Pipe.react events (b.side s).pipe w with
  | error v => rfl
  | ok x =>
    obtain ⟨report, pipe, w₁⟩ := x
    simp only [Checked.ok_bind]
    rw [← handleNoting_snd]
    cases (b.setPipe s pipe).handleNoting s report w₁ with
    | error v => rfl
    | ok y =>
      obtain ⟨stints, result, b₁, w₂⟩ := y
      cases result with
      | error e => rfl
      | ok _ =>
        simp only [Checked.ok_bind, Checked.map_ok]
        split <;> rfl

/-- Whatever an activity comes to, there is a note of its relaying. -/
theorem exists_noting {events : SocketEvents} {ending : Option Bool}
    (h : b.onActivity s events w = .ok (ending, b', w')) :
    ∃ stints, b.onActivityNoting s events w = .ok (stints, ending, b', w') := by
  rw [← onActivityNoting_snd] at h
  obtain ⟨⟨stints, _⟩, hnoting, heq⟩ := Checked.map_eq_ok_iff.mp h
  cases heq
  exact ⟨stints, hnoting⟩

/-- What the first half of handling a report can come to, and what was noted of it. -/
inductive WriteNoted (s : Side) (report : PipeEvents) (b : Bridge P) (w : W) :
    List (Stint P W) → PipeResult Unit → Bridge P → W → Prop
  | skipped (hw : report.writable = false) : WriteNoted s report b w [] (.ok ()) b w
  | failed {e : PipeError} {b' : Bridge P} {w' : W} (hw : report.writable = true)
      (hf : b.flush s w = .ok (.error e, b', w')) : WriteNoted s report b w [] (.error e) b' w'
  | full {b' : Bridge P} {w' : W} (hw : report.writable = true)
      (hf : b.flush s w = .ok (.ok (), b', w')) (hs : (state (b'.side s).pipe).isWritable = false) :
      WriteNoted s report b w [] (.ok ()) b' w'
  | relayed {result : PipeResult Unit} {b₁ b' : Bridge P} {w₁ w' : W}
      (hw : report.writable = true) (hf : b.flush s w = .ok (.ok (), b₁, w₁))
      (hs : (state (b₁.side s).pipe).isWritable = true)
      (hr : b₁.relay s.peer w₁ = .ok (result, b', w')) :
      WriteNoted s report b w [⟨s.peer, b₁, w₁, result, b', w'⟩] result b' w'

/-- The same of the second half. -/
inductive ReadNoted (s : Side) (report : PipeEvents) (b : Bridge P) (w : W) :
    List (Stint P W) → PipeResult Unit → Bridge P → W → Prop
  | skipped (hs : ¬(report.readable = true ∧ (state (b.side s.peer).pipe).isWritable = true)) :
      ReadNoted s report b w [] (.ok ()) b w
  | relayed {result : PipeResult Unit} {b' : Bridge P} {w' : W}
      (hr : b.relay s w = .ok (result, b', w')) :
      ReadNoted s report b w [⟨s, b, w, result, b', w'⟩] result b' w'

/-- What the handling of a report can come to, and what was noted of it. -/
inductive HandledNoted (s : Side) (report : PipeEvents) (b : Bridge P) (w : W) :
    List (Stint P W) → PipeResult Unit → Bridge P → W → Prop
  | broken (hb : report.broken = true) : HandledNoted s report b w [] (.error .broken) b w
  | failed {first : List (Stint P W)} {e : PipeError} {b' : Bridge P} {w' : W}
      (hb : report.broken = false) (hw : WriteNoted s report b w first (.error e) b' w') :
      HandledNoted s report b w first (.error e) b' w'
  | done {first second : List (Stint P W)} {result : PipeResult Unit} {b₁ b' : Bridge P}
      {w₁ w' : W} (hb : report.broken = false) (hw : WriteNoted s report b w first (.ok ()) b₁ w₁)
      (hr : ReadNoted s report b₁ w₁ second result b' w') :
      HandledNoted s report b w (first ++ second) result b' w'

variable {stints first : List (Stint P W)} {result : PipeResult Unit}

theorem WriteNoted.phase (h : WriteNoted s report b w stints result b' w') :
    WritePhase s report b w result b' w' := by
  cases h with
  | skipped hw => exact .skipped hw
  | failed hw hf => exact .failed hw hf
  | full hw hf hs => exact .full hw hf hs
  | relayed hw hf hs hr => exact .relayed hw hf hs (Bridge.relayed hr)

theorem relay_of_noting (h : b.relayNoting src w = .ok (stints, result, b', w')) :
    b.relay src w = .ok (result, b', w') ∧ stints = [⟨src, b, w, result, b', w'⟩] := by
  obtain ⟨⟨r, b₁, w₁⟩, hr, heq⟩ := Checked.bind_eq_ok_iff.mp h
  cases heq
  exact ⟨hr, rfl⟩

theorem writeNoted (h : b.writePhaseNoting s report w = .ok (stints, result, b', w')) :
    WriteNoted s report b w stints result b' w' := by
  unfold writePhaseNoting at h
  split at h
  · rename_i hw
    obtain ⟨⟨flushed, b₁, w₁⟩, hf, h⟩ := Checked.bind_eq_ok_iff.mp h
    cases flushed with
    | error e =>
      cases h
      exact .failed hw hf
    | ok _ =>
      dsimp only at h
      split at h
      · rename_i hs
        obtain ⟨hrelay, rfl⟩ := relay_of_noting h
        exact .relayed hw hf hs hrelay
      · rename_i hs
        cases h
        exact .full hw hf (by simpa using hs)
  · rename_i hw
    cases h
    exact .skipped (by simpa using hw)

theorem readNoted (h : b.readPhaseNoting s report w = .ok (stints, result, b', w')) :
    ReadNoted s report b w stints result b' w' := by
  unfold readPhaseNoting at h
  split at h
  · obtain ⟨hrelay, rfl⟩ := relay_of_noting h
    exact .relayed hrelay
  · rename_i hs
    cases h
    exact .skipped (by simpa using hs)

theorem handledNoted (h : b.handleNoting s report w = .ok (stints, result, b', w')) :
    HandledNoted s report b w stints result b' w' := by
  unfold handleNoting at h
  split at h
  · rename_i hb
    cases h
    exact .broken hb
  rename_i hb
  have hb : report.broken = false := by simpa using hb
  obtain ⟨⟨first, r, b₁, w₁⟩, hw, h⟩ := Checked.bind_eq_ok_iff.mp h
  have hw := writeNoted hw
  cases r with
  | error e =>
    cases h
    exact .failed hb hw
  | ok _ =>
    obtain ⟨⟨second, r, b₂, w₂⟩, hr, heq⟩ := Checked.bind_eq_ok_iff.mp h
    cases heq
    exact .done hb hw (readNoted hr)

/-- What an activity of a live bridge can come to, and what was noted of it. -/
inductive ActedNoted (s : Side) (events : SocketEvents) (b : Bridge P) (w : W)
    (stints : List (Stint P W)) : Option Bool → Bridge P → W → Prop
  | failed {report : PipeEvents} {e : PipeError} {pipe : P} {b' : Bridge P} {w₁ w' : W}
      (hr : Pipe.react events (b.side s).pipe w = .ok (report, pipe, w₁))
      (hh : HandledNoted s report (b.setSide s { b.side s with pipe }) w₁ stints (.error e) b' w') :
      ActedNoted s events b w stints (some false) b'.die w'
  | closed {report : PipeEvents} {pipe : P} {b' : Bridge P} {w₁ w' : W}
      (hr : Pipe.react events (b.side s).pipe w = .ok (report, pipe, w₁))
      (hh : HandledNoted s report (b.setSide s { b.side s with pipe }) w₁ stints (.ok ()) b' w') :
      ActedNoted s events b w stints (some true) b'.die w'
  | lives {report : PipeEvents} {pipe : P} {b' : Bridge P} {w₁ w' : W}
      (hr : Pipe.react events (b.side s).pipe w = .ok (report, pipe, w₁))
      (hh : HandledNoted s report (b.setSide s { b.side s with pipe }) w₁ stints (.ok ()) b' w') :
      ActedNoted s events b w stints none b' w'

theorem actedNoted {events : SocketEvents} {ending : Option Bool} (hd : b.dead = false)
    (h : b.onActivityNoting s events w = .ok (stints, ending, b', w')) :
    ActedNoted s events b w stints ending b' w' := by
  unfold onActivityNoting at h
  rw [if_neg (by simp [hd])] at h
  simp only [Checked.bind_eq_ok_iff] at h
  obtain ⟨⟨report, pipe, w₁⟩, hr, ⟨noted, r, b₁, w₂⟩, hh, h⟩ := h
  have hh := handledNoted hh
  cases r with
  | error e =>
    cases h
    exact .failed hr hh
  | ok _ =>
    dsimp only at h
    split at h
    · cases h
      exact .closed hr hh
    · cases h
      exact .lives hr hh

end Noting

/-- What activities keep, and what nobody spoils meanwhile, holds whenever a bridge is told of
readiness. -/
theorem forall_course [Pipe P W C] {I : Bridge P → W → Prop}
    (hkept : ∀ {s events b w ending b' w'}, I b w →
      onActivity s events b w = .ok (ending, b', w') → I b' w')
    {activities : List (Activity W)} (hm : ∀ a ∈ activities, ∀ b w, I b w → I b (a.meanwhile w))
    {b : Bridge P} {w : W} {episodes : List (Episode P W)} (h : I b w)
    (hc : course activities b w = .ok episodes) :
    List.Forall₂ (fun a e => I e.before e.world ∧
      e.before.onActivity a.side a.events e.world = .ok (e.ending, e.after, e.outcome))
      activities episodes := by
  induction activities generalizing b w episodes with
  | nil =>
    cases hc
    exact .nil
  | cons a rest ih =>
    unfold course at hc
    simp only [Checked.bind_eq_ok_iff] at hc
    obtain ⟨⟨ending, b', w'⟩, hact, later, hlater, heq⟩ := hc
    cases heq
    have hbefore := hm a List.mem_cons_self b w h
    refine .cons ⟨hbefore, hact⟩ ?_
    exact ih (fun a ha => hm a (List.mem_cons_of_mem _ ha)) (hkept hbefore hact) hlater

section Erased

variable [Pipe P W C] [Pipe Q W C] {f : Q → P} (hf : Pipe.Erases W f)
include hf

theorem relayNoting_mapPipes (b : Bridge Q) (src : Side) (w : W) :
    (b.mapPipes f).relayNoting src w = (b.relayNoting src w).map fun x =>
      (x.1.map (Stint.map f), x.2.1, x.2.2.1.mapPipes f, x.2.2.2) := by
  unfold relayNoting
  rw [relay_mapPipes hf]
  cases b.relay src w <;> rfl

theorem writePhaseNoting_mapPipes (b : Bridge Q) (s : Side) (report : PipeEvents) (w : W) :
    (b.mapPipes f).writePhaseNoting s report w = (b.writePhaseNoting s report w).map fun x =>
      (x.1.map (Stint.map f), x.2.1, x.2.2.1.mapPipes f, x.2.2.2) := by
  unfold writePhaseNoting
  split
  · rw [flush_mapPipes hf, Checked.bind_map, Checked.map_bind]
    refine bind_congr fun ⟨result, b₁, w₁⟩ => ?_
    cases result with
    | error e => rfl
    | ok _ =>
      dsimp only
      rw [side_mapPipes]
      simp only [mapSide, hf.state]
      split
      · exact relayNoting_mapPipes hf b₁ s.peer w₁
      · rfl
  · rfl

theorem readPhaseNoting_mapPipes (b : Bridge Q) (s : Side) (report : PipeEvents) (w : W) :
    (b.mapPipes f).readPhaseNoting s report w = (b.readPhaseNoting s report w).map fun x =>
      (x.1.map (Stint.map f), x.2.1, x.2.2.1.mapPipes f, x.2.2.2) := by
  unfold readPhaseNoting
  simp only [side_mapPipes, mapSide, hf.state]
  split
  · exact relayNoting_mapPipes hf b s w
  · rfl

theorem handleNoting_mapPipes (b : Bridge Q) (s : Side) (report : PipeEvents) (w : W) :
    (b.mapPipes f).handleNoting s report w = (b.handleNoting s report w).map fun x =>
      (x.1.map (Stint.map f), x.2.1, x.2.2.1.mapPipes f, x.2.2.2) := by
  unfold handleNoting
  split
  · rfl
  rw [writePhaseNoting_mapPipes hf, Checked.bind_map, Checked.map_bind]
  refine bind_congr fun ⟨first, result, b₁, w₁⟩ => ?_
  cases result with
  | error e => rfl
  | ok _ =>
    dsimp only
    rw [readPhaseNoting_mapPipes hf, Checked.bind_map, Checked.map_bind]
    exact bind_congr fun x => by simp

theorem onActivityNoting_mapPipes (b : Bridge Q) (s : Side) (events : SocketEvents) (w : W) :
    (b.mapPipes f).onActivityNoting s events w = (b.onActivityNoting s events w).map fun x =>
      (x.1.map (Stint.map f), x.2.1, x.2.2.1.mapPipes f, x.2.2.2) := by
  have hdead : (b.mapPipes f).dead = b.dead := rfl
  unfold onActivityNoting
  rw [hdead]
  split
  · rfl
  simp only [side_mapPipes, mapSide, hf.react, Checked.bind_map, Checked.map_bind]
  refine bind_congr ?_
  rintro ⟨report, q, w'⟩
  dsimp only
  rw [← mapPipes_setPipe, handleNoting_mapPipes hf, Checked.bind_map]
  refine bind_congr ?_
  rintro ⟨stints, result, b', w''⟩
  cases result with
  | error e => simp [die_mapPipes hf]
  | ok _ =>
    simp only [isClosed_mapPipes hf]
    split
    · simp [die_mapPipes hf]
    · rfl

end Erased

end Bridge

end DuplexRelay
