import DuplexRelay.Proofs.Bridge.Transfers

/-! What each operation of a bridge can come to. Every operation that comes to a result has one of
the outcomes listed for it, so later proofs go through these cases and open no operation again. -/

namespace DuplexRelay

namespace Bridge

variable {P W C : Type} [Pipe P W C]

/-- What the first half of handling a report can come to, where the side takes data again. -/
inductive WritePhase (s : Side) (report : PipeEvents) (b : Bridge P) (w : W) :
    PipeResult Unit → Bridge P → W → Prop
  | skipped (hw : report.writable = false) : WritePhase s report b w (.ok ()) b w
  | failed {e : PipeError} {b' : Bridge P} {w' : W} (hw : report.writable = true)
      (hf : b.flush s w = .ok (.error e, b', w')) : WritePhase s report b w (.error e) b' w'
  | full {b' : Bridge P} {w' : W} (hw : report.writable = true)
      (hf : b.flush s w = .ok (.ok (), b', w')) (hs : (state (b'.side s).pipe).isWritable = false) :
      WritePhase s report b w (.ok ()) b' w'
  | relayed {result : PipeResult Unit} {b₁ b' : Bridge P} {w₁ w' : W}
      (hw : report.writable = true) (hf : b.flush s w = .ok (.ok (), b₁, w₁))
      (hs : (state (b₁.side s).pipe).isWritable = true)
      (hr : Relayed s.peer 0 b₁ w₁ result b' w') : WritePhase s report b w result b' w'

/-- What the second half of handling a report can come to, where the side has data again. -/
inductive ReadPhase (s : Side) (report : PipeEvents) (b : Bridge P) (w : W) :
    PipeResult Unit → Bridge P → W → Prop
  | skipped (hs : ¬(report.readable = true ∧ (state (b.side s.peer).pipe).isWritable = true)) :
      ReadPhase s report b w (.ok ()) b w
  | relayed {result : PipeResult Unit} {b' : Bridge P} {w' : W} (hr : report.readable = true)
      (hs : (state (b.side s.peer).pipe).isWritable = true)
      (hrel : Relayed s 0 b w result b' w') : ReadPhase s report b w result b' w'

inductive Handled (s : Side) (report : PipeEvents) (b : Bridge P) (w : W) :
    PipeResult Unit → Bridge P → W → Prop
  | broken (hb : report.broken = true) : Handled s report b w (.error .broken) b w
  | failed {e : PipeError} {b' : Bridge P} {w' : W} (hb : report.broken = false)
      (hw : WritePhase s report b w (.error e) b' w') : Handled s report b w (.error e) b' w'
  | done {result : PipeResult Unit} {b₁ b' : Bridge P} {w₁ w' : W} (hb : report.broken = false)
      (hw : WritePhase s report b w (.ok ()) b₁ w₁)
      (hr : ReadPhase s report b₁ w₁ result b' w') : Handled s report b w result b' w'

theorem readPhase {s : Side} {report : PipeEvents} {b b' : Bridge P} {w w' : W}
    {result : PipeResult Unit}
    (h : (if report.readable && (state (b.side s.peer).pipe).isWritable then b.relay s w
      else pure (.ok (), b, w) : Checked _) = .ok (result, b', w')) :
    ReadPhase s report b w result b' w' := by
  split at h
  · rename_i hr
    simp only [Bool.and_eq_true] at hr
    exact .relayed hr.1 hr.2 (Bridge.relayed h)
  · rename_i hr
    simp only [Checked.pure_eq_ok, Except.ok.injEq, Prod.mk.injEq] at h
    obtain ⟨rfl, rfl, rfl⟩ := h
    exact .skipped (by simpa using hr)

theorem handled {s : Side} {report : PipeEvents} {b b' : Bridge P} {w w' : W}
    {result : PipeResult Unit} (h : b.handle s report w = .ok (result, b', w')) :
    Handled s report b w result b' w' := by
  unfold handle at h
  split at h
  · rename_i hb
    simp only [Checked.pure_eq_ok, Except.ok.injEq, Prod.mk.injEq] at h
    obtain ⟨rfl, rfl, rfl⟩ := h
    exact .broken hb
  rename_i hb
  have hb : report.broken = false := by simpa using hb
  dsimp only at h
  split at h
  · rename_i hw
    simp only [Checked.bind_eq_ok_iff] at h
    obtain ⟨⟨r, b₁, w₁⟩, hf, h⟩ := h
    cases r with
    | error e =>
      simp only [Checked.pure_eq_ok] at h
      cases h
      exact .failed hb (.failed hw hf)
    | ok _ =>
      dsimp only at h
      split at h
      · rename_i hs
        simp only [Checked.bind_eq_ok_iff] at h
        obtain ⟨⟨r, b₂, w₂⟩, hrel, h⟩ := h
        have hwrite := WritePhase.relayed hw hf hs (Bridge.relayed hrel)
        cases r with
        | error e =>
          simp only [Checked.pure_eq_ok, Except.ok.injEq, Prod.mk.injEq] at h
          obtain ⟨rfl, rfl, rfl⟩ := h
          exact .failed hb hwrite
        | ok _ => exact .done hb hwrite (readPhase h)
      · rename_i hs
        exact .done hb (.full hw hf (by simpa using hs)) (readPhase h)
  · rename_i hw
    exact .done hb (.skipped (by simpa using hw)) (readPhase h)

inductive Acted (s : Side) (events : SocketEvents) (b : Bridge P) (w : W) :
    Option Bool → Bridge P → W → Prop
  | ignored (hd : b.dead = true) : Acted s events b w none b w
  | failed {report : PipeEvents} {e : PipeError} {pipe : P} {b' : Bridge P} {w₁ w' : W}
      (hd : b.dead = false)
      (hr : Pipe.react events (b.side s).pipe w = .ok (report, pipe, w₁))
      (hh : Handled s report (b.setSide s { b.side s with pipe }) w₁ (.error e) b' w') :
      Acted s events b w (some false) b'.die w'
  | closed {report : PipeEvents} {pipe : P} {b' : Bridge P} {w₁ w' : W} (hd : b.dead = false)
      (hr : Pipe.react events (b.side s).pipe w = .ok (report, pipe, w₁))
      (hh : Handled s report (b.setSide s { b.side s with pipe }) w₁ (.ok ()) b' w')
      (hc : b'.isClosed = true) : Acted s events b w (some true) b'.die w'
  | lives {report : PipeEvents} {pipe : P} {b' : Bridge P} {w₁ w' : W} (hd : b.dead = false)
      (hr : Pipe.react events (b.side s).pipe w = .ok (report, pipe, w₁))
      (hh : Handled s report (b.setSide s { b.side s with pipe }) w₁ (.ok ()) b' w')
      (hc : b'.isClosed = false) : Acted s events b w none b' w'

theorem acted {s : Side} {events : SocketEvents} {b b' : Bridge P} {w w' : W}
    {ending : Option Bool} (h : b.onActivity s events w = .ok (ending, b', w')) :
    Acted s events b w ending b' w' := by
  unfold onActivity at h
  split at h
  · rename_i hd
    simp only [Checked.pure_eq_ok, Except.ok.injEq, Prod.mk.injEq] at h
    obtain ⟨rfl, rfl, rfl⟩ := h
    exact .ignored hd
  rename_i hd
  have hd : b.dead = false := by simpa using hd
  simp only [Checked.bind_eq_ok_iff] at h
  obtain ⟨⟨report, pipe, w₁⟩, hr, ⟨r, b₁, w₂⟩, hh, h⟩ := h
  have hh := handled hh
  cases r with
  | error e =>
    simp only [Checked.pure_eq_ok, Except.ok.injEq, Prod.mk.injEq] at h
    obtain ⟨rfl, rfl, rfl⟩ := h
    exact .failed hd hr hh
  | ok _ =>
    dsimp only at h
    split at h
    · rename_i hc
      simp only [Checked.pure_eq_ok, Except.ok.injEq, Prod.mk.injEq] at h
      obtain ⟨rfl, rfl, rfl⟩ := h
      exact .closed hd hr hh hc
    · rename_i hc
      simp only [Checked.pure_eq_ok, Except.ok.injEq, Prod.mk.injEq] at h
      obtain ⟨rfl, rfl, rfl⟩ := h
      exact .lives hd hr hh (by simpa using hc)

/-- The bridge, whose pipes are registered or are about to be. -/
def started (b : Bridge P) : Bridge P := { b with initialized := true }

theorem Acted.alive {s : Side} {events : SocketEvents} {b b' : Bridge P} {w w' : W}
    {ending : Option Bool} (h : Acted s events b w ending b' w') (hd : b'.dead = false) :
    b.dead = false := by
  cases h with
  | ignored => exact hd
  | failed ha | closed ha | lives ha => exact ha

theorem Acted.isClosed {s : Side} {events : SocketEvents} {b b' : Bridge P} {w w' : W}
    (h : Acted s events b w (some true) b' w') (d : Side) :
    (state (b'.side d).pipe).isClosed = true := by
  generalize hending : some true = ending at h
  cases h with
  | ignored | failed | lives => cases hending
  | closed _ _ _ hc =>
    obtain ⟨hl, hr⟩ := Bool.and_eq_true_iff.mp hc
    cases d with
    | left => exact hl
    | right => exact hr

inductive Attached (callback : Side → C) (b : Bridge P) (w : W) :
    Except Failure Unit → Bridge P → W → Prop
  | refused {e : Failure} {pipe : P} {w' : W} (hi : b.initialized = false)
      (hl : Pipe.attach (callback .left) (b.side .left).pipe w = .ok (.error e, pipe, w')) :
      Attached callback b w (.error e)
        (b.started.setSide .left { b.side .left with pipe }) w'
  | done {result : Except Failure Unit} {left right : P} {w₁ w' : W} (hi : b.initialized = false)
      (hl : Pipe.attach (callback .left) (b.side .left).pipe w = .ok (.ok (), left, w₁))
      (hr : Pipe.attach (callback .right) (b.side .right).pipe w₁ = .ok (result, right, w')) :
      Attached callback b w result
        ((b.started.setSide .left { b.side .left with pipe := left }).setSide .right
          { b.side .right with pipe := right }) w'

theorem attached {callback : Side → C} {b b' : Bridge P} {w w' : W}
    {result : Except Failure Unit} (h : b.attach callback w = .ok (result, b', w')) :
    Attached callback b w result b' w' := by
  have hi : b.initialized = false := by
    cases hi : b.initialized with
    | false => rfl
    | true => simp [attach, hi] at h
  unfold attach at h
  dsimp only at h
  rw [if_neg (show ¬b.initialized = true by simp [hi])] at h
  simp only [Checked.bind_eq_ok_iff] at h
  obtain ⟨⟨r, left, w₁⟩, hl, h⟩ := h
  cases r with
  | error e =>
    cases h
    exact .refused hi hl
  | ok _ =>
    simp only [Checked.bind_eq_ok_iff] at h
    obtain ⟨⟨r, right, w₂⟩, hr, h⟩ := h
    cases h
    exact .done hi hl hr

end Bridge

end DuplexRelay
