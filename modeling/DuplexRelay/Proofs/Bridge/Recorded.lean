import DuplexRelay.Bridge.Basic
import DuplexRelay.Proofs.Checked

/-! What went through the pipes of a bridge. A bridge runs over recorded pipes exactly as it runs
over the pipes themselves, so whatever is shown of the records holds of the plain run. -/

namespace DuplexRelay

/-- A pipe together with what went through it. -/
structure Recorded (P : Type) where
  pipe : P
  /-- what receives returned, the first receive first -/
  received : List Bytes := []
  /-- what sends took, the first send first -/
  accepted : List Bytes := []

namespace Recorded

variable {P W C : Type}

/-- A pipe that nothing went through yet. -/
def fresh (pipe : P) : Recorded P := { pipe }

/-- Keeps what a receive returned. -/
def noteRecv (r : Recorded P) (result : PipeResult Recv) (pipe : P) : Recorded P :=
  match result with
  | .ok (.data chunk) => { r with pipe, received := r.received ++ [chunk] }
  | _ => { r with pipe }

/-- Keeps what a send took off the front of `data`. -/
def noteSend (r : Recorded P) (data : Bytes) (result : PipeResult Nat) (pipe : P) : Recorded P :=
  match result with
  | .ok n => { r with pipe, accepted := r.accepted ++ [data.take n] }
  | .error _ => { r with pipe }

instance [HasPipeState P] : HasPipeState (Recorded P) where
  state r := state r.pipe

instance [Pipe P W C] : Pipe (Recorded P) W C where
  attach callback r w :=
    (Pipe.attach callback r.pipe w).map fun (result, pipe, w) => (result, { r with pipe }, w)
  recv n r w :=
    (Pipe.recv n r.pipe w).map fun (result, pipe, w) => (result, r.noteRecv result pipe, w)
  send data r w :=
    (Pipe.send data r.pipe w).map fun (result, pipe, w) =>
      (result, r.noteSend data result pipe, w)
  sendFin r w := (Pipe.sendFin r.pipe w).map fun (result, pipe, w) => (result, { r with pipe }, w)
  react events r w :=
    (Pipe.react events r.pipe w).map fun (report, pipe, w) => (report, { r with pipe }, w)
  rescheduleRead r w := Pipe.rescheduleRead r.pipe w
  release r w := Pipe.release r.pipe w
  backlog r w := Pipe.backlog r.pipe w

@[simp] theorem noteRecv_pipe (r : Recorded P) (result : PipeResult Recv) (pipe : P) :
    (r.noteRecv result pipe).pipe = pipe := by
  unfold noteRecv
  split <;> rfl

@[simp] theorem noteSend_pipe (r : Recorded P) (data : Bytes) (result : PipeResult Nat)
    (pipe : P) : (r.noteSend data result pipe).pipe = pipe := by
  cases result <;> rfl

end Recorded

/-- The operations on pipes of type `Q` are those on the pipes of type `P` inside. -/
structure Pipe.Erases {P Q C : Type} (W : Type) [Pipe P W C] [Pipe Q W C] (f : Q → P) : Prop where
  state : ∀ q, DuplexRelay.state (f q) = DuplexRelay.state q
  attach : ∀ c q (w : W),
    Pipe.attach c (f q) w = (Pipe.attach c q w).map fun x => (x.1, f x.2.1, x.2.2)
  recv : ∀ n q (w : W), Pipe.recv n (f q) w = (Pipe.recv n q w).map fun x => (x.1, f x.2.1, x.2.2)
  send : ∀ d q (w : W), Pipe.send d (f q) w = (Pipe.send d q w).map fun x => (x.1, f x.2.1, x.2.2)
  sendFin : ∀ q (w : W),
    Pipe.sendFin (f q) w = (Pipe.sendFin q w).map fun x => (x.1, f x.2.1, x.2.2)
  react : ∀ e q (w : W),
    Pipe.react e (f q) w = (Pipe.react e q w).map fun x => (x.1, f x.2.1, x.2.2)
  rescheduleRead : ∀ q (w : W), Pipe.rescheduleRead (f q) w = Pipe.rescheduleRead q w
  backlog : ∀ q (w : W), Pipe.backlog (f q) w = Pipe.backlog q w

theorem Pipe.Erases.comp {P Q R W C : Type} [Pipe P W C] [Pipe Q W C] [Pipe R W C] {f : Q → P}
    {g : R → Q} (hf : Erases W f) (hg : Erases W g) : Erases W fun r => f (g r) where
  state r := (hf.state _).trans (hg.state r)
  attach c r w := by
    rw [hf.attach, hg.attach]
    cases Pipe.attach c r w <;> rfl
  recv n r w := by
    rw [hf.recv, hg.recv]
    cases Pipe.recv n r w <;> rfl
  send d r w := by
    rw [hf.send, hg.send]
    cases Pipe.send d r w <;> rfl
  sendFin r w := by
    rw [hf.sendFin, hg.sendFin]
    cases Pipe.sendFin r w <;> rfl
  react e r w := by
    rw [hf.react, hg.react]
    cases Pipe.react e r w <;> rfl
  rescheduleRead r w := (hf.rescheduleRead _ w).trans (hg.rescheduleRead r w)
  backlog r w := (hf.backlog _ w).trans (hg.backlog r w)

theorem Recorded.erases {P W C : Type} [Pipe P W C] :
    Pipe.Erases W (Recorded.pipe : Recorded P → P) := by
  refine ⟨fun _ => rfl, ?_, ?_, ?_, ?_, ?_, fun _ _ => rfl, fun _ _ => rfl⟩
  · intro c q w
    cases h : Pipe.attach c q.pipe w <;> simp [Pipe.attach, h, Except.map]
  · intro n q w
    cases h : Pipe.recv n q.pipe w <;> simp [Pipe.recv, h, Except.map]
  · intro d q w
    cases h : Pipe.send d q.pipe w <;> simp [Pipe.send, h, Except.map]
  · intro q w
    cases h : Pipe.sendFin q.pipe w <;> simp [Pipe.sendFin, h, Except.map]
  · intro e q w
    cases h : Pipe.react e q.pipe w <;> simp [Pipe.react, h, Except.map]

namespace Recorded

variable {P W C : Type} [Pipe P W C] {r r' : Recorded P} {w w' : W}

theorem recv_eq_ok {n : Nat} {result : PipeResult Recv}
    (h : Pipe.recv n r w = .ok (result, r', w')) :
    ∃ pipe, Pipe.recv n r.pipe w = .ok (result, pipe, w') ∧ r' = r.noteRecv result pipe := by
  obtain ⟨⟨x, pipe, w₁⟩, h, heq⟩ := Checked.map_eq_ok_iff.mp h
  cases heq
  exact ⟨pipe, h, rfl⟩

theorem send_eq_ok {data : Bytes} {result : PipeResult Nat}
    (h : Pipe.send data r w = .ok (result, r', w')) :
    ∃ pipe, Pipe.send data r.pipe w = .ok (result, pipe, w') ∧
      r' = r.noteSend data result pipe := by
  obtain ⟨⟨x, pipe, w₁⟩, h, heq⟩ := Checked.map_eq_ok_iff.mp h
  cases heq
  exact ⟨pipe, h, rfl⟩

theorem sendFin_eq_ok {result : PipeResult FinStatus}
    (h : Pipe.sendFin r w = .ok (result, r', w')) :
    ∃ pipe, Pipe.sendFin r.pipe w = .ok (result, pipe, w') ∧ r' = { r with pipe } := by
  obtain ⟨⟨x, pipe, w₁⟩, h, heq⟩ := Checked.map_eq_ok_iff.mp h
  cases heq
  exact ⟨pipe, h, rfl⟩

theorem react_eq_ok {events : SocketEvents} {report : PipeEvents}
    (h : Pipe.react events r w = .ok (report, r', w')) :
    ∃ pipe, Pipe.react events r.pipe w = .ok (report, pipe, w') ∧ r' = { r with pipe } := by
  obtain ⟨⟨x, pipe, w₁⟩, h, heq⟩ := Checked.map_eq_ok_iff.mp h
  cases heq
  exact ⟨pipe, h, rfl⟩

theorem attach_eq_ok {callback : C} {result : Except Failure Unit}
    (h : Pipe.attach callback r w = .ok (result, r', w')) :
    ∃ pipe, Pipe.attach callback r.pipe w = .ok (result, pipe, w') ∧ r' = { r with pipe } := by
  obtain ⟨⟨x, pipe, w₁⟩, h, heq⟩ := Checked.map_eq_ok_iff.mp h
  cases heq
  exact ⟨pipe, h, rfl⟩

end Recorded

namespace Bridge

variable {P Q W C : Type} (f : Q → P)

/-- A side with its pipe changed. -/
def mapSide (s : BridgeSide Q) : BridgeSide P where
  pipe := f s.pipe
  pending := s.pending
  recvSize := s.recvSize
  traffic := s.traffic

@[simp] theorem traffic_mapSide (s : BridgeSide Q) : (mapSide f s).traffic = s.traffic := rfl

/-- A bridge with its pipes changed. -/
def mapPipes (b : Bridge Q) : Bridge P where
  left := mapSide f b.left
  right := mapSide f b.right
  budget := b.budget
  initialized := b.initialized
  dead := b.dead
  finalStats := b.finalStats

@[simp] theorem side_mapPipes (b : Bridge Q) (s : Side) :
    (b.mapPipes f).side s = mapSide f (b.side s) := by
  cases s <;> rfl

@[simp] theorem mapPipes_setSide (b : Bridge Q) (s : Side) (new : BridgeSide Q) :
    (b.setSide s new).mapPipes f = (b.mapPipes f).setSide s (mapSide f new) := by
  cases s <;> rfl

@[simp] theorem mapPipes_setPipe (b : Bridge Q) (s : Side) (q : Q) :
    (b.setPipe s q).mapPipes f = (b.mapPipes f).setPipe s (f q) := by
  cases s <;> rfl

theorem between_mapPipes (left right : Q) {config : BridgeConfig} {b : Bridge P}
    (h : between (f left) (f right) config = .ok (.ok b)) :
    ∃ r, between left right config = .ok (.ok r) ∧ r.mapPipes f = b := by
  unfold between at h ⊢
  cases hv : config.validate with
  | error e => simp [hv] at h
  | ok =>
    simp only [hv, Checked.bind_eq_ok_iff] at h ⊢
    obtain ⟨buffer, hbuffer, h⟩ := h
    cases h
    exact ⟨_, ⟨buffer, hbuffer, rfl⟩, rfl⟩

variable {f} [Pipe P W C] [Pipe Q W C] (hf : Pipe.Erases W f)
include hf

theorem stats_mapPipes (b : Bridge Q) : (b.mapPipes f).stats = b.stats := by
  have hs : ∀ s, (b.mapPipes f).sideStats s = b.sideStats s := by
    intro s
    simp [sideStats, mapSide, hf.state]
  simp only [stats, hs]
  rfl

theorem isClosed_mapPipes (b : Bridge Q) : (b.mapPipes f).isClosed = b.isClosed := by
  simp [isClosed, mapPipes, mapSide, hf.state]

theorem die_mapPipes (b : Bridge Q) : (b.mapPipes f).die = b.die.mapPipes f := by
  have h := stats_mapPipes hf b
  simp only [die, h]
  rfl

theorem verdict_mapPipes (b : Bridge Q) (src : Side) (n : Nat) :
    (b.mapPipes f).verdict src n = b.verdict src n := by
  simp only [verdict, side_mapPipes, mapSide, hf.state]
  rfl

theorem flush_mapPipes (b : Bridge Q) (dst : Side) (w : W) :
    (b.mapPipes f).flush dst w =
      (b.flush dst w).map fun x => (x.1, x.2.1.mapPipes f, x.2.2) := by
  unfold flush
  simp only [side_mapPipes, mapSide]
  cases (b.side dst).pending with
  | none => rfl
  | some pending =>
    simp only [hf.send, Checked.bind_map, Checked.map_bind]
    refine bind_congr fun ⟨result, q, w'⟩ => ?_
    match result with
    | .error .wouldBlock => simp
    | .error (.io e) => simp
    | .error (.protocol r) => simp
    | .error .broken => simp
    | .ok n =>
      dsimp only
      split
      · rw [Checked.map_bind]
        exact bind_congr fun rest => by simp [mapSide]
      · simp only [side_setSide_peer, side_mapPipes, mapSide, hf.state, hf.sendFin,
          Checked.bind_map]
        split
        · rw [Checked.map_bind]
          exact bind_congr fun x => by simp [mapSide]
        · simp [mapSide]

theorem deliver_mapPipes (b : Bridge Q) (dst : Side) (chunk : Bytes) (w : W) :
    (b.mapPipes f).deliver dst chunk w =
      (b.deliver dst chunk w).map fun x => (x.1, x.2.1.mapPipes f, x.2.2) := by
  unfold deliver
  simp only [side_mapPipes, mapSide, hf.send, Checked.bind_map, Checked.map_bind]
  refine bind_congr fun ⟨result, q, w'⟩ => ?_
  dsimp only
  split
  · simp
  · split
    · simp [mapSide]
    · simp [mapSide]

theorem transfer_mapPipes (b : Bridge Q) (src : Side) (w : W) :
    (b.mapPipes f).transfer src w =
      (b.transfer src w).map fun x => (x.1, x.2.1.mapPipes f, x.2.2) := by
  unfold transfer
  simp only [side_mapPipes, mapSide]
  split
  · rfl
  simp only [hf.recv, Checked.bind_map, Checked.map_bind]
  refine bind_congr fun ⟨result, q, w'⟩ => ?_
  match result with
  | .error .wouldBlock => simp
  | .error (.io e) => simp
  | .error (.protocol r) => simp
  | .error .broken => simp
  | .ok .fin =>
    dsimp only
    rw [← mapPipes_setPipe, side_mapPipes]
    simp only [mapSide, hf.sendFin, Checked.bind_map, Checked.map_bind]
    exact bind_congr fun x => by simp
  | .ok (.data chunk) =>
    have hside : ∀ t, ({ mapSide f ((b.setPipe src q).side src) with traffic := t }) =
        mapSide f { (b.setPipe src q).side src with traffic := t } := fun _ => rfl
    dsimp only
    rw [← mapPipes_setPipe, side_mapPipes, traffic_mapSide, hside, ← mapPipes_setSide,
      deliver_mapPipes hf, Checked.bind_map, Checked.map_bind]
    exact bind_congr fun x => by simp

theorem relayWithin_mapPipes (src : Side) (fuel n : Nat) (b : Bridge Q) (w : W) :
    relayWithin src fuel n (b.mapPipes f) w =
      (relayWithin src fuel n b w).map fun x => (x.1, x.2.1.mapPipes f, x.2.2) := by
  induction fuel generalizing n b w with
  | zero =>
    unfold relayWithin
    rw [verdict_mapPipes hf]
    cases b.verdict src n with
    | stop => rfl
    | yield => simp [mapSide, hf.rescheduleRead]
    | go => rfl
  | succ fuel ih =>
    unfold relayWithin
    rw [verdict_mapPipes hf]
    cases b.verdict src n with
    | stop => rfl
    | yield => simp [mapSide, hf.rescheduleRead]
    | go =>
      simp only [transfer_mapPipes hf, Checked.bind_map, Checked.map_bind]
      refine bind_congr fun ⟨result, b', w'⟩ => ?_
      cases result with
      | error e => rfl
      | ok k => exact ih (n + k) b' w'

theorem relay_mapPipes (b : Bridge Q) (src : Side) (w : W) :
    (b.mapPipes f).relay src w =
      (b.relay src w).map fun x => (x.1, x.2.1.mapPipes f, x.2.2) := by
  simp only [relay, side_mapPipes, mapSide, hf.backlog]
  exact relayWithin_mapPipes hf src _ 0 b w

theorem handle_mapPipes (b : Bridge Q) (s : Side) (report : PipeEvents) (w : W) :
    (b.mapPipes f).handle s report w =
      (b.handle s report w).map fun x => (x.1, x.2.1.mapPipes f, x.2.2) := by
  have hread : ∀ (b : Bridge Q) (w : W),
      (if report.readable && (state ((b.mapPipes f).side s.peer).pipe).isWritable then
        (b.mapPipes f).relay s w else pure (.ok (), b.mapPipes f, w)) =
      (if report.readable && (state (b.side s.peer).pipe).isWritable then
        b.relay s w else pure (.ok (), b, w)).map
          fun x => (x.1, x.2.1.mapPipes f, x.2.2) := by
    intro b w
    simp only [side_mapPipes, mapSide, hf.state]
    split
    · exact relay_mapPipes hf b s w
    · rfl
  unfold handle
  split
  · rfl
  dsimp only
  split
  · rw [flush_mapPipes hf, Checked.bind_map, Checked.map_bind]
    refine bind_congr fun ⟨result, b', w'⟩ => ?_
    cases result with
    | error e => rfl
    | ok _ =>
      simp only [side_mapPipes, mapSide, hf.state]
      split
      · rw [relay_mapPipes hf, Checked.bind_map, Checked.map_bind]
        refine bind_congr fun ⟨result, b'', w''⟩ => ?_
        cases result with
        | error e => rfl
        | ok _ => exact hread b'' w''
      · exact hread b' w'
  · exact hread b w

theorem onActivity_mapPipes (b : Bridge Q) (s : Side) (events : SocketEvents) (w : W) :
    (b.mapPipes f).onActivity s events w =
      (b.onActivity s events w).map fun x => (x.1, x.2.1.mapPipes f, x.2.2) := by
  have hdead : (b.mapPipes f).dead = b.dead := rfl
  unfold onActivity
  rw [hdead]
  split
  · rfl
  simp only [side_mapPipes, mapSide, hf.react, Checked.bind_map, Checked.map_bind]
  refine bind_congr fun ⟨report, q, w'⟩ => ?_
  dsimp only
  rw [← mapPipes_setPipe, handle_mapPipes hf, Checked.bind_map]
  refine bind_congr fun ⟨result, b', w''⟩ => ?_
  cases result with
  | error e => simp [die_mapPipes hf]
  | ok _ =>
    simp only [isClosed_mapPipes hf]
    split
    · simp [die_mapPipes hf]
    · rfl

theorem attach_mapPipes (b : Bridge Q) (callback : Side → C) (w : W) :
    (b.mapPipes f).attach callback w =
      (b.attach callback w).map fun x => (x.1, x.2.1.mapPipes f, x.2.2) := by
  have hinit : (b.mapPipes f).initialized = b.initialized := rfl
  have hset : ({ b.mapPipes f with initialized := true } : Bridge P) =
      ({ b with initialized := true } : Bridge Q).mapPipes f := rfl
  unfold attach
  rw [hinit, hset]
  split
  · rfl
  have hleft : (({ b with initialized := true } : Bridge Q).mapPipes f).left.pipe =
      f b.left.pipe := rfl
  simp only [hleft, hf.attach, Checked.bind_map, Checked.map_bind]
  refine bind_congr fun ⟨result, q, w'⟩ => ?_
  cases result with
  | error e => simp
  | ok _ =>
    have hright : ∀ b : Bridge Q, (b.mapPipes f).right.pipe = f b.right.pipe := fun _ => rfl
    dsimp only
    rw [← mapPipes_setPipe, hright, hf.attach, Checked.bind_map, Checked.map_bind]
    exact bind_congr fun x => by simp

end Bridge

end DuplexRelay
