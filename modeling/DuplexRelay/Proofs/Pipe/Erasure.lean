import DuplexRelay.Pipe.Stack
import DuplexRelay.Proofs.Bridge.Recorded
import DuplexRelay.Proofs.Pipe.StackOutlook

/-! Stacks on another pipe. Where the pipe at the bottom does the same as another one, so do all
stacks on it. -/

namespace DuplexRelay

variable {P Q R W C : Type}

namespace Atomic

/-- The same layer on another pipe. -/
def rebase (f : Q → P) (p : Atomic Q) : Atomic P where
  inner := f p.inner
  queue := p.queue
  finWanted := p.finWanted

theorem state_rebase [HasPipeState P] [HasPipeState Q] {f : Q → P}
    (hs : ∀ q, state (f q) = state q) (p : Atomic Q) : state (p.rebase f) = state p := by
  change (if p.queue.isSome then { state (f p.inner) with writable := false }
    else state (f p.inner)) = _
  rw [hs]
  rfl

variable [Pipe P W C] [Pipe Q W C] {f : Q → P} (hf : Pipe.Erases W f)
include hf

theorem sendWhole_rebase (data : Bytes) (p : Atomic Q) (w : W) :
    (p.rebase f).sendWhole data w =
      (p.sendWhole data w).map fun x => (x.1, x.2.1.rebase f, x.2.2) := by
  unfold sendWhole rebase
  dsimp only
  split
  · rfl
  split
  · rfl
  rw [hf.send, Checked.bind_map, Checked.map_bind]
  refine bind_congr fun ⟨result, q, w'⟩ => ?_
  cases result with
  | error e => rfl
  | ok n =>
    dsimp only
    split <;> rfl

theorem closeBehind_rebase (p : Atomic Q) (w : W) :
    (p.rebase f).closeBehind w = (p.closeBehind w).map fun x => (x.1, x.2.1.rebase f, x.2.2) := by
  unfold closeBehind rebase
  dsimp only
  split
  · rfl
  split
  · rfl
  rw [hf.sendFin, Checked.bind_map, Checked.map_bind]
  exact bind_congr fun x => rfl

theorem flushQueue_rebase (events : PipeEvents) (p : Atomic Q) (w : W) :
    (p.rebase f).flushQueue events w =
      (p.flushQueue events w).map fun x => (x.1, x.2.1.rebase f, x.2.2) := by
  obtain ⟨inner, queue, finWanted⟩ := p
  unfold flushQueue rebase
  dsimp only
  cases queue with
  | none => rfl
  | some queue =>
    dsimp only
    rw [hf.send, Checked.bind_map, Checked.map_bind]
    refine bind_congr fun ⟨result, q, w'⟩ => ?_
    cases result with
    | error e => rfl
    | ok n =>
      dsimp only
      split
      · rw [Checked.map_bind]
        exact bind_congr fun rest => rfl
      · rw [hf.state]
        rfl

theorem flushFin_rebase (events : PipeEvents) (p : Atomic Q) (w : W) :
    (p.rebase f).flushFin events w =
      (p.flushFin events w).map fun x => (x.1, x.2.1.rebase f, x.2.2) := by
  unfold flushFin rebase
  dsimp only
  split
  · rw [hf.sendFin, Checked.bind_map, Checked.map_bind]
    refine bind_congr fun ⟨result, q, w'⟩ => ?_
    rcases result with e | (_ | _) <;> rfl
  · rfl

theorem reactFlushing_rebase (events : SocketEvents) (p : Atomic Q) (w : W) :
    (p.rebase f).reactFlushing events w =
      (p.reactFlushing events w).map fun x => (x.1, x.2.1.rebase f, x.2.2) := by
  unfold reactFlushing
  change (Pipe.react events (f p.inner) w >>= _) = _
  rw [hf.react, Checked.bind_map, Checked.map_bind]
  refine bind_congr fun ⟨report, q, w'⟩ => ?_
  dsimp only
  change (if report.writable && (p.queue.isSome || p.finWanted) then
    (({ p with inner := q } : Atomic Q).rebase f).flushQueue report w' >>= _ else _) = _
  split
  · rw [flushQueue_rebase hf, Checked.bind_map, Checked.map_bind]
    exact bind_congr fun x => flushFin_rebase hf _ _ _
  · rfl

theorem erases_rebase : Pipe.Erases W (rebase f) where
  state := state_rebase hf.state
  attach c p w := by
    change (Pipe.attach c (f p.inner) w >>= _) = (Pipe.attach c p.inner w >>= _ : Checked _).map _
    rw [hf.attach, Checked.bind_map, Checked.map_bind]
    exact bind_congr fun x => rfl
  recv n p w := by
    change (Pipe.recv n (f p.inner) w >>= _) = (Pipe.recv n p.inner w >>= _ : Checked _).map _
    rw [hf.recv, Checked.bind_map, Checked.map_bind]
    exact bind_congr fun x => rfl
  send := sendWhole_rebase hf
  sendFin := closeBehind_rebase hf
  react := reactFlushing_rebase hf
  rescheduleRead p w := hf.rescheduleRead p.inner w
  backlog p w := hf.backlog p.inner w

end Atomic

namespace Datagram

def rebase (f : Q → P) (p : Datagram Q) : Datagram P where
  inner := p.inner.rebase f
  maxSize := p.maxSize
  assembly := p.assembly
  broken := p.broken

theorem extract_rebase (f : Q → P) (room : Nat) (p : Datagram Q) :
    extract room (p.rebase f) = (extract room p).map fun x => (x.1, x.2.rebase f) := by
  obtain ⟨inner, maxSize, assembly, broken⟩ := p
  unfold extract rebase
  dsimp only
  cases assembly with
  | none => rfl
  | some assembly =>
    dsimp only
    rcases Varint.parse assembly.live with e | (_ | header)
    · rfl
    · rfl
    dsimp only
    split
    · rfl
    split
    · rfl
    split
    · rfl
    · rw [Checked.map_bind]
      exact bind_congr fun rest => rfl

theorem releaseEmpty_rebase (f : Q → P) (p : Datagram Q) :
    (p.rebase f).releaseEmpty = p.releaseEmpty.rebase f := by
  obtain ⟨inner, maxSize, assembly, broken⟩ := p
  unfold releaseEmpty rebase
  dsimp only
  cases assembly with
  | none => rfl
  | some assembly =>
    dsimp only
    split <;> rfl

variable [Pipe P W C] [Pipe Q W C] {f : Q → P} (hf : Pipe.Erases W f)
include hf

theorem gather_rebase (room : Nat) (p : Datagram Q) (w : W) :
    gather room (p.rebase f) w =
      (gather room p w).map fun x => (x.1, x.2.1.rebase f, x.2.2) := by
  have hinner := Atomic.erases_rebase hf
  unfold gather
  change (prepare room p.assembly >>= fun buffer =>
    Pipe.recv buffer.tailRoom (p.inner.rebase f) w >>= _) = _
  rw [Checked.map_bind]
  refine bind_congr fun buffer => ?_
  rw [hinner.recv, Checked.bind_map, Checked.map_bind]
  refine bind_congr fun ⟨result, q, w'⟩ => ?_
  rcases result with e | (chunk | _)
  · rfl
  · dsimp only
    rw [Checked.map_bind]
    refine bind_congr fun filled => ?_
    have hextract := extract_rebase f room { p with inner := q, assembly := some filled }
    change (extract room
      (({ p with inner := q, assembly := some filled } : Datagram Q).rebase f) >>= _) = _
    rw [hextract, Checked.bind_map, Checked.map_bind]
    refine bind_congr fun ⟨found, p'⟩ => ?_
    rcases found with e | (_ | payload) <;> rfl
  · dsimp only
    split <;> rfl

theorem state_rebase (p : Datagram Q) : state (p.rebase f) = state p := by
  have hinner := Atomic.state_rebase hf.state p.inner
  change PipeState.normalized { state (p.inner.rebase f) with
    broken := (state (p.inner.rebase f)).broken || p.broken
    readable := (state (p.inner.rebase f)).readable || p.hasComplete } = _
  rw [hinner]
  rfl

theorem recvDatagram_rebase (room : Nat) (p : Datagram Q) (w : W) :
    recvDatagram room (p.rebase f) w =
      (recvDatagram room p w).map fun x => (x.1, x.2.1.rebase f, x.2.2) := by
  have hinner := Atomic.state_rebase hf.state p.inner
  unfold recvDatagram
  change (if p.broken || (state (p.inner.rebase f)).broken then _ else _) = _
  rw [hinner]
  split
  · rfl
  rw [extract_rebase, Checked.bind_map, Checked.map_bind]
  refine bind_congr fun ⟨found, p'⟩ => ?_
  rcases found with e | (_ | payload)
  · simp only [Checked.pure_eq_ok, Checked.ok_bind, Checked.map_ok, releaseEmpty_rebase]
  · dsimp only
    rw [gather_rebase hf, Checked.bind_map, Checked.map_bind]
    refine bind_congr fun x => ?_
    rw [releaseEmpty_rebase]
    rfl
  · simp only [Checked.pure_eq_ok, Checked.ok_bind, Checked.map_ok, releaseEmpty_rebase]

theorem sendDatagram_rebase (data : Bytes) (p : Datagram Q) (w : W) :
    sendDatagram data (p.rebase f) w =
      (sendDatagram data p w).map fun x => (x.1, x.2.1.rebase f, x.2.2) := by
  have hinner := Atomic.erases_rebase hf
  unfold sendDatagram
  -- the checks look at what changing the pipe below leaves alone
  change (if p.broken then _ else _) = _
  split
  · rfl
  change (if p.maxSize < data.length then _ else _) = _
  split
  · rfl
  change (if !(state (p.inner.rebase f)).isWritable then _ else _) = _
  rw [hinner.state]
  split
  · rfl
  cases frame data with
  | error e => rfl
  | ok framed =>
    change (Pipe.send framed (p.inner.rebase f) w >>= _) = _
    rw [hinner.send, Checked.bind_map, Checked.map_bind]
    exact bind_congr fun x => rfl

theorem erases_rebase : Pipe.Erases W (rebase f) where
  state := state_rebase hf
  attach c p w := by
    have hinner := Atomic.erases_rebase hf
    change (Pipe.attach c (p.inner.rebase f) w >>= _) =
      (Pipe.attach c p.inner w >>= _ : Checked _).map _
    rw [hinner.attach, Checked.bind_map, Checked.map_bind]
    exact bind_congr fun x => rfl
  recv := recvDatagram_rebase hf
  send := sendDatagram_rebase hf
  sendFin p w := by
    have hinner := Atomic.erases_rebase hf
    change (if p.broken then _ else Pipe.sendFin (p.inner.rebase f) w >>= _) =
      (if p.broken then _ else Pipe.sendFin p.inner w >>= _ : Checked _).map _
    split
    · rfl
    · rw [hinner.sendFin, Checked.bind_map, Checked.map_bind]
      exact bind_congr fun x => rfl
  react e p w := by
    have hinner := Atomic.erases_rebase hf
    change (Pipe.react e (p.inner.rebase f) w >>= _) =
      (Pipe.react e p.inner w >>= _ : Checked _).map _
    rw [hinner.react, Checked.bind_map, Checked.map_bind]
    exact bind_congr fun x => rfl
  rescheduleRead p w := hf.rescheduleRead p.inner.inner w
  backlog p w := by
    change p.buffered + 2 * Pipe.backlog (f p.inner.inner) w = _
    rw [hf.backlog]
    rfl

end Datagram

namespace Stacked

/-- The same layers on another pipe. -/
def rebase (f : Q → P) : (layers : List Layer) → Stacked Q layers → Stacked P layers
  | [], q => f q
  | .atomic :: rest, q => Atomic.rebase (rebase f rest) q
  | .datagram :: rest, q => Datagram.rebase (rebase f rest) q

theorem erases_rebase [Pipe P W C] [Pipe Q W C] {f : Q → P} (hf : Pipe.Erases W f)
    (layers : List Layer) :
    let _ := pipe (B := P) (W := W) layers
    let _ := pipe (B := Q) (W := W) layers
    Pipe.Erases W (rebase f layers) := by
  induction layers with
  | nil => exact hf
  | cons layer rest ih =>
    let _ := pipe (B := P) (W := W) rest
    let _ := pipe (B := Q) (W := W) rest
    cases layer with
    | atomic => exact Atomic.erases_rebase ih
    | datagram => exact Datagram.erases_rebase ih

end Stacked

namespace Stack

def rebase (f : Q → P) (s : Stack Q) : Stack P := ⟨s.layers, Stacked.rebase f s.layers s.top⟩

theorem base_rebase (f : Q → P) (s : Stack Q) : (s.rebase f).base = f s.base := by
  obtain ⟨layers, top⟩ := s
  change Stacked.base layers (Stacked.rebase f layers top) = f (Stacked.base layers top)
  induction layers with
  | nil => rfl
  | cons layer rest ih =>
    cases layer with
    | atomic => exact ih (Atomic.inner top)
    | datagram => exact ih (Datagram.inner top).inner

theorem rebase_rebase (f : Q → P) (g : R → Q) (s : Stack R) :
    (s.rebase g).rebase f = s.rebase (f ∘ g) := by
  obtain ⟨layers, top⟩ := s
  refine congrArg (Stack.mk layers) ?_
  change Stacked.rebase f layers (Stacked.rebase g layers top) = Stacked.rebase (f ∘ g) layers top
  induction layers with
  | nil => rfl
  | cons layer rest ih =>
    cases layer with
    | atomic =>
      change Atomic.rebase _ (Atomic.rebase _ top) = Atomic.rebase _ top
      simp only [Atomic.rebase, ih]
    | datagram =>
      change Datagram.rebase _ (Datagram.rebase _ top) = Datagram.rebase _ top
      simp only [Datagram.rebase, Atomic.rebase, ih]

theorem rebase_id (s : Stack P) : s.rebase id = s := by
  obtain ⟨layers, top⟩ := s
  refine congrArg (Stack.mk layers) ?_
  induction layers with
  | nil => rfl
  | cons layer rest ih =>
    cases layer with
    | atomic =>
      change Atomic.rebase _ top = top
      simp only [Atomic.rebase, ih]
      rfl
    | datagram =>
      change Datagram.rebase _ top = top
      simp only [Datagram.rebase, Atomic.rebase, ih]
      rfl

theorem erases_rebase [Pipe P W C] [Pipe Q W C] {f : Q → P} (hf : Pipe.Erases W f) :
    Pipe.Erases W (rebase f) := by
  let _ (layers : List Layer) : Pipe (Stacked P layers) W C := Stacked.pipe layers
  let _ (layers : List Layer) : Pipe (Stacked Q layers) W C := Stacked.pipe layers
  have hlayers := Stacked.erases_rebase hf
  refine ⟨?_, ?_, ?_, ?_, ?_, ?_, fun s w => (hlayers s.layers).rescheduleRead s.top w,
    fun s w => (hlayers s.layers).backlog s.top w⟩
  · intro s
    have hstate := (hlayers s.layers).state s.top
    change (Stacked.hasPipeState s.layers).state _ = (Stacked.hasPipeState s.layers).state _
    rw [← Stacked.pipe_hasPipeState (B := P) (W := W) s.layers,
      ← Stacked.pipe_hasPipeState (B := Q) (W := W) s.layers]
    exact hstate
  · intro c s w
    change rewrap s.layers (Pipe.attach c (Stacked.rebase f s.layers s.top) w) = _
    rw [(hlayers s.layers).attach]
    change _ = (rewrap s.layers (Pipe.attach c s.top w)).map _
    cases Pipe.attach c s.top w <;> rfl
  · intro n s w
    change rewrap s.layers (Pipe.recv n (Stacked.rebase f s.layers s.top) w) = _
    rw [(hlayers s.layers).recv]
    change _ = (rewrap s.layers (Pipe.recv n s.top w)).map _
    cases Pipe.recv n s.top w <;> rfl
  · intro d s w
    change rewrap s.layers (Pipe.send d (Stacked.rebase f s.layers s.top) w) = _
    rw [(hlayers s.layers).send]
    change _ = (rewrap s.layers (Pipe.send d s.top w)).map _
    cases Pipe.send d s.top w <;> rfl
  · intro s w
    change rewrap s.layers (Pipe.sendFin (Stacked.rebase f s.layers s.top) w) = _
    rw [(hlayers s.layers).sendFin]
    change _ = (rewrap s.layers (Pipe.sendFin s.top w)).map _
    cases Pipe.sendFin s.top w <;> rfl
  · intro e s w
    change rewrap s.layers (Pipe.react e (Stacked.rebase f s.layers s.top) w) = _
    rw [(hlayers s.layers).react]
    change _ = (rewrap s.layers (Pipe.react e s.top w)).map _
    cases Pipe.react e s.top w <;> rfl

end Stack

end DuplexRelay
