import DuplexRelay.Proofs.Pipe.Broken
import DuplexRelay.Proofs.Pipe.SocketBits
import DuplexRelay.Proofs.Pipe.WholeSends

/-! The state bits of layered pipes. Layers add nothing to what the pipe below says of its end, and
a layer that frames datagrams holds nothing complete behind the end of the stream. -/

namespace DuplexRelay

/-- The end of what comes in is noted by the receive that tells of it, and by no other call. -/
structure Pipe.NotesEnd {P C : Type} (W : Type) [Pipe P W C] (ended : P → Prop) : Prop where
  attached : ∀ {callback : C} {p p' : P} {w w' : W} {result},
    Pipe.attach callback p w = .ok (result, p', w') → ended p' → ended p
  received : ∀ {n : Nat} {p p' : P} {w w' : W} {result},
    Pipe.recv n p w = .ok (result, p', w') → ended p' → ended p ∨ result = .ok .fin
  sent : ∀ {data : Bytes} {p p' : P} {w w' : W} {result},
    Pipe.send data p w = .ok (result, p', w') → ended p' → ended p
  closed : ∀ {p p' : P} {w w' : W} {result},
    Pipe.sendFin p w = .ok (result, p', w') → ended p' → ended p
  reacted : ∀ {events : SocketEvents} {p p' : P} {w w' : W} {report},
    Pipe.react events p w = .ok (report, p', w') → ended p' → ended p

theorem Tcp.notesEnd {N C : Type} [Sockets N] :
    Pipe.NotesEnd (Host N C) fun p : Tcp => p.bits.finRcvd = true where
  attached h := by
    cases enrolled h with
    | refused | done => exact id
  received h := (received_bits h).2.1
  sent h := (transmitted_bits h).2.symm.trans
  closed h := (shutDown_bits h).1.symm.trans
  reacted h := (noticed_bits h).2.symm.trans

namespace Atomic

theorem lasts {P : Type} [HasPipeState P] {p p' : Atomic P}
    (h : (state p.inner).Lasts (state p'.inner)) : (state p).Lasts (state p') := by
  constructor
  · rw [state_ready, state_ready]
    exact h.ready
  · rw [state_broken, state_broken]
    exact h.broken
  · rw [state_finSent, state_finSent]
    exact h.finSent
  · rw [state_finRcvd, state_finRcvd]
    exact h.finRcvd

theorem coherent {P : Type} [HasPipeState P] {p : Atomic P} (h : (state p.inner).Coherent) :
    (state p).Coherent := by
  change (if p.queue.isSome then { state p.inner with writable := false }
    else state p.inner : PipeState).Coherent
  split
  · exact ⟨fun hb => ⟨(h.broken hb).1, rfl⟩, fun _ => rfl, h.finRcvd⟩
  · exact h

theorem QueueConsistent.queued_pos {P : Type} {p : Atomic P} (h : p.QueueConsistent)
    (hf : p.finWanted = true) : 0 < p.queued := by
  have hq := h.wanted hf
  have hbytes := h.queueing hq
  cases hqueue : p.queue with
  | none => exact absurd hqueue hq
  | some queue =>
    simp only [unsent, hqueue, Option.map_some, Option.getD_some] at hbytes
    simpa [queued, hqueue, ByteBuffer.size] using List.length_pos_iff.mpr hbytes

variable {P W C : Type} [Pipe P W C] {ended : P → Prop}

theorem notesEnd (h : Pipe.NotesEnd W ended) :
    Pipe.NotesEnd W fun p : Atomic P => ended p.inner where
  attached hcall := by
    obtain ⟨⟨_, inner, _⟩, hattach, heq⟩ := Checked.bind_eq_ok_iff.mp hcall
    cases heq
    exact h.attached hattach
  received hcall := by
    obtain ⟨⟨_, inner, _⟩, hrecv, heq⟩ := Checked.bind_eq_ok_iff.mp hcall
    cases heq
    exact h.received hrecv
  sent hcall := by
    cases sentWhole hcall with
    | waiting => exact id
    | refused _ _ hs | all _ _ hs | part _ _ hs => exact h.sent hs
  closed hcall := by
    cases closedBehind hcall with
    | waiting => exact id
    | passed _ _ hc => exact h.closed hc
  reacted {_ _ p' _ _ _} hcall := by
    cases reacted hcall with
    | passed hr => exact h.reacted hr
    | @flushing _ _ _ inner p₁ _ _ _ _ hr _ hq hf =>
      have hflushed : ended p₁.inner → ended inner := by
        cases hq with
        | idle => exact id
        | refused _ hs | part _ hs | all _ hs => exact h.sent hs
      have hclosed : ended p'.inner → ended p₁.inner := by
        cases hf with
        | skipped => exact id
        | closed _ _ hc => exact h.closed hc
      exact fun hend => h.reacted hr (hflushed (hclosed hend))

end Atomic

namespace Datagram

theorem coherent {P : Type} [HasPipeState P] {p : Datagram P} (h : (state p.inner).Coherent)
    (hnone : (state p.inner).finRcvd = true → p.hasComplete = false) : (state p).Coherent := by
  apply PipeState.coherent_normalized
  · intro hs
    have hs : (state p.inner).finSent = true := hs
    rw [PipeState.isWritable, h.finSent hs, Bool.false_and]
  · intro hr
    have hr : (state p.inner).finRcvd = true := hr
    rw [PipeState.isReadable, h.finRcvd hr, hnone hr, Bool.or_false, Bool.false_and]

variable {P W C : Type} [Pipe P W C] {I : Atomic P → W → Prop} {ended : Atomic P → Prop}

def Emptied (ended : Atomic P → Prop) (p : Datagram P) : Prop :=
  ended p.inner → p.assembled = []

/-- A stream that ended before has nothing to add to what is held, which was nothing. -/
theorem emptied_received {v v' : View P} {w w' : W} {room : Nat} {result : PipeResult Recv}
    (he : Pipe.NotesEnd W ended)
    (hsilent : ∀ {n : Nat} {inner : Atomic P} {w' : W} {chunk : Bytes}, ended v.inner →
      Pipe.recv n v.inner w = .ok (.ok (.data chunk), inner, w') → chunk = [])
    (h : ended v.inner → v.assembled = []) (hr : Received room v w result v' w') :
    ended v'.inner → v'.assembled = [] := by
  have hbefore {n : Nat} {chunk : Bytes} {inner : Atomic P} {w' : W}
      (hr : Pipe.recv n v.inner w = .ok (.ok (.data chunk), inner, w')) (hend : ended inner) :
      v.assembled ++ chunk = [] := by
    have hold := (he.received hr hend).resolve_right nofun
    rw [h hold, hsilent hold hr, List.append_nil]
  cases hr with
  | broken => exact h
  | found _ _ hf =>
    intro hend
    rw [h hend] at hf
    cases hf
  | violated | corrupted | cut => exact fun _ => rfl
  | refused _ _ _ hr => exact fun hend => h ((he.received hr hend).resolve_right nofun)
  | incomplete _ _ _ hr => exact hbefore hr
  | completed _ _ _ hr hn =>
    intro hend
    rw [hbefore hr hend] at hn
    cases hn
  | ended _ _ hf => exact fun _ => hf

theorem emptied_kept (hI : Pipe.Keeps I) (he : Pipe.NotesEnd W ended)
    (hsilent : ∀ {n : Nat} {p p' : Atomic P} {w w' : W} {chunk : Bytes}, I p w → ended p →
      Pipe.recv n p w = .ok (.ok (.data chunk), p', w') → chunk = []) :
    Pipe.Keeps fun (p : Datagram P) w => I p.inner w ∧ p.Emptied ended where
  attach h hcall := by
    refine ⟨hI.datagram.attach h.1 hcall, ?_⟩
    obtain ⟨⟨_, inner, _⟩, hattach, heq⟩ := Checked.bind_eq_ok_iff.mp hcall
    cases heq
    exact fun hend => h.2 (he.attached hattach hend)
  recv {_ p _ _ _ _} h hcall := by
    refine ⟨hI.datagram.recv h.1 hcall, ?_⟩
    have hbefore : ended p.view.inner → p.view.assembled = [] := h.2
    exact emptied_received he (fun hend => hsilent h.1 hend) hbefore (received hcall)
  send h hcall := by
    refine ⟨hI.datagram.send h.1 hcall, ?_⟩
    cases sent hcall with
    | broken | waiting => exact h.2
    | excessive | unframed => exact fun _ => rfl
    | passed _ _ _ _ hr => exact fun hend => h.2 (he.sent hr hend)
  sendFin h hcall := by
    refine ⟨hI.datagram.sendFin h.1 hcall, ?_⟩
    obtain ⟨_, _, rfl, rfl⟩ | ⟨_, inner, hc, rfl⟩ := closed hcall
    · exact h.2
    · exact fun hend => h.2 (he.closed hc hend)
  react h hcall := by
    refine ⟨hI.datagram.react h.1 hcall, ?_⟩
    obtain ⟨⟨_, inner, _⟩, hr, heq⟩ := Checked.bind_eq_ok_iff.mp hcall
    cases heq
    exact fun hend => h.2 (he.reacted hr hend)
  reschedule h := ⟨hI.datagram.reschedule h.1, h.2⟩

end Datagram

end DuplexRelay
