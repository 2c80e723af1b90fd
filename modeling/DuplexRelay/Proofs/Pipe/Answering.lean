import DuplexRelay.Proofs.Pipe.SocketAnswers

/-! Calls of a pipe come to a result, whatever the sockets do. There are three conditions: a socket
that was registered is still known to the reactor, nothing is sent or closed once the way out is to
be closed, and there can be a buffer of the size that a receive asks for. -/

namespace DuplexRelay

namespace Atomic

variable {P N C : Type} [Sockets N] [Pipe P (Host N C) C] {base : P → Tcp}
  {shape closing : P → Prop} {fits : Nat → Prop}

variable {p p' : Atomic P} {w w' : Host N C} {events report : PipeEvents}
  (h : Pipe.Answers (N := N) (C := C) base shape closing fits)
include h

theorem recv_answers (hs : shape p.inner) (hl : (base p.inner).Listed w.reactor) (n : Nat) :
    (∃ x, Pipe.recv n p w = .ok x) ∨ Pipe.recv n p w = .error .capacityExceeded ∧ ¬fits n := by
  change (∃ y, (Pipe.recv n p.inner w >>= _) = .ok y) ∨ (Pipe.recv n p.inner w >>= _) = _ ∧ _
  rcases h.recv n hs hl with ⟨x, hx⟩ | ⟨hlarge, hfits⟩
  · left
    rw [hx]
    exact ⟨_, rfl⟩
  · right
    rw [hlarge]
    exact ⟨rfl, hfits⟩

theorem send_eq_ok (hs : p.Shaped shape closing) (hc : ¬p.Shut closing)
    (hl : (base p.inner).Listed w.reactor) (data : Bytes) : ∃ x, Pipe.send data p w = .ok x := by
  have hf : p.finWanted = false := by
    cases hf : p.finWanted with
    | false => rfl
    | true => exact absurd (.inl hf) hc
  change ∃ x, sendWhole data p w = .ok x
  unfold sendWhole
  simp only [hf, Bool.false_eq_true, if_false]
  split
  · exact ⟨_, rfl⟩
  obtain ⟨⟨result, inner, w'⟩, hx⟩ := h.send data hs.inner (fun hi => hc (.inr hi)) hl
  rw [hx]
  cases result with
  | error e => exact ⟨_, rfl⟩
  | ok n =>
    simp only [Checked.ok_bind]
    split
    · exact ⟨_, rfl⟩
    · exact ⟨_, rfl⟩

theorem sendFin_eq_ok (hs : p.Shaped shape closing) (hc : ¬p.Shut closing)
    (hl : (base p.inner).Listed w.reactor) : ∃ x, Pipe.sendFin p w = .ok x := by
  have hf : p.finWanted = false := by
    cases hf : p.finWanted with
    | false => rfl
    | true => exact absurd (.inl hf) hc
  change ∃ x, closeBehind p w = .ok x
  unfold closeBehind
  simp only [hf, Bool.false_eq_true, if_false]
  split
  · exact ⟨_, rfl⟩
  obtain ⟨x, hx⟩ := h.sendFin hs.inner (fun hi => hc (.inr hi)) hl
  rw [hx]
  exact ⟨_, rfl⟩

theorem flushQueue_eq_ok (events : PipeEvents) (hs : p.Shaped shape closing)
    (hl : (base p.inner).Listed w.reactor) : ∃ x, flushQueue events p w = .ok x := by
  unfold flushQueue
  cases hq : p.queue with
  | none => exact ⟨_, rfl⟩
  | some queue =>
    obtain ⟨⟨result, inner, w'⟩, hx⟩ :=
      h.send queue.live hs.inner (hs.unclosed (.inl (by simp [hq]))) hl
    dsimp only
    rw [hx]
    cases result with
    | error e => exact ⟨_, rfl⟩
    | ok n =>
      simp only [Checked.ok_bind]
      split
      · rename_i hn
        obtain ⟨rest, hrest, _⟩ := ByteBuffer.consume_eq_ok (Nat.le_of_lt hn)
        rw [hrest]
        exact ⟨_, rfl⟩
      · exact ⟨_, rfl⟩

theorem flushFin_eq_ok (events : PipeEvents) (hs : p.Shaped shape closing)
    (hl : (base p.inner).Listed w.reactor) : ∃ x, flushFin events p w = .ok x := by
  unfold flushFin
  split
  · rename_i hf
    have hwanted : p.finWanted = true := (Bool.and_eq_true_iff.mp hf).2
    obtain ⟨⟨result, inner, w'⟩, hx⟩ := h.sendFin hs.inner (hs.unclosed (.inr hwanted)) hl
    rw [hx]
    rcases result with e | (_ | _) <;> exact ⟨_, rfl⟩
  · exact ⟨_, rfl⟩

theorem sameSocket_queueFlushed (hq : QueueFlushed events p w report p' w') :
    Tcp.SameSocket (base p.inner) w (base p'.inner) w' := by
  cases hq with
  | idle => exact Tcp.sameSocket_chained.refl _ _
  | refused _ hs | part _ hs | all _ hs => exact h.below.send hs

theorem answers : Pipe.Answers (N := N) (C := C) (fun p : Atomic P => base p.inner)
    (Shaped shape closing) (Shut closing) fits where
  below := below Tcp.sameSocket_chained h.below
  disciplined := disciplined h.disciplined
  recv n _ _ hs hl := recv_answers h hs.inner hl n
  send data _ _ hs hc hl := send_eq_ok h hs hc hl data
  sendFin hs hc hl := sendFin_eq_ok h hs hc hl
  react := by
    intro events p w hs hl
    obtain ⟨⟨report, inner, w₁⟩, hr⟩ := h.react events hs.inner hl
    obtain ⟨hshape, hopen⟩ := h.disciplined.reacted hs.inner hr
    have hs₁ : ({ p with inner } : Atomic P).Shaped shape closing := hs.repiped hshape hopen
    have hl₁ := hl.sameSocket (h.below.react hr)
    change ∃ x, reactFlushing events p w = .ok x
    unfold reactFlushing
    rw [hr]
    simp only [Checked.ok_bind]
    split
    · obtain ⟨⟨report₁, p₁, w₂⟩, hq⟩ := flushQueue_eq_ok h report hs₁ hl₁
      have hflushed := queueFlushed hq
      have hl₂ := Tcp.Listed.sameSocket hl₁ (sameSocket_queueFlushed h hflushed)
      rw [hq]
      exact flushFin_eq_ok h report₁ (shaped_queueFlushed h.disciplined hs₁ hflushed).1 hl₂
    · exact ⟨_, rfl⟩
  within := by
    intro n p p' w w' data hs hrecv
    obtain ⟨⟨_, inner, _⟩, hrecv, heq⟩ := Checked.bind_eq_ok_iff.mp hrecv
    cases heq
    exact h.within hs.inner hrecv

end Atomic

namespace Datagram

variable {P N C : Type} [Sockets N] [Pipe P (Host N C) C] {base : Atomic P → Tcp}
  {shape closing : Atomic P → Prop}

/-- There can be a reassembly buffer for receives of this size. -/
def Holdable (n : Nat) : Prop := Varint.maxLength + n ≤ ByteBuffer.maxCapacity

variable {p p' : Datagram P} {w w' : Host N C}
  (h : Pipe.Answers (N := N) (C := C) base shape closing fun _ => True)
include h

theorem recv_answers (hs : shape p.inner) (hl : (base p.inner).Listed w.reactor) (n : Nat) :
    (∃ x, Pipe.recv n p w = .ok x) ∨
      Pipe.recv n p w = .error .capacityExceeded ∧ ¬Holdable n := by
  by_cases hb : (p.broken || (state p.inner).broken) = true
  · refine .inl ⟨(.error .broken, p, w), ?_⟩
    change recvDatagram n p w = _
    unfold recvDatagram
    rw [if_pos hb]
    rfl
  rw [Bool.not_eq_true, Bool.or_eq_false_iff] at hb
  cases hf : front p.maxSize n p.assembled with
  | error reason =>
    obtain ⟨p', hp'⟩ := recv_violated (w := w) hb.1 hb.2 hf
    exact .inl ⟨_, hp'⟩
  | ok found =>
    cases found with
    | some found =>
      obtain ⟨p', hp', _⟩ := recv_found (w := w) hb.1 hb.2 hf
      exact .inl ⟨_, hp'⟩
    | none =>
      rcases recv_asks (w := w) hb.1 hb.2 hf with ⟨m, _, _, hgathers⟩ | ⟨hlarge, hsize⟩
      · have hinner := (h.recv m hs hl).resolve_right fun hstuck => hstuck.2 trivial
        obtain ⟨⟨answer, inner, w'⟩, hr⟩ := hinner
        have hwithin (chunk : Bytes) (hchunk : answer = .ok (.data chunk)) :
            chunk.length ≤ m := by
          subst hchunk
          exact h.within hs hr
        obtain ⟨result, p', hp', _⟩ := hgathers hr hwithin
        exact .inl ⟨_, hp'⟩
      · exact .inr ⟨hlarge, Nat.not_le.mpr hsize⟩

theorem send_eq_ok (hs : shape p.inner) (hc : ¬closing p.inner)
    (hl : (base p.inner).Listed w.reactor) (data : Bytes) : ∃ x, Pipe.send data p w = .ok x := by
  change ∃ x, sendDatagram data p w = .ok x
  unfold sendDatagram
  split
  · exact ⟨_, rfl⟩
  split
  · exact ⟨_, rfl⟩
  split
  · exact ⟨_, rfl⟩
  cases frame data with
  | error e => exact ⟨_, rfl⟩
  | ok framed =>
    obtain ⟨x, hx⟩ := h.send framed hs hc hl
    dsimp only
    rw [hx]
    exact ⟨_, rfl⟩

theorem answers : Pipe.Answers (N := N) (C := C) (fun p : Datagram P => base p.inner)
    (fun p => shape p.inner) (fun p => closing p.inner) Holdable where
  below := below Tcp.sameSocket_chained h.below
  disciplined := disciplined h.disciplined
  recv n _ _ hs hl := recv_answers h hs hl n
  send data _ _ hs hc hl := send_eq_ok h hs hc hl data
  sendFin := by
    intro p w hs hc hl
    obtain ⟨x, hx⟩ := h.sendFin hs hc hl
    change ∃ y, (if p.broken then _ else Pipe.sendFin p.inner w >>= _) = .ok y
    split
    · exact ⟨_, rfl⟩
    · rw [hx]
      exact ⟨_, rfl⟩
  react := by
    intro events p w hs hl
    obtain ⟨x, hx⟩ := h.react events hs hl
    change ∃ y, (Pipe.react events p.inner w >>= _) = .ok y
    rw [hx]
    exact ⟨_, rfl⟩
  within := by
    intro n p p' w w' data hs hrecv
    have hr := received hrecv
    generalize p'.view = v' at hr
    cases hr with
    | found _ _ hf =>
      have hbound := (eq_wire_of_firstFrame hf).2
      omega
    | completed _ _ _ _ hf =>
      have hbound := (eq_wire_of_firstFrame hf).2
      omega

end Datagram

namespace Stacked

variable {N C : Type} [Sockets N]

theorem answers_link [LawfulSockets N] {layers : List Layer}
    (h : layers = [] ∨ layers = [.datagram]) :
    let _ := pipe (B := Tcp) (W := Host N C) layers
    Pipe.Answers (N := N) (C := C) (base layers) (Shaped Tcp.Shut layers) (Shut Tcp.Shut layers)
      Datagram.Holdable := by
  rcases h with rfl | rfl
  · exact Tcp.answers Datagram.Holdable
  · exact Datagram.answers (P := Tcp) (Atomic.answers (Tcp.answers fun _ => True))

end Stacked

namespace Stack

variable {N C : Type} [Sockets N]

/-- A link whose way out was not closed in any layer that has something to do with it. -/
abbrev LinkShaped : Stack Tcp → Prop :=
  Shaped (fun layers => layers = [] ∨ layers = [.datagram]) Tcp.Shut

theorem answers [LawfulSockets N] : Pipe.Answers (N := N) (C := C) base LinkShaped (Shut Tcp.Shut)
    Datagram.Holdable := by
  let _ (layers : List Layer) : Pipe (Stacked Tcp layers) (Host N C) C := Stacked.pipe layers
  have hlayers {layers : List Layer} (h : layers = [] ∨ layers = [.datagram]) :=
    Stacked.answers_link (N := N) (C := C) h
  have htotal {α : Type} {layers : List Layer}
      {result : Checked (α × Stacked Tcp layers × Host N C)} (h : ∃ x, result = .ok x) :
      ∃ x, rewrap layers result = .ok x := by
    obtain ⟨x, rfl⟩ := h
    exact ⟨_, rfl⟩
  constructor
  · exact below Tcp.sameSocket_chained Tcp.below_sameSocket
  · exact disciplined Tcp.disciplined _
  · intro n s w hs hl
    rcases (hlayers hs.layers).recv n hs.top hl with hrecv | ⟨hlarge, hfits⟩
    · exact .inl (htotal hrecv)
    · exact .inr ⟨congrArg (rewrap s.layers) hlarge, hfits⟩
  · intro data s w hs hc hl
    exact htotal ((hlayers hs.layers).send data hs.top hc hl)
  · intro s w hs hc hl
    exact htotal ((hlayers hs.layers).sendFin hs.top hc hl)
  · intro events s w hs hl
    exact htotal ((hlayers hs.layers).react events hs.top hl)
  · intro n s s' w w' data hs h
    obtain ⟨top, hrecv, rfl⟩ := rewrap_eq_ok h
    exact (hlayers hs.layers).within hs.top hrecv

end Stack

end DuplexRelay
