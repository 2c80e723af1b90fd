import DuplexRelay.Proofs.Pipe.Tcp

/-! What is known of a pipe between its operations, whatever its layers: how its state relates to
that of the socket pipe at the bottom, and what each operation does to it as long as the pipe does
not fail. The laws are proved for a socket pipe here, and for each layer given those of the pipe
below it. -/

namespace DuplexRelay

/-- What is to be known of pipes of a type. -/
structure Outlook (P : Type) where
  /-- the socket pipe at the bottom -/
  base : P → Tcp
  /-- nothing is wrong, and what the layers hold fits the state of the pipe at the bottom -/
  regular : P → Prop
  /-- the way out was closed, or is to be closed behind what is queued -/
  closing : P → Prop
  /-- bytes were accepted that a layer still holds -/
  holding : P → Prop

namespace Outlook

/-- A result that leaves the pipe of use. -/
def LeavesUsable {α : Type} (result : PipeResult α) : Prop :=
  ∀ e, result = .error e → e.isFatal = false

theorem leavesUsable_ok {α : Type} (a : α) : LeavesUsable (.ok a) := nofun

section Effects

variable {P : Type} [HasPipeState P]

/-- What a receive does to a pipe that is readable. -/
structure Received (o : Outlook P) (p : P) (result : PipeResult Recv) (p' : P) : Prop where
  regular : o.regular p'
  writable : (state p').isWritable = (state p).isWritable
  ready : (state p').ready = (state p).ready
  ended : (state p').finRcvd = true → result = .ok .fin
  closing : o.closing p' ↔ o.closing p

/-- What can be received from a pipe is as before. -/
structure SameIncoming (p p' : P) : Prop where
  readable : (state p').isReadable = (state p).isReadable
  ready : (state p').ready = (state p).ready
  finRcvd : (state p').finRcvd = (state p).finRcvd

/-- What a send of so many bytes does to a pipe that is writable. -/
structure Sent (o : Outlook P) (size : Nat) (p : P) (result : PipeResult Nat) (p' : P) : Prop where
  regular : o.regular p'
  incoming : SameIncoming p p'
  closing : o.closing p' ↔ o.closing p
  full : (∀ n, result = .ok n → n < size) → (state p').isWritable = false

/-- What the closing of the way out does to a pipe. -/
structure Closed (o : Outlook P) (p p' : P) : Prop where
  regular : o.regular p'
  incoming : SameIncoming p p'
  closing : o.closing p'
  full : (state p').isWritable = false

/-- What the notice of readiness does to a pipe. -/
structure Noticed (o : Outlook P) (events : SocketEvents) (p : P) (report : PipeEvents) (p' : P) :
    Prop where
  regular : o.regular p'
  closing : o.closing p' ↔ o.closing p
  ready : (state p).ready = true → (state p').ready = true
  finRcvd : (state p').finRcvd = (state p).finRcvd
  readable : (state p').isReadable = true → (state p).isReadable = true ∨ report.readable = true
  writable : (state p').isWritable = true → (state p).isWritable = true ∨ report.writable = true
  reported : report.writable = true → (state p').isWritable = true
  told : events.readable = true → (state p').ready = true → (state p').finRcvd = false →
    report.readable = true

/-- What the registration of a callback does to a pipe. -/
structure Registered (o : Outlook P) (p p' : P) : Prop where
  shown : state p' = state p
  regular : o.regular p → o.regular p'
  closing : o.closing p' → o.closing p

end Effects

/-- The laws of an outlook: what it says of states, and what operations do as long as the pipe does
not fail. -/
structure Lawful {P N C : Type} [Sockets N] [Pipe P (Host N C) C] (o : Outlook P) : Prop where
  ready : ∀ p, (state p).ready = (o.base p).bits.ready
  finSent : ∀ p, (state p).finSent = (o.base p).bits.finSent
  finRcvd : ∀ p, (state p).finRcvd = (o.base p).bits.finRcvd
  unbroken : ∀ {p}, o.regular p → (state p).broken = false ∧ (o.base p).bits.broken = false
  dry : ∀ {p}, o.regular p → (state p).isReadable = false → (o.base p).bits.readable = false
  full : ∀ {p}, o.regular p → (state p).isWritable = false → (o.base p).bits.writable = false
  flowing : ∀ {p}, o.regular p → (state p).isReadable = true →
    (state p).ready = true ∧ (state p).finRcvd = false
  shut : ∀ {p}, o.regular p → o.closing p → (state p).isWritable = false
  closing : ∀ {p}, (state p).finSent = true → o.closing p
  held : ∀ {p}, o.regular p → o.holding p →
    (state p).isWritable = false ∧ (state p).finSent = false
  attach : ∀ {callback : C} {p p' : P} {w w' : Host N C} {result},
    Pipe.attach callback p w = .ok (result, p', w') →
      o.Registered p p' ∧ Pipe.attach callback (o.base p) w = .ok (result, o.base p', w')
  recv : ∀ {n : Nat} {p p' : P} {w w' : Host N C} {result}, o.regular p →
    (state p).isReadable = true → Pipe.recv n p w = .ok (result, p', w') → LeavesUsable result →
      o.Received p result p'
  send : ∀ {data : Bytes} {p p' : P} {w w' : Host N C} {result}, o.regular p →
    (state p).isWritable = true → Pipe.send data p w = .ok (result, p', w') → LeavesUsable result →
      o.Sent data.length p result p'
  sendFin : ∀ {p p' : P} {w w' : Host N C} {result}, o.regular p →
    Pipe.sendFin p w = .ok (result, p', w') → LeavesUsable result →
      (∃ status, result = .ok status) ∧ o.Closed p p'
  react : ∀ {events : SocketEvents} {p p' : P} {w w' : Host N C} {report}, o.regular p →
    Pipe.react events p w = .ok (report, p', w') → report.broken = false →
      o.Noticed events p report p'
  reschedule : ∀ (p : P) (w : Host N C),
    Pipe.rescheduleRead p w = Pipe.rescheduleRead (o.base p) w

end Outlook

namespace Tcp

/-- The state bits of a pipe that is at work. -/
structure Regular (s : PipeState) : Prop where
  unbroken : s.broken = false
  shut : s.finSent = true → s.writable = false
  ended : s.finRcvd = true → s.readable = false
  connecting : s.ready = false → s.readable = false

theorem Regular.flowing {s : PipeState} (h : Regular s) (hr : s.readable = true) :
    s.ready = true ∧ s.finRcvd = false := by
  constructor
  · cases hn : s.ready with
    | true => rfl
    | false => simp [h.connecting hn] at hr
  · cases hf : s.finRcvd with
    | false => rfl
    | true => simp [h.ended hf] at hr

/-- What is known of a pipe over a socket. -/
def outlook : Outlook Tcp where
  base := id
  regular p := Regular p.bits
  closing p := p.bits.finSent = true
  holding _ := False

theorem isReadable_of_regular {p : Tcp} (h : Regular p.bits) :
    (state p).isReadable = p.bits.readable := by
  simp [state, PipeState.normalized, PipeState.isReadable, h.unbroken]

theorem isWritable_of_regular {p : Tcp} (h : Regular p.bits) :
    (state p).isWritable = p.bits.writable := by
  simp [state, PipeState.normalized, PipeState.isWritable, h.unbroken]

variable {N C : Type} {p p' : Tcp} {w w' : Host N C}

theorem Settled.bits {bits : PipeState} (h : Settled bits p w p' w') : p'.bits = bits := by
  rw [h.pipe]

variable [Sockets N]

theorem outlook_received {n : Nat} {result : PipeResult Recv} (hr : Regular p.bits)
    (hp : (state p).isReadable = true) (h : Pipe.recv n p w = .ok (result, p', w'))
    (hm : Outlook.LeavesUsable result) : outlook.Received p result p' := by
  rw [isReadable_of_regular hr] at hp
  obtain ⟨hready, hfin⟩ := hr.flowing hp
  have hfinish : ∀ {bits : PipeState}, p'.bits = bits → Regular bits →
      bits.writable = p.bits.writable → bits.ready = p.bits.ready →
      bits.finSent = p.bits.finSent → (bits.finRcvd = true → result = .ok .fin) →
      outlook.Received p result p' := by
    rintro bits rfl hbits hw hready hs hf
    refine ⟨hbits, ?_, hready, hf, ?_⟩
    · rw [isWritable_of_regular hbits, isWritable_of_regular hr, hw]
    · change p'.bits.finSent = true ↔ p.bits.finSent = true
      rw [hs]
  cases received h with
  | broken hb => cases hm _ rfl
  | nothing => exact hfinish rfl hr rfl rfl rfl fun h => by simp [hfin] at h
  | ended _ _ _ hs =>
    exact hfinish hs.bits ⟨hr.unbroken, hr.shut, fun _ => rfl, fun _ => rfl⟩ rfl rfl rfl
      fun _ => rfl
  | data _ _ _ _ hs =>
    refine hfinish hs.bits ⟨hr.unbroken, hr.shut, ?_, ?_⟩ rfl rfl rfl ?_
    · simp [hfin]
    · simp [hready]
    · simp [hfin]
  | refused _ _ _ _ hs =>
    refine hfinish hs.bits ⟨hr.unbroken, hr.shut, fun _ => rfl, fun _ => rfl⟩ rfl rfl rfl ?_
    simp [hfin]
  | failed => cases hm _ rfl

theorem outlook_sent {data : Bytes} {result : PipeResult Nat} (hr : Regular p.bits)
    (h : Pipe.send data p w = .ok (result, p', w')) (hm : Outlook.LeavesUsable result) :
    outlook.Sent data.length p result p' := by
  have hfinish : ∀ {bits : PipeState}, p'.bits = bits → Regular bits →
      bits.readable = p.bits.readable → bits.ready = p.bits.ready →
      bits.finSent = p.bits.finSent → bits.finRcvd = p.bits.finRcvd →
      ((∀ n, result = .ok n → n < data.length) → bits.writable = false) →
      outlook.Sent data.length p result p' := by
    rintro bits rfl hbits hread hready hs hf hw
    refine ⟨hbits, ⟨?_, hready, hf⟩, ?_, ?_⟩
    · rw [isReadable_of_regular hbits, isReadable_of_regular hr, hread]
    · change p'.bits.finSent = true ↔ p.bits.finSent = true
      rw [hs]
    · rwa [isWritable_of_regular hbits]
  cases transmitted h with
  | broken => cases hm _ rfl
  | @taken n _ _ _ hf _ _ hs =>
    refine hfinish hs.bits ⟨hr.unbroken, ?_, hr.ended, hr.connecting⟩ rfl rfl rfl rfl ?_
    · simp [hf]
    · intro hless
      have hn := hless n rfl
      simpa using Nat.ne_of_lt hn
  | refused hf _ _ _ hs =>
    exact hfinish hs.bits ⟨hr.unbroken, fun _ => rfl, hr.ended, hr.connecting⟩ rfl rfl rfl rfl
      fun _ => rfl
  | failed => cases hm _ rfl

theorem outlook_closed {result : PipeResult FinStatus} (hr : Regular p.bits)
    (h : Pipe.sendFin p w = .ok (result, p', w')) (hm : Outlook.LeavesUsable result) :
    (∃ status, result = .ok status) ∧ outlook.Closed p p' := by
  cases shutDown_outcome h with
  | broken => cases hm _ rfl
  | failed => cases hm _ rfl
  | done _ _ _ hs =>
    have hbits : Regular p'.bits := by
      rw [hs.bits]
      exact ⟨hr.unbroken, fun _ => rfl, hr.ended, hr.connecting⟩
    refine ⟨⟨_, rfl⟩, hbits, ⟨?_, ?_, ?_⟩, ?_, ?_⟩
    · rw [isReadable_of_regular hbits, isReadable_of_regular hr, hs.bits]
    · change p'.bits.ready = p.bits.ready
      rw [hs.bits]
    · change p'.bits.finRcvd = p.bits.finRcvd
      rw [hs.bits]
    · change p'.bits.finSent = true
      rw [hs.bits]
    · rw [isWritable_of_regular hbits, hs.bits]

theorem regular_noted {events : SocketEvents} {s : PipeState} (h : Regular s) :
    Regular (noted events s) := by
  refine ⟨h.unbroken, ?_, ?_, ?_⟩
  · intro hs
    have hs : s.finSent = true := hs
    simp [noted, h.shut hs, hs]
  · intro hf
    have hf : s.finRcvd = true := hf
    simp [noted, h.ended hf, hf]
  · intro hn
    cases hn

theorem outlook_noticed {events : SocketEvents} {report : PipeEvents} (hr : Regular p.bits)
    (h : Pipe.react events p w = .ok (report, p', w')) (hb : report.broken = false) :
    outlook.Noticed events p report p' := by
  cases noticed h with
  | broken hbroken => simp [hr.unbroken] at hbroken
  | failed => cases hb
  | waiting _ hready =>
    refine ⟨hr, Iff.rfl, id, rfl, .inl, .inl, fun h => ?_, fun _ h => ?_⟩
    · cases h
    · have hr : (state p).ready = p.bits.ready := rfl
      simp [hr, hready] at h
  | noted _ _ hs =>
    have hbits : Regular p'.bits := by
      rw [hs.bits]
      exact regular_noted hr
    refine ⟨hbits, ?_, ?_, ?_, ?_, ?_, ?_, ?_⟩
    · change p'.bits.finSent = true ↔ p.bits.finSent = true
      rw [hs.bits]
      rfl
    · intro _
      change p'.bits.ready = true
      rw [hs.bits]
      rfl
    · change p'.bits.finRcvd = p.bits.finRcvd
      rw [hs.bits]
      rfl
    · rw [isReadable_of_regular hbits, isReadable_of_regular hr, hs.bits]
      simp [Tcp.noted, notedReport]
    · rw [isWritable_of_regular hbits, isWritable_of_regular hr, hs.bits]
      simp [Tcp.noted, notedReport]
    · rw [isWritable_of_regular hbits, hs.bits]
      simp +contextual [Tcp.noted, notedReport]
    · intro he _ hf
      have hf : p'.bits.finRcvd = false := hf
      rw [hs.bits] at hf
      have hf : p.bits.finRcvd = false := hf
      simp [notedReport, he, hf]

/-- What can come of the registration of a socket. -/
inductive Enrolled (callback : C) (p : Tcp) (w : Host N C) :
    Except Failure Unit → Tcp → Host N C → Prop
  | refused {e : Failure} (ha : p.attached = false)
      (hr : w.reactor.add p.fd (wanted p.bits) callback = .ok (.error e)) :
      Enrolled callback p w (.error e) { p with interest := wanted p.bits } w
  | done {r : Reactor C} (ha : p.attached = false)
      (hr : w.reactor.add p.fd (wanted p.bits) callback = .ok (.ok r)) :
      Enrolled callback p w (.ok ()) { p with interest := wanted p.bits, attached := true }
        { w with reactor := r }

theorem enrolled {callback : C} {result : Except Failure Unit}
    (h : Pipe.attach callback p w = .ok (result, p', w')) :
    Enrolled callback p w result p' w' := by
  replace h : register callback p w = .ok (result, p', w') := h
  have ha : p.attached = false := by
    cases ha : p.attached with
    | false => rfl
    | true => simp [register, ha] at h
  unfold register at h
  dsimp only at h
  rw [if_neg (show ¬p.attached = true by simp [ha])] at h
  simp only [Checked.bind_eq_ok_iff] at h
  obtain ⟨added, hr, h⟩ := h
  cases added with
  | error e =>
    cases h
    exact .refused ha hr
  | ok r =>
    cases h
    exact .done ha hr

theorem outlook_lawful : outlook.Lawful (N := N) (C := C) where
  ready _ := rfl
  finSent _ := rfl
  finRcvd _ := rfl
  unbroken h := ⟨h.unbroken, h.unbroken⟩
  dry h hd := by rwa [isReadable_of_regular h] at hd
  full h hf := by rwa [isWritable_of_regular h] at hf
  flowing := by
    intro p h hp
    rw [isReadable_of_regular h] at hp
    exact h.flowing hp
  shut h hc := by
    rw [isWritable_of_regular h]
    exact h.shut hc
  closing h := h
  held _ h := h.elim
  attach h := by
    refine ⟨?_, h⟩
    cases enrolled h <;> exact ⟨rfl, id, id⟩
  recv := outlook_received
  send hr _ h hm := outlook_sent hr h hm
  sendFin := outlook_closed
  react := outlook_noticed
  reschedule _ _ := rfl

end Tcp

end DuplexRelay
