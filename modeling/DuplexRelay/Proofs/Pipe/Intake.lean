import DuplexRelay.Proofs.Pipe.Extraction
import DuplexRelay.Proofs.Pipe.Ledger
import DuplexRelay.Proofs.Socket

/-! How far a receive reaches ahead. A datagram pipe asks the pipe below for no more than its
reassembly buffer has room for, and that buffer is as large as the largest datagram the caller has
room for needs it. So the bytes that were read of a socket are never more than those of the frames
that were returned, and one buffer. -/

namespace DuplexRelay

namespace Datagram

variable {P W C : Type} {p p' : Datagram P} {room : Nat}

/-- The reassembly buffer is not larger than it has to be for the largest datagram that a caller
with so much room can take. -/
def Roomy (room : Nat) (p : Datagram P) : Prop :=
  ∀ held, p.assembly = some held → held.capacity ≤ Varint.maxLength + room

theorem Roomy.assembled_le (h : p.Roomy room) : p.assembled.length ≤ Varint.maxLength + room := by
  unfold assembled
  cases ha : p.assembly with
  | none => exact Nat.zero_le _
  | some held =>
    have hcapacity := h held ha
    rw [ByteBuffer.capacity_eq] at hcapacity
    change held.live.length ≤ _
    omega

theorem roomy_of_none (h : p.assembly = none) : p.Roomy room := by
  intro held hheld
  rw [h] at hheld
  cases hheld

theorem Roomy.same (h : p.Roomy room) (ha : p'.assembly = p.assembly) : p'.Roomy room := by
  intro held hheld
  exact h held (ha ▸ hheld)

theorem Roomy.extract {size : Nat} {result : PipeResult (Option Bytes)} (hp : p.Roomy size)
    (h : extract room p = .ok (result, p')) : p'.Roomy size ∧ p'.inner = p.inner := by
  unfold Datagram.extract at h
  cases ha : p.assembly with
  | none =>
    simp only [ha] at h
    cases h
    exact ⟨hp, rfl⟩
  | some held =>
    simp only [ha] at h
    split at h
    · cases h
      exact ⟨roomy_of_none rfl, rfl⟩
    · cases h
      exact ⟨hp, rfl⟩
    · split at h
      · cases h
        exact ⟨roomy_of_none rfl, rfl⟩
      split at h
      · cases h
        exact ⟨roomy_of_none rfl, rfl⟩
      split at h
      · cases h
        exact ⟨hp, rfl⟩
      · obtain ⟨left, hleft, heq⟩ := Checked.bind_eq_ok_iff.mp h
        cases heq
        refine ⟨?_, rfl⟩
        rintro _ ⟨⟩
        rw [ByteBuffer.capacity_consume hleft]
        exact hp held ha

theorem Roomy.releaseEmpty (h : p.Roomy room) :
    p.releaseEmpty.Roomy room ∧ p.releaseEmpty.inner = p.inner := by
  unfold Datagram.releaseEmpty
  split
  · split
    · exact ⟨roomy_of_none rfl, rfl⟩
    · exact ⟨h, rfl⟩
  · exact ⟨h, rfl⟩

theorem seeded_capacity {capacity : Nat} {data : Bytes} {buffer : ByteBuffer}
    (h : ByteBuffer.seeded capacity data = .ok buffer) :
    buffer.capacity = capacity ∧ buffer.tailRoom + data.length = capacity := by
  unfold ByteBuffer.seeded at h
  split at h
  · cases h
  split at h
  · cases h
  cases h
  simp only [ByteBuffer.capacity_eq, ByteBuffer.tailRoom, List.length_nil]
  omega

/-- A reassembly buffer that is prepared is as large as this caller needs it or as the one before,
if that is larger, and all of it behind what it holds is room. -/
theorem capacity_prepare {buffer : ByteBuffer} (h : prepare room p.assembly = .ok buffer) :
    buffer.capacity =
        max (Varint.maxLength + room) ((p.assembly.map (·.capacity)).getD 0) ∧
      buffer.tailRoom + p.assembled.length = buffer.capacity := by
  unfold prepare at h
  unfold assembled
  cases ha : p.assembly with
  | none =>
    rw [ha] at h
    obtain ⟨hcapacity, htail⟩ := seeded_capacity h
    exact ⟨hcapacity.trans (Nat.max_zero _).symm, htail.trans hcapacity.symm⟩
  | some held =>
    have hsize : held.size ≤ held.capacity := by
      rw [ByteBuffer.capacity_eq, ByteBuffer.size]
      omega
    simp only [ha] at h
    change buffer.capacity = max _ held.capacity ∧ buffer.tailRoom + held.size = buffer.capacity
    split at h
    · -- a buffer that grows holds at most what the smaller one had room for
      have hmax : max (Varint.maxLength + room) held.size = Varint.maxLength + room := by omega
      unfold ByteBuffer.regrow at h
      rw [hmax] at h
      obtain ⟨hcapacity, htail⟩ := seeded_capacity h
      change buffer.tailRoom + held.size = _ at htail
      omega
    · cases h
      rw [ByteBuffer.capacity_compact, ByteBuffer.tailRoom_compact]
      omega

theorem Roomy.capacity_le (h : p.Roomy room) :
    (p.assembly.map (·.capacity)).getD 0 ≤ Varint.maxLength + room := by
  cases ha : p.assembly with
  | none => exact Nat.zero_le _
  | some held => exact h held ha

/-- A reassembly buffer that is prepared has room for what is missing of the largest datagram. -/
theorem Roomy.prepare {buffer : ByteBuffer} (hp : p.Roomy room)
    (h : prepare room p.assembly = .ok buffer) :
    buffer.capacity = Varint.maxLength + room ∧
      buffer.tailRoom + p.assembled.length = Varint.maxLength + room := by
  have hheld := hp.capacity_le
  obtain ⟨hcapacity, htail⟩ := capacity_prepare h
  omega

variable [Pipe P W C] {w w' : W}

theorem Roomy.gather {result : PipeResult Recv} (hp : p.Roomy room)
    (h : gather room p w = .ok (result, p', w')) :
    p'.Roomy room ∧ ∃ n answer, Pipe.recv n p.inner w = .ok (answer, p'.inner, w') ∧
      n + p.assembled.length = Varint.maxLength + room := by
  unfold Datagram.gather at h
  simp only [Checked.bind_eq_ok_iff] at h
  obtain ⟨buffer, hprepare, ⟨answer, inner, w₁⟩, hr, h⟩ := h
  obtain ⟨hcapacity, htail⟩ := hp.prepare hprepare
  have hbuffer : ({ p with inner, assembly := some buffer } : Datagram P).Roomy room := by
    rintro _ ⟨⟩
    exact Nat.le_of_eq hcapacity
  match answer with
  | .error e =>
    cases h
    exact ⟨hbuffer, _, _, hr, htail⟩
  | .ok .fin =>
    dsimp only at h
    split at h
    · cases h
      exact ⟨hbuffer, _, _, hr, htail⟩
    · cases h
      exact ⟨roomy_of_none rfl, _, _, hr, htail⟩
  | .ok (.data chunk) =>
    simp only [Checked.bind_eq_ok_iff] at h
    obtain ⟨filled, happend, ⟨found, q⟩, hx, h⟩ := h
    have hfilled : ({ p with inner, assembly := some filled } : Datagram P).Roomy room := by
      rintro _ ⟨⟩
      rw [ByteBuffer.capacity_append happend]
      exact Nat.le_of_eq hcapacity
    obtain ⟨hq, hinner⟩ := hfilled.extract hx
    have hr : Pipe.recv buffer.tailRoom p.inner w = .ok (.ok (.data chunk), q.inner, w₁) := by
      rw [hr, hinner]
    match found with
    | .error e | .ok none | .ok (some payload) =>
      cases h
      exact ⟨hq, _, _, hr, htail⟩

theorem Roomy.recv {result : PipeResult Recv} (hp : p.Roomy room)
    (h : Pipe.recv room p w = .ok (result, p', w')) :
    p'.Roomy room ∧ (p'.inner = p.inner ∨
      ∃ n answer, Pipe.recv n p.inner w = .ok (answer, p'.inner, w') ∧
        n + p.assembled.length = Varint.maxLength + room) := by
  replace h : recvDatagram room p w = .ok (result, p', w') := h
  unfold recvDatagram at h
  split at h
  · cases h
    exact ⟨hp, .inl rfl⟩
  simp only [Checked.bind_eq_ok_iff] at h
  obtain ⟨⟨found, q⟩, hx, h⟩ := h
  obtain ⟨hq, hinner⟩ := hp.extract hx
  match found with
  | .error e | .ok (some payload) =>
    cases h
    obtain ⟨hq', hinner'⟩ := hq.releaseEmpty
    exact ⟨hq', .inl (hinner'.trans hinner)⟩
  | .ok none =>
    simp only [Checked.bind_eq_ok_iff] at h
    obtain ⟨⟨r, q', w₁⟩, hg, h⟩ := h
    cases h
    -- where nothing was found, the reassembly buffer is as before
    have hsame : q = p := by
      rcases extracted hx with ⟨_, ⟨_, hbad⟩, _⟩ | ⟨_, _, hsame⟩ | ⟨_, _, _, hbad, _⟩
      · cases hbad
      · exact hsame
      · cases hbad
    subst hsame
    obtain ⟨hq', n, answer, hr, hn⟩ := hq.gather hg
    obtain ⟨hrelease, hinner'⟩ := hq'.releaseEmpty
    refine ⟨hrelease, .inr ⟨n, answer, ?_, hn⟩⟩
    rw [hinner', hr]

theorem recv_le {chunk : Bytes} (h : Pipe.recv room p w = .ok (.ok (.data chunk), p', w')) :
    chunk.length ≤ room := by
  have houtcome := received h
  generalize p'.view = v' at houtcome
  generalize hanswer : (Except.ok (.data chunk) : PipeResult Recv) = result at houtcome
  cases houtcome with
  | found _ _ hf | completed _ _ _ _ hf =>
    cases hanswer
    have hlimit := (eq_wire_of_firstFrame hf).2
    omega
  | broken | violated | refused | incomplete | corrupted | ended | cut => cases hanswer

theorem Roomy.send {data : Bytes} {result : PipeResult Nat} (hp : p.Roomy room)
    (h : Pipe.send data p w = .ok (result, p', w')) : p'.Roomy room := by
  cases sent h with
  | broken | waiting => exact hp
  | excessive | unframed => exact roomy_of_none rfl
  | passed => exact hp.same rfl

theorem Roomy.sendFin {result : PipeResult FinStatus} (hp : p.Roomy room)
    (h : Pipe.sendFin p w = .ok (result, p', w')) : p'.Roomy room := by
  rcases closed h with ⟨_, _, rfl, _⟩ | ⟨_, inner, _, rfl⟩
  · exact hp
  · exact hp.same rfl

theorem Roomy.react {events : SocketEvents} {report : PipeEvents} (hp : p.Roomy room)
    (h : Pipe.react events p w = .ok (report, p', w')) : p'.Roomy room := by
  obtain ⟨⟨_, inner, _⟩, _, heq⟩ := Checked.bind_eq_ok_iff.mp h
  cases heq
  exact hp.same rfl

theorem Roomy.attach {callback : C} {result : Except Failure Unit} (hp : p.Roomy room)
    (h : Pipe.attach callback p w = .ok (result, p', w')) : p'.Roomy room := by
  obtain ⟨⟨_, inner, _⟩, _, heq⟩ := Checked.bind_eq_ok_iff.mp h
  cases heq
  exact hp.same rfl

/-- A frame takes at most twice the bytes of its datagram, unless that one is empty. -/
theorem length_wire_le (data : Bytes) :
    (wire data).length ≤ 2 * data.length + if data = [] then 1 else 0 := by
  have hencode (n : Nat) : (Varint.encode n).length ≤ max n 1 := by
    fun_induction Varint.encode n with
    | case1 n h => exact Nat.le_max_right n 1
    | case2 n h ih =>
      rw [List.length_cons]
      omega
  have hheader := hencode data.length
  rw [wire, List.length_append]
  split
  · rename_i hempty
    simp only [hempty, List.length_nil] at hheader ⊢
    omega
  · rename_i hsome
    have hlength := List.length_pos_iff.mpr hsome
    omega

theorem length_wires_le (datagrams : List Bytes) :
    (datagrams.flatMap wire).length ≤ 2 * datagrams.flatten.length + datagrams.count [] := by
  induction datagrams with
  | nil => exact Nat.zero_le _
  | cons data rest ih =>
    have hfirst := length_wire_le data
    rw [List.flatMap_cons, List.flatten_cons, List.length_append, List.length_append,
      List.count_cons]
    split at hfirst
    · rename_i hempty
      subst hempty
      simp only [BEq.rfl, if_true]
      omega
    · omega

end Datagram

/-- Only a receive changes this of a pipe. -/
structure Pipe.ChangedByReceives {P C X : Type} (W : Type) [Pipe P W C] (f : P → X) : Prop where
  send : ∀ {data : Bytes} {p p' : P} {w w' : W} {result},
    Pipe.send data p w = .ok (result, p', w') → f p' = f p
  sendFin : ∀ {p p' : P} {w w' : W} {result},
    Pipe.sendFin p w = .ok (result, p', w') → f p' = f p
  react : ∀ {events : SocketEvents} {p p' : P} {w w' : W} {report},
    Pipe.react events p w = .ok (report, p', w') → f p' = f p

variable {P W C X : Type} [Pipe P W C]

theorem Logged.changedByReceives_read :
    Pipe.ChangedByReceives W (Logged.ledger : Ledger (Logged P)).read where
  send h := by simp [ledger, calls_send h, PipeCall.read]
  sendFin h := by simp [ledger, calls_sendFin h, PipeCall.read]
  react h := by simp [ledger, calls_react h, PipeCall.read]

theorem Atomic.changedByReceives {f : P → X} (h : Pipe.ChangedByReceives W f) :
    Pipe.ChangedByReceives W fun p : Atomic P => f p.inner where
  send := by
    intro data p p' w w' result hsend
    cases sentWhole hsend with
    | waiting => rfl
    | refused _ _ hs | all _ _ hs | part _ _ hs => exact h.send hs
  sendFin := by
    intro p p' w w' result hclose
    cases closedBehind hclose with
    | waiting => rfl
    | passed _ _ hc => exact h.sendFin hc
  react := by
    intro events p p' w w' report hreact
    cases reacted hreact with
    | passed hr => exact h.react hr
    | @flushing _ _ _ inner p₁ _ w₁ w₂ _ hr _ hq hf =>
      have hqueue : f p₁.inner = f inner := by
        cases hq with
        | idle => rfl
        | refused _ hs | part _ hs | all _ hs => exact h.send hs
      have hclose : f p'.inner = f p₁.inner := by
        cases hf with
        | skipped => rfl
        | closed _ _ hc => exact h.sendFin hc
      exact hclose.trans (hqueue.trans (h.react hr))

theorem Datagram.changedByReceives {f : Atomic P → X} (h : Pipe.ChangedByReceives W f) :
    Pipe.ChangedByReceives W fun p : Datagram P => f p.inner where
  send := by
    intro data p p' w w' result hsend
    cases sent hsend with
    | broken | excessive | waiting | unframed => rfl
    | passed _ _ _ _ hr => exact h.send hr
  sendFin := by
    intro p p' w w' result hclose
    rcases closed hclose with ⟨_, _, rfl, _⟩ | ⟨_, inner, hc, rfl⟩
    · rfl
    · exact h.sendFin hc
  react := by
    intro events p p' w w' report hreact
    obtain ⟨⟨_, inner, _⟩, hr, heq⟩ := Checked.bind_eq_ok_iff.mp hreact
    cases heq
    exact h.react hr

theorem Tcp.recv_le {N : Type} [Sockets N] [LawfulSockets N] {n : Nat} {p p' : Tcp}
    {w w' : Host N C} {chunk : Bytes} (h : Pipe.recv n p w = .ok (.ok (.data chunk), p', w')) :
    chunk.length ≤ n := by
  cases Tcp.received h with
  | nothing => exact Nat.zero_le _
  | data _ _ hr => exact LawfulSockets.read_le hr

namespace Stack

/-- A connection whose reassembly buffer, if it has one, is roomy. -/
inductive Roomy {B : Type} (room : Nat) : Stack B → Prop
  | bare (p : B) : Roomy room (.bare p)
  | framed {p : Datagram B} (h : p.Roomy room) : Roomy room ⟨[.datagram], p⟩

theorem Roomy.isLink {B : Type} {room : Nat} {s : Stack B} (h : s.Roomy room) : s.IsLink := by
  cases h with
  | bare => exact .inl rfl
  | framed => exact .inr rfl

theorem Roomy.rest_le {B : Type} {room : Nat} {s : Stack B} (h : s.Roomy room) :
    s.rest.length ≤ Varint.maxLength + room := by
  cases h with
  | bare => exact Nat.zero_le _
  | framed h => exact h.assembled_le

variable {N : Type} [Sockets N] {s s' : Stack (Logged Tcp)} {w w' : Host N C} {room : Nat}

/-- The number of bytes that were read at the bottom. -/
def bytesRead (s : Stack (Logged Tcp)) : Nat := (ledger.read s).length

theorem bytesRead_recv [LawfulSockets N] {n : Nat} {l l' : Logged Tcp} {answer : PipeResult Recv}
    (h : Pipe.recv n l w = .ok (answer, l', w')) :
    (Logged.ledger.read l').length ≤ (Logged.ledger.read l).length + n ∧
      ∀ chunk, answer = .ok (.data chunk) → chunk.length ≤ n := by
  have hwithin : ∀ chunk, answer = .ok (.data chunk) → chunk.length ≤ n := by
    rintro chunk rfl
    obtain ⟨⟨_, p, _⟩, hrecv, heq⟩ := Checked.map_eq_ok_iff.mp h
    cases heq
    exact Tcp.recv_le hrecv
  refine ⟨?_, hwithin⟩
  have hcalls : Logged.ledger.read l' = Logged.ledger.read l ++ (chunksOf answer).flatten := by
    simp [Logged.ledger, Logged.calls_recv h, PipeCall.read]
  rw [hcalls, List.length_append]
  rcases answer with e | chunk | _
  · exact Nat.le_add_right _ _
  · have hle := hwithin chunk rfl
    simp only [chunksOf, List.flatten_cons, List.flatten_nil, List.append_nil]
    omega
  · exact Nat.le_add_right _ _

/-- What a receive reads and what was read before it and not returned fit into one buffer. -/
theorem Roomy.recv [LawfulSockets N] {result : PipeResult Recv} (hs : s.Roomy room)
    (h : Pipe.recv room s w = .ok (result, s', w')) :
    s'.Roomy room ∧ s'.layers = s.layers ∧
      s'.bytesRead + s.rest.length ≤ s.bytesRead + (Varint.maxLength + room) ∧
      ∀ chunk, result = .ok (.data chunk) → chunk.length ≤ room := by
  cases hs with
  | bare l =>
    obtain ⟨l', hrecv, rfl⟩ := rewrap_eq_ok h
    obtain ⟨hread, hwithin⟩ := bytesRead_recv (N := N) (l := l) hrecv
    refine ⟨.bare l', rfl, ?_, hwithin⟩
    change (Logged.ledger.read l').length + 0 ≤
      (Logged.ledger.read l).length + (Varint.maxLength + room)
    omega
  | @framed p hs =>
    obtain ⟨p', hrecv, rfl⟩ := rewrap_eq_ok h
    obtain ⟨hs', hasked⟩ := hs.recv hrecv
    have hheld := hs.assembled_le
    refine ⟨.framed hs', rfl, ?_, ?_⟩
    · change (Logged.ledger.read (Datagram.inner p').inner).length +
        (Datagram.assembled (P := Logged Tcp) p).length ≤
          (Logged.ledger.read (Datagram.inner p).inner).length + (Varint.maxLength + room)
      rcases hasked with hsame | ⟨n, answer, hr, hn⟩
      · rw [hsame]
        omega
      · obtain ⟨⟨_, l', _⟩, hr, heq⟩ := Checked.bind_eq_ok_iff.mp hr
        have hread := (bytesRead_recv hr).1
        simp only [Checked.pure_eq_ok, Except.ok.injEq, Prod.mk.injEq] at heq
        have hinner : (Datagram.inner p').inner = l' := congrArg Atomic.inner heq.2.1.symm
        rw [hinner]
        omega
    · rintro chunk rfl
      exact Datagram.recv_le (P := Logged Tcp) hrecv

/-- Nothing was read by what happened to a connection. -/
structure Unread (room : Nat) (s s' : Stack (Logged Tcp)) : Prop where
  roomy : s'.Roomy room
  layers : s'.layers = s.layers
  read : s'.bytesRead = s.bytesRead

theorem changedByReceives_bare :
    Pipe.ChangedByReceives (Host N C) fun l : Logged Tcp => (Logged.ledger.read l).length where
  send h := congrArg List.length (Logged.changedByReceives_read.send h)
  sendFin h := congrArg List.length (Logged.changedByReceives_read.sendFin h)
  react h := congrArg List.length (Logged.changedByReceives_read.react h)

theorem changedByReceives_framed : Pipe.ChangedByReceives (Host N C)
    fun p : Datagram (Logged Tcp) => (Logged.ledger.read p.inner.inner).length :=
  Datagram.changedByReceives
    (f := fun a : Atomic (Logged Tcp) => (Logged.ledger.read a.inner).length)
    (Atomic.changedByReceives changedByReceives_bare)

theorem Roomy.send {data : Bytes} {result : PipeResult Nat} (hs : s.Roomy room)
    (h : Pipe.send data s w = .ok (result, s', w')) : Unread room s s' := by
  cases hs with
  | bare l =>
    obtain ⟨l', hsend, rfl⟩ := rewrap_eq_ok h
    exact ⟨.bare l', rfl, changedByReceives_bare.send hsend⟩
  | framed hs =>
    obtain ⟨p', hsend, rfl⟩ := rewrap_eq_ok h
    exact ⟨.framed (hs.send hsend), rfl, changedByReceives_framed.send hsend⟩

theorem Roomy.sendFin {result : PipeResult FinStatus} (hs : s.Roomy room)
    (h : Pipe.sendFin s w = .ok (result, s', w')) : Unread room s s' := by
  cases hs with
  | bare l =>
    obtain ⟨l', hclose, rfl⟩ := rewrap_eq_ok h
    exact ⟨.bare l', rfl, changedByReceives_bare.sendFin hclose⟩
  | framed hs =>
    obtain ⟨p', hclose, rfl⟩ := rewrap_eq_ok h
    exact ⟨.framed (hs.sendFin hclose), rfl, changedByReceives_framed.sendFin hclose⟩

theorem Roomy.react {events : SocketEvents} {report : PipeEvents} (hs : s.Roomy room)
    (h : Pipe.react events s w = .ok (report, s', w')) : Unread room s s' := by
  cases hs with
  | bare l =>
    obtain ⟨l', hreact, rfl⟩ := rewrap_eq_ok h
    exact ⟨.bare l', rfl, changedByReceives_bare.react hreact⟩
  | framed hs =>
    obtain ⟨p', hreact, rfl⟩ := rewrap_eq_ok h
    exact ⟨.framed (hs.react hreact), rfl, changedByReceives_framed.react hreact⟩

theorem Roomy.attach {callback : C} {result : Except Failure Unit} (hs : s.Roomy room)
    (h : Pipe.attach callback s w = .ok (result, s', w')) : s'.Roomy room := by
  cases hs with
  | bare l =>
    obtain ⟨l', _, rfl⟩ := rewrap_eq_ok h
    exact .bare l'
  | framed hs =>
    obtain ⟨p', hattach, rfl⟩ := rewrap_eq_ok h
    exact .framed (hs.attach hattach)

end Stack

end DuplexRelay
