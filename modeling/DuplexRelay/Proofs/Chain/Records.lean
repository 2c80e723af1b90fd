import DuplexRelay.Proofs.Chain.Tracked

/-! The records of a connection. What went through the socket at the bottom, together with what the
layers hold back, is what the owner of the connection gave to it and took from it, datagram by
datagram if the connection is framed. -/

namespace DuplexRelay

namespace Channel

/-- The largest datagram, if the connection is framed. -/
def kind : Channel → Option Nat
  | plain _ => none
  | framed p => some p.maxSize

/-- A chunk as it is on the stream. -/
def wire : Option Nat → Bytes → Bytes
  | none, data => data
  | some _, data => Datagram.wire data

/-- A chunk is not too large for a connection of a kind. -/
def Fits (kind : Option Nat) (data : Bytes) : Prop :=
  ∀ limit, kind = some limit → data.length ≤ limit

/-- What was accepted and not passed to the socket yet. -/
def held : Channel → Bytes
  | plain _ => []
  | framed p => (p.inner.queue.map (·.live)).getD []

/-- What was read from the socket and not returned yet. -/
def rest : Channel → Bytes
  | plain _ => []
  | framed p => p.assembled

/-- The way out is to be closed behind what is held. -/
def putOff : Channel → Bool
  | plain _ => false
  | framed p => p.inner.finWanted

/-- The framing was violated. -/
def violated : Channel → Bool
  | plain _ => false
  | framed p => p.broken

def Closing (c : Channel) : Prop := c.base.bits.finSent = true ∨ c.putOff = true

/-- What was read violates the framing: it is no beginning of frames, or it ends inside of one where
the stream does. -/
def ViolatesFraming (kind : Option Nat) (rest : Bytes) (t : Track) : Prop :=
  ∃ limit, kind = some limit ∧ (Datagram.firstFrame limit rest = .error () ∨
    Datagram.firstFrame limit rest = .ok none ∧ rest ≠ [] ∧ t.unread = [] ∧ t.ended = true)

/-- The records of a connection agree with the track of its socket. -/
structure RecordsAgree (r : Recorded Channel) (t : Track) : Prop where
  given : t.sent ++ r.pipe.held = r.accepted.flatMap (wire r.pipe.kind)
  taken : r.pipe.violated = false → t.got = r.received.flatMap (wire r.pipe.kind) ++ r.pipe.rest
  spoiled : r.pipe.violated = true → ∃ rest,
    t.got = r.received.flatMap (wire r.pipe.kind) ++ rest ∧ ViolatesFraming r.pipe.kind rest t
  accepted : ∀ data ∈ r.accepted, Fits r.pipe.kind data
  received : ∀ data ∈ r.received, Fits r.pipe.kind data
  tracked : r.pipe.base.Tracked t
  settled : t.shut = true → r.pipe.held = []

/-- What a receive leaves as it was, and what it is told by. -/
structure AfterRecv (c : Channel) (n : Nat) (result : PipeResult Recv) (c' : Channel) : Prop where
  kind : c'.kind = c.kind
  closing : c'.Closing ↔ c.Closing
  intact : c'.violated = true → ∃ reason, result = .error (.protocol reason)
  ended : result = .ok .fin → c'.base.bits.finRcvd = true ∧ c'.rest = []
  unended : c'.base.bits.finRcvd = true → c.base.bits.finRcvd = true ∨ result = .ok .fin ∨
    ∃ reason, result = .error (.protocol reason)
  size : c.kind = none → ∀ data, result = .ok (.data data) → data.length ≤ n

/-- What other operations leave as it was. -/
structure Same (c c' : Channel) : Prop where
  kind : c'.kind = c.kind
  rest : c'.rest = c.rest
  violated : c'.violated = c.violated
  finRcvd : c'.base.bits.finRcvd = c.base.bits.finRcvd

end Channel

namespace Channel

variable {C : Type} {w w' : Host Ports C} {t t' : Track}

theorem closing_congr {c c' : Channel} (hsent : c'.base.bits.finSent = c.base.bits.finSent)
    (hput : c'.putOff = c.putOff) : c'.Closing ↔ c.Closing := by
  unfold Closing
  rw [hsent, hput]

theorem fits_plain (data : Bytes) : Fits none data := nofun

theorem fits_framed {limit : Nat} {data : Bytes} (h : data.length ≤ limit) :
    Fits (some limit) data := by
  rintro _ ⟨⟩
  exact h

/-- Nothing was read, and so many more bytes are held back or went to the socket. -/
structure Conveyed (c : Channel) (t : Track) (bytes : Bytes) (c' : Channel) (t' : Track) :
    Prop where
  same : Same c c'
  got : t'.got = t.got
  unread : t'.unread = t.unread
  ended : t'.ended = t.ended
  given : t'.sent ++ c'.held = t.sent ++ c.held ++ bytes
  tracked : c'.base.Tracked t'
  settled : (t.shut = true → c.held = []) → t'.shut = true → c'.held = []

theorem RecordsAgree.conveyed {r : Recorded Channel} {c : Channel} (hb : RecordsAgree r t)
    (chunks : List Bytes) (h : Conveyed r.pipe t (chunks.flatMap (wire r.pipe.kind)) c t')
    (hfits : ∀ chunk ∈ chunks, Fits r.pipe.kind chunk) :
    RecordsAgree { r with pipe := c, accepted := r.accepted ++ chunks } t' := by
  have hsame := h.same
  refine ⟨?_, ?_, ?_, ?_, ?_, h.tracked, h.settled hb.settled⟩
  · rw [hsame.kind, h.given, hb.given, List.flatMap_append]
  · intro hv
    rw [hsame.kind, hsame.rest, h.got]
    exact hb.taken (hsame.violated.symm.trans hv)
  · intro hv
    obtain ⟨rest, hrest, limit, hkind, hspoiled⟩ := hb.spoiled (hsame.violated.symm.trans hv)
    refine ⟨rest, ?_, limit, hsame.kind.trans hkind, ?_⟩
    · rw [hsame.kind, h.got]
      exact hrest
    · rwa [h.unread, h.ended]
  · rw [hsame.kind]
    intro chunk hchunk
    rcases List.mem_append.mp hchunk with hold | hnew
    · exact hb.accepted chunk hold
    · exact hfits chunk hnew
  · rw [hsame.kind]
    exact hb.received

theorem RecordsAgree.repiped {r : Recorded Channel} {c : Channel} (hb : RecordsAgree r t)
    (h : Conveyed r.pipe t [] c t') : RecordsAgree { r with pipe := c } t' := by
  have hnone := hb.conveyed [] h nofun
  rwa [List.append_nil] at hnone

theorem RecordsAgree.afterRecv {r : Recorded Channel} {c : Channel} {result : PipeResult Recv}
    (hb : RecordsAgree r t) (hkind : c.kind = r.pipe.kind) (hheld : c.held = r.pipe.held)
    (hsent : t'.sent = t.sent) (hshut : t'.shut = t.shut) (htracked : c.base.Tracked t')
    (htaken : c.violated = false → t'.got =
      (r.noteRecv result c).received.flatMap (wire r.pipe.kind) ++ c.rest)
    (hspoiled : c.violated = true → ∃ rest,
      t'.got = (r.noteRecv result c).received.flatMap (wire r.pipe.kind) ++ rest ∧
        ViolatesFraming r.pipe.kind rest t')
    (hfits : ∀ data, result = .ok (.data data) → Fits r.pipe.kind data) :
    RecordsAgree (r.noteRecv result c) t' := by
  have haccepted : (r.noteRecv result c).accepted = r.accepted := by
    unfold Recorded.noteRecv
    split <;> rfl
  constructor
  · rw [Recorded.noteRecv_pipe, haccepted, hkind, hheld, hsent]
    exact hb.given
  · rw [Recorded.noteRecv_pipe, hkind]
    exact htaken
  · rw [Recorded.noteRecv_pipe, hkind]
    exact hspoiled
  · rw [Recorded.noteRecv_pipe, haccepted, hkind]
    exact hb.accepted
  · rw [Recorded.noteRecv_pipe, hkind]
    intro data hd
    unfold Recorded.noteRecv at hd
    split at hd
    · rename_i chunk
      rcases List.mem_append.mp hd with hd | hd
      · exact hb.received data hd
      · rw [List.mem_singleton.mp hd]
        exact hfits chunk rfl
    · exact hb.received data hd
  · rw [Recorded.noteRecv_pipe]
    exact htracked
  · rw [Recorded.noteRecv_pipe, hheld, hshut]
    exact hb.settled

theorem noteRecv_fin (r : Recorded Channel) (c : Channel) :
    (r.noteRecv (.ok .fin) c).received = r.received := rfl

theorem noteRecv_data (r : Recorded Channel) (data : Bytes) (c : Channel) :
    (r.noteRecv (.ok (.data data)) c).received = r.received ++ [data] := rfl

theorem recordsAgree_recv_plain {n : Nat} {p p' : Tcp} {r : Recorded Channel}
    {result : PipeResult Recv} (hr : r.pipe = plain p) (hb : RecordsAgree r (w.net.track p.fd))
    (h : Pipe.recv n p w = .ok (result, p', w')) :
    AfterRecv (plain p) n result (plain p') ∧
      RecordsAgree (r.noteRecv result (plain p')) (w'.net.track p.fd) := by
  obtain ⟨htrack, hstepped⟩ := Tcp.received_track h
  obtain ⟨hsent, hrcvd, hended⟩ := Tcp.received_bits h
  have htracked := hb.tracked
  have htaken := hb.taken
  rw [hr] at htracked htaken
  have htracked' := hstepped.tracked htracked
  have hgot := htaken rfl
  generalize w'.net.track p.fd = t' at htrack htracked' ⊢
  refine ⟨⟨rfl, closing_congr hsent rfl, nofun, fun hf => ⟨hended hf, rfl⟩, ?_, ?_⟩, ?_⟩
  · exact fun hf => (hrcvd hf).imp_right .inl
  · rintro _ data rfl
    cases htrack with
    | data hn => exact hn
  · have hkind : (plain p').kind = r.pipe.kind := by rw [hr]; rfl
    have hheld : (plain p').held = r.pipe.held := by rw [hr]; rfl
    have hfits : ∀ data, result = .ok (.data data) → Fits r.pipe.kind data := by
      rw [hr]
      exact fun data _ => fits_plain data
    cases htrack with
    | failed | ended =>
      refine hb.afterRecv hkind hheld rfl rfl htracked' (fun _ => ?_) nofun hfits
      rw [hr]
      exact hgot
    | data hn hu =>
      refine hb.afterRecv hkind hheld rfl rfl htracked' (fun _ => ?_) nofun hfits
      rw [noteRecv_data, List.flatMap_append, hr, ← List.append_nil (_ ++ _), hgot]
      simp [wire, rest, kind]

theorem atomic_recv {n : Nat} {a a' : Atomic Tcp} {result : PipeResult Recv}
    (h : Pipe.recv n a w = .ok (result, a', w')) :
    ∃ p, Pipe.recv n a.inner w = .ok (result, p, w') ∧ a' = { a with inner := p } := by
  obtain ⟨⟨_, p, _⟩, h, heq⟩ := Checked.bind_eq_ok_iff.mp h
  cases heq
  exact ⟨p, h, rfl⟩

/-- What a receive leaves as it was below the framing. -/
structure AfterRawRecv (a : Atomic Tcp) (t : Track) (a' : Atomic Tcp) (t' : Track) : Prop where
  queue : a'.queue = a.queue
  finWanted : a'.finWanted = a.finWanted
  finSent : a'.inner.bits.finSent = a.inner.bits.finSent
  sent : t'.sent = t.sent
  shut : t'.shut = t.shut
  tracked : a.inner.Tracked t → a'.inner.Tracked t'

theorem afterRawRecv_atomic {n : Nat} {a a' : Atomic Tcp} {result : PipeResult Recv}
    (h : Pipe.recv n a w = .ok (result, a', w')) :
    AfterRawRecv a (w.net.track a.inner.fd) a' (w'.net.track a.inner.fd) ∧
      (w.net.track a.inner.fd).Received n result (w'.net.track a.inner.fd) := by
  obtain ⟨q, hrecv, rfl⟩ := atomic_recv h
  obtain ⟨htrack, hstepped⟩ := Tcp.received_track hrecv
  have hsame : ∀ {t}, (w.net.track a.inner.fd).Received n result t →
      t.sent = (w.net.track a.inner.fd).sent ∧ t.shut = (w.net.track a.inner.fd).shut := by
    intro t ht
    cases ht <;> exact ⟨rfl, rfl⟩
  exact ⟨⟨rfl, rfl, (Tcp.received_bits hrecv).1, (hsame htrack).1, (hsame htrack).2,
    hstepped.tracked⟩, htrack⟩

/-- The bytes of a chunk are all that a receive reads. -/
def chunkOf : PipeResult Recv → Bytes
  | .ok (.data data) => data
  | _ => []

theorem got_atomic {n : Nat} {a a' : Atomic Tcp} {result : PipeResult Recv}
    (h : Pipe.recv n a w = .ok (result, a', w')) :
    (w'.net.track a.inner.fd).got = (w.net.track a.inner.fd).got ++ chunkOf result := by
  have htrack := (afterRawRecv_atomic h).2
  generalize w'.net.track a.inner.fd = t at htrack ⊢
  cases htrack with
  | failed | ended => exact (List.append_nil _).symm
  | data => rfl

theorem afterRawRecv_framed {n : Nat} {v v' : Datagram.View Tcp} {result : PipeResult Recv}
    (h : Datagram.Received n v w result v' w') :
    v'.maxSize = v.maxSize ∧ AfterRawRecv v.inner (w.net.track v.inner.inner.fd) v'.inner
      (w'.net.track v.inner.inner.fd) := by
  cases h with
  | broken | found | violated => exact ⟨rfl, rfl, rfl, rfl, rfl, rfl, id⟩
  | refused _ _ _ hr | incomplete _ _ _ hr | completed _ _ _ hr | corrupted _ _ _ hr
  | ended _ _ _ hr | cut _ _ _ _ hr => exact ⟨rfl, (afterRawRecv_atomic hr).1⟩

/-- What a receive took off the front of the stream. -/
def frameOf : PipeResult Recv → Bytes
  | .ok (.data data) => Datagram.wire data
  | _ => []

@[simp] theorem frameOf_data (data : Bytes) : frameOf (.ok (.data data)) = Datagram.wire data := rfl

@[simp] theorem frameOf_error (e : PipeError) : frameOf (.error e) = [] := rfl

/-- What was read so far after a receive, and what of it was returned. -/
theorem taken_framed {n : Nat} {v v' : Datagram.View Tcp} {result : PipeResult Recv}
    {before : Bytes} (h : Datagram.Received n v w result v' w') (hn : v.maxSize ≤ n)
    (hbroken : v.broken = false)
    (hgot : (w.net.track v.inner.inner.fd).got = before ++ v.assembled) :
    (∀ data, result = .ok (.data data) → data.length ≤ v.maxSize) ∧
      ∃ rest, (w'.net.track v.inner.inner.fd).got = before ++ frameOf result ++ rest ∧
        (v'.broken = false → v'.assembled = rest) ∧
        (v'.broken = true →
          ViolatesFraming (some v.maxSize) rest (w'.net.track v.inner.inner.fd)) := by
  have hmin : min v.maxSize n = v.maxSize := Nat.min_eq_left hn
  have hwhole : before ++ [] ++ v.assembled = before ++ v.assembled := by
    rw [List.append_nil]
  have hread : ∀ {m answer a}, Pipe.recv m v.inner w = .ok (answer, a, w') →
      (w'.net.track v.inner.inner.fd).got = before ++ (v.assembled ++ chunkOf answer) := by
    intro m answer a hr
    rw [got_atomic hr, hgot, List.append_assoc]
  cases h with
  | broken =>
    refine ⟨nofun, v.assembled, hgot.trans hwhole.symm, fun _ => rfl, fun hv => ?_⟩
    exact absurd (hbroken.symm.trans hv) Bool.false_ne_true
  | @found payload rest hb hi hf =>
    rw [hmin] at hf
    obtain ⟨heq, hle⟩ := Datagram.eq_wire_of_firstFrame hf
    refine ⟨?_, rest, ?_, fun _ => rfl, fun hv => ?_⟩
    · rintro _ ⟨⟩
      exact hle
    · rw [hgot, heq, frameOf_data, List.append_assoc]
    · exact absurd (hb.symm.trans hv) Bool.false_ne_true
  | violated hb hi hf =>
    rw [hmin] at hf
    exact ⟨nofun, v.assembled, hgot.trans hwhole.symm, nofun, fun _ => ⟨_, rfl, .inl hf⟩⟩
  | @refused m e a _ hb hi hf hr =>
    refine ⟨nofun, v.assembled, ?_, fun _ => rfl, fun hv => ?_⟩
    · simpa [chunkOf, frameOf] using hread hr
    · exact absurd (hb.symm.trans hv) Bool.false_ne_true
  | @incomplete m chunk a _ hb hi hf hr hnone =>
    refine ⟨nofun, v.assembled ++ chunk, ?_, fun _ => rfl, fun hv => ?_⟩
    · rw [hread hr, chunkOf, frameOf_error, List.append_nil]
    · exact absurd (hb.symm.trans hv) Bool.false_ne_true
  | @completed m chunk payload rest a _ hb hi hf hr hsome =>
    rw [hmin] at hsome
    obtain ⟨heq, hle⟩ := Datagram.eq_wire_of_firstFrame hsome
    refine ⟨?_, rest, ?_, fun _ => rfl, fun hv => ?_⟩
    · rintro _ ⟨⟩
      exact hle
    · rw [hread hr, chunkOf, heq, frameOf_data, List.append_assoc]
    · exact absurd (hb.symm.trans hv) Bool.false_ne_true
  | @corrupted m chunk reason a _ hb hi hf hr herror =>
    rw [hmin] at herror
    refine ⟨nofun, v.assembled ++ chunk, ?_, nofun, fun _ => ⟨_, rfl, .inl herror⟩⟩
    rw [hread hr, chunkOf, frameOf_error, List.append_nil]
  | @ended m a _ hb hi hf hr =>
    refine ⟨nofun, v.assembled, ?_, fun _ => rfl, fun hv => ?_⟩
    · simpa [chunkOf, frameOf] using hread hr
    · exact absurd (hb.symm.trans hv) Bool.false_ne_true
  | @cut m reason a _ hb hi hf ha hr =>
    rw [hmin] at hf
    have htrack := (afterRawRecv_atomic hr).2
    generalize w'.net.track v.inner.inner.fd = t at htrack ⊢
    cases htrack with
    | ended hu he =>
      exact ⟨nofun, v.assembled, hgot.trans hwhole.symm, nofun,
        fun _ => ⟨_, rfl, .inr ⟨hf, ha, hu, he⟩⟩⟩

end Channel

end DuplexRelay
