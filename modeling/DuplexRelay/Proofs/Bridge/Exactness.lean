import Mathlib.Data.List.Infix
import DuplexRelay.Proofs.Bridge.Moves
import DuplexRelay.Proofs.Bridge.Recorded

/-! Byte exactness of a bridge. What a side took and what is queued for it is what the other side
was read of, byte by byte, and the figures count just that. -/

namespace DuplexRelay

def SendsWithin (P W : Type) {C : Type} [Pipe P W C] : Prop :=
  ∀ {data : Bytes} {p p' : P} {w w' : W} {n : Nat},
    Pipe.send data p w = .ok (.ok n, p', w') → n ≤ data.length

/-- What is queued for a side. -/
def BridgeSide.queued {P : Type} (s : BridgeSide P) : Bytes := (s.pending.map (·.live)).getD []

namespace Bridge

variable {P W C : Type}

/-- All bytes that a side was read of. -/
def receivedFrom (b : Bridge (Recorded P)) (s : Side) : Bytes := (b.side s).pipe.received.flatten

/-- All bytes that a side took. -/
def acceptedBy (b : Bridge (Recorded P)) (s : Side) : Bytes := (b.side s).pipe.accepted.flatten

/-- All bytes that were meant for a side so far. -/
def meantFor (b : Bridge (Recorded P)) (d : Side) : Bytes := b.acceptedBy d ++ (b.side d).queued

/-- The figures of a side count what its records hold. -/
def Counted (t : Traffic) (r : Recorded P) : Prop :=
  t.received = r.received.flatten.length ∧ t.sent = r.accepted.flatten.length

theorem prefix_acceptedBy (b : Bridge (Recorded P)) (d : Side) :
    b.acceptedBy d <+: b.meantFor d := List.prefix_append _ _

section States

variable [HasPipeState P]

/-- The records agree with what is queued and with the figures. The bytes of a direction are all
there while the bridge lives, and the last of them may be lost in an end. -/
structure Exact (b : Bridge (Recorded P)) : Prop where
  balanced : b.dead = false → ∀ d, b.meantFor d = b.receivedFrom d.peer
  ordered : ∀ d, b.acceptedBy d <+: b.receivedFrom d.peer
  counted : ∀ s, Counted (b.side s).traffic (b.side s).pipe
  shown : ∀ s, (b.stats.side s).traffic = (b.side s).traffic
  unfrozen : b.dead = false → b.finalStats = none

theorem traffic_stats {b : Bridge (Recorded P)} (hf : b.finalStats = none) (s : Side) :
    (b.stats.side s).traffic = (b.side s).traffic := by
  cases s <;> simp [stats, hf, BridgeStats.side, sideStats]

theorem exact_of_balanced {b : Bridge (Recorded P)} (hf : b.finalStats = none)
    (hm : ∀ d, b.meantFor d = b.receivedFrom d.peer)
    (hc : ∀ s, Counted (b.side s).traffic (b.side s).pipe) : Exact b := by
  refine ⟨fun _ => hm, ?_, hc, traffic_stats hf, fun _ => hf⟩
  intro d
  rw [← hm d]
  exact prefix_acceptedBy b d

/-- What is queued when a bridge ends is lost. -/
theorem exact_die {b : Bridge (Recorded P)} (hf : b.finalStats = none)
    (hm : ∀ d, b.meantFor d <+: b.receivedFrom d.peer)
    (hc : ∀ s, Counted (b.side s).traffic (b.side s).pipe) : Exact b.die := by
  refine ⟨?_, ?_, ?_, ?_, ?_⟩
  · intro hd
    simp [die] at hd
  · intro d
    exact (prefix_acceptedBy b d).trans (hm d)
  · intro s
    cases s
    · exact hc .left
    · exact hc .right
  · intro s
    have hs := traffic_stats hf s
    cases s <;> exact hs
  · intro hd
    simp [die] at hd

end States

theorem setSide_conserves {b : Bridge (Recorded P)} {s : Side} {new : BridgeSide (Recorded P)}
    (hmeant : new.pipe.accepted.flatten ++ new.queued = b.meantFor s) :
    (b.setSide s new).meantFor s = b.meantFor s ∧
      (b.setSide s new).meantFor s.peer = b.meantFor s.peer ∧
      (b.setSide s new).receivedFrom s = new.pipe.received.flatten ∧
      (b.setSide s new).receivedFrom s.peer = b.receivedFrom s.peer := by
  refine ⟨?_, ?_, ?_, ?_⟩
  · simpa [meantFor, acceptedBy] using hmeant
  · simp [meantFor, acceptedBy]
  · simp [receivedFrom]
  · simp [receivedFrom]

variable [Pipe P W C]

theorem counted_send (hw : SendsWithin P W) {t : Traffic} {r r' : Recorded P} {data : Bytes}
    {result : PipeResult Nat} {n : Nat} {w w' : W}
    (h : Pipe.send data r w = .ok (result, r', w')) (ht : Took result n) (hc : Counted t r) :
    r'.accepted.flatten = r.accepted.flatten ++ data.take n ∧ n ≤ data.length ∧
      r'.received = r.received ∧ Counted (afterSend t n) r' := by
  obtain ⟨pipe, hsend, rfl⟩ := Recorded.send_eq_ok h
  rcases ht with rfl | ⟨rfl, rfl⟩
  · have hn := hw hsend
    refine ⟨by simp [Recorded.noteSend], hn, rfl, hc.1, ?_⟩
    have hsent := hc.2
    simp only [Recorded.noteSend, afterSend, List.flatten_append, List.length_append,
      List.flatten_cons, List.flatten_nil, List.append_nil, List.length_take]
    omega
  · exact ⟨by simp [Recorded.noteSend], by simp, rfl, hc⟩

theorem counted_recv {t : Traffic} {r : Recorded P} {chunk : Bytes} {pipe : P}
    (hc : Counted t r) :
    Counted (afterRecv t chunk.length) (r.noteRecv (.ok (.data chunk)) pipe) := by
  refine ⟨?_, hc.2⟩
  have hreceived := hc.1
  simp [Recorded.noteRecv, afterRecv, hreceived]

/-- A flush moves bytes from a queue into a pipe, whatever it comes to. -/
theorem flushed_conserves (hw : SendsWithin P W) {dst : Side} {b b' : Bridge (Recorded P)}
    {w w' : W} {result : PipeResult Unit} (h : Flushed dst b w result b' w')
    (hc : ∀ s, Counted (b.side s).traffic (b.side s).pipe) :
    (∀ d, b'.meantFor d = b.meantFor d) ∧ (∀ s, b'.receivedFrom s = b.receivedFrom s) ∧
      ∀ s, Counted (b'.side s).traffic (b'.side s).pipe := by
  -- the flushed side is replaced by one with the same records of receives
  have hput : ∀ new : BridgeSide (Recorded P),
      new.pipe.accepted.flatten ++ new.queued = b.meantFor dst →
      new.pipe.received = (b.side dst).pipe.received → Counted new.traffic new.pipe →
      (∀ d, (b.setSide dst new).meantFor d = b.meantFor d) ∧
      (∀ s, (b.setSide dst new).receivedFrom s = b.receivedFrom s) ∧
      ∀ s, Counted ((b.setSide dst new).side s).traffic ((b.setSide dst new).side s).pipe := by
    intro new hmeant hrecv hcount
    obtain ⟨hm, hmp, hr, hrp⟩ := setSide_conserves hmeant
    refine ⟨?_, ?_, ?_⟩
    · intro d
      rcases Side.eq_or_eq_peer dst d with rfl | rfl
      · exact hm
      · exact hmp
    · intro s
      rcases Side.eq_or_eq_peer dst s with rfl | rfl
      · rw [hr, hrecv]
        rfl
      · exact hrp
    · intro s
      rcases Side.eq_or_eq_peer dst s with rfl | rfl
      · simpa using hcount
      · simpa using hc dst.peer
  cases h with
  | idle => exact ⟨fun _ => rfl, fun _ => rfl, hc⟩
  | refused hq hs =>
    obtain ⟨pipe, _, rfl⟩ := Recorded.send_eq_ok hs
    exact hput _ rfl rfl (hc dst)
  | failed hq hs =>
    obtain ⟨pipe, _, rfl⟩ := Recorded.send_eq_ok hs
    exact hput _ rfl rfl (hc dst)
  | @partly queue rest n pipe w' hq hs hn hr =>
    obtain ⟨hacc, hle, hrecv, hcount⟩ := counted_send hw hs (.inl rfl) (hc dst)
    obtain ⟨after, hafter, hlive⟩ := ByteBuffer.consume_eq_ok hle
    rw [hr] at hafter
    cases hafter
    refine hput _ ?_ hrecv hcount
    simp [meantFor, acceptedBy, BridgeSide.queued, hacc, hlive, hq, List.append_assoc]
  | @done queue n pipe w' hq hs hn hf =>
    obtain ⟨hacc, hle, hrecv, hcount⟩ := counted_send hw hs (.inl rfl) (hc dst)
    refine hput _ ?_ hrecv hcount
    have hall : queue.live.take n = queue.live := List.take_of_length_le hn
    simp [meantFor, acceptedBy, BridgeSide.queued, hacc, hall, hq]
  | @closed queue n pipe pipe' w₁ w' result hq hs hn hrcvd hsent hfin =>
    obtain ⟨hacc, hle, hrecv, hcount⟩ := counted_send hw hs (.inl rfl) (hc dst)
    obtain ⟨inner, _, rfl⟩ := Recorded.sendFin_eq_ok hfin
    refine hput _ ?_ hrecv hcount
    have hall : queue.live.take n = queue.live := List.take_of_length_le hn
    simp [meantFor, acceptedBy, BridgeSide.queued, hacc, hall, hq]

/-- What is known after a transfer: the bytes that it received are meant for the other side, and
only a failure loses them. -/
structure Carried (src : Side) (chunk : Bytes) (failed : Prop) (b b' : Bridge (Recorded P)) :
    Prop where
  received : b'.receivedFrom src = b.receivedFrom src ++ chunk
  receivedBack : b'.receivedFrom src.peer = b.receivedFrom src.peer
  meantBack : b'.meantFor src = b.meantFor src
  meant : b'.meantFor src.peer = b.meantFor src.peer ++ chunk ∨
    failed ∧ b'.meantFor src.peer = b.meantFor src.peer
  counted : ∀ s, Counted (b'.side s).traffic (b'.side s).pipe

theorem carried_of_sides {src : Side} {chunk : Bytes} {failed : Prop} {b : Bridge (Recorded P)}
    {origin target : BridgeSide (Recorded P)}
    (hrecv : origin.pipe.received.flatten = b.receivedFrom src ++ chunk)
    (hback : target.pipe.received = (b.side src.peer).pipe.received)
    (hmeantBack : origin.pipe.accepted.flatten ++ origin.queued = b.meantFor src)
    (hmeant : target.pipe.accepted.flatten ++ target.queued = b.meantFor src.peer ++ chunk ∨
      failed ∧ target.pipe.accepted.flatten ++ target.queued = b.meantFor src.peer)
    (ho : Counted origin.traffic origin.pipe) (ht : Counted target.traffic target.pipe) :
    Carried src chunk failed b ((b.setSide src origin).setSide src.peer target) := by
  constructor
  · simpa [receivedFrom] using hrecv
  · simp [receivedFrom, hback]
  · simpa [meantFor, acceptedBy] using hmeantBack
  · simpa [meantFor, acceptedBy] using hmeant
  · intro s
    rcases Side.eq_or_eq_peer src s with rfl | rfl
    · simpa using ho
    · simpa using ht

theorem transferred_carries (hw : SendsWithin P W) {src : Side} {b b' : Bridge (Recorded P)}
    {w w' : W} {result : PipeResult Nat} (h : Transferred src b w result b' w')
    (hc : ∀ s, Counted (b.side s).traffic (b.side s).pipe) :
    ∃ chunk, Carried src chunk (∃ e, result = .error e) b b' := by
  have hcs := hc src
  have hcp := hc src.peer
  cases h with
  | dry hp hr =>
    obtain ⟨pipe, _, rfl⟩ := Recorded.recv_eq_ok hr
    rw [setSide_eq_both]
    exact ⟨[], carried_of_sides (by simp [receivedFrom, Recorded.noteRecv]) rfl rfl
      (.inl (by simp [meantFor, acceptedBy])) hcs hcp⟩
  | @failed e pipe w' hp hr he =>
    obtain ⟨pipe, _, rfl⟩ := Recorded.recv_eq_ok hr
    rw [setSide_eq_both]
    exact ⟨[], carried_of_sides (by simp [receivedFrom, Recorded.noteRecv]) rfl rfl
      (.inl (by simp [meantFor, acceptedBy])) hcs hcp⟩
  | ended hp hr hfin =>
    obtain ⟨pipe, _, rfl⟩ := Recorded.recv_eq_ok hr
    obtain ⟨pipe', _, rfl⟩ := Recorded.sendFin_eq_ok hfin
    exact ⟨[], carried_of_sides (by simp [receivedFrom, Recorded.noteRecv]) rfl rfl
      (.inl (by simp [meantFor, acceptedBy, BridgeSide.queued])) hcs hcp⟩
  | @undeliverable chunk e pipe pipe' w₁ w' hp hr hs he =>
    obtain ⟨pipe, _, rfl⟩ := Recorded.recv_eq_ok hr
    obtain ⟨pipe', _, rfl⟩ := Recorded.send_eq_ok hs
    refine ⟨chunk, carried_of_sides (by simp [receivedFrom, Recorded.noteRecv]) rfl rfl
      (.inr ⟨⟨e, rfl⟩, rfl⟩) (counted_recv hcs) hcp⟩
  | @relayed chunk r n pipe pipe' w₁ w' hp hr hs ht hn =>
    obtain ⟨pipe, _, rfl⟩ := Recorded.recv_eq_ok hr
    obtain ⟨hacc, hle, hrecv, hcount⟩ := counted_send hw hs ht hcp
    refine ⟨chunk, carried_of_sides (by simp [receivedFrom, Recorded.noteRecv]) hrecv rfl
      (.inl ?_) (counted_recv hcs) hcount⟩
    have hall : chunk.take n = chunk := List.take_of_length_le hn
    simp [meantFor, acceptedBy, BridgeSide.queued, hacc, hall, hp]
  | @congested chunk r n pipe pipe' w₁ w' hp hr hs ht hn =>
    obtain ⟨pipe, _, rfl⟩ := Recorded.recv_eq_ok hr
    obtain ⟨hacc, hle, hrecv, hcount⟩ := counted_send hw hs ht hcp
    refine ⟨chunk, carried_of_sides (by simp [receivedFrom, Recorded.noteRecv]) hrecv rfl
      (.inl ?_) (counted_recv hcs) hcount⟩
    simp [meantFor, acceptedBy, BridgeSide.queued, hacc, hp, List.append_assoc]

/-- All bytes of a direction are there, and the figures count them. -/
structure Conserved (b : Bridge (Recorded P)) : Prop where
  balanced : ∀ d, b.meantFor d = b.receivedFrom d.peer
  counted : ∀ s, Counted (b.side s).traffic (b.side s).pipe

omit [Pipe P W C] in
theorem conserved_repiped {b : Bridge (Recorded P)} {s : Side} (pipe : P) (h : Conserved b) :
    Conserved (b.setSide s { b.side s with pipe := { (b.side s).pipe with pipe } }) := by
  have hset := @setSide_conserves P b s
    { b.side s with pipe := { (b.side s).pipe with pipe } } rfl
  constructor
  · intro d
    have hbalanced := h.balanced d
    rcases Side.eq_or_eq_peer s d with rfl | rfl
    · rw [hset.1, hset.2.2.2, hbalanced]
    · rw [hset.2.1, Side.peer_peer, hset.2.2.1, hbalanced, Side.peer_peer]
      rfl
  · intro t
    have hcounted := h.counted t
    rcases Side.eq_or_eq_peer s t with rfl | rfl
    · rw [side_setSide]
      exact hcounted
    · simpa using hcounted

theorem exact_repiped [HasPipeState P] {b : Bridge (Recorded P)} {s : Side} (pipe : P)
    (hf : b.finalStats = none) (hm : ∀ d, b.meantFor d = b.receivedFrom d.peer)
    (hc : ∀ s, Counted (b.side s).traffic (b.side s).pipe) :
    Exact (b.setSide s { b.side s with pipe := { (b.side s).pipe with pipe } }) := by
  obtain ⟨hm, hc⟩ := conserved_repiped (s := s) pipe ⟨hm, hc⟩
  exact exact_of_balanced (by simpa using hf) hm hc

theorem Carried.meant_prefix {src : Side} {chunk : Bytes} {failed : Prop}
    {b b' : Bridge (Recorded P)} (h : Carried src chunk failed b b')
    (hm : ∀ d, b.meantFor d = b.receivedFrom d.peer) (d : Side) :
    b'.meantFor d <+: b'.receivedFrom d.peer := by
  rcases Side.eq_or_eq_peer src d with rfl | rfl
  · rw [h.meantBack, h.receivedBack, hm]
  · rw [Side.peer_peer, h.received]
    have hm := hm src.peer
    rw [Side.peer_peer] at hm
    rcases h.meant with hall | ⟨_, hlost⟩
    · rw [hall, hm]
    · rw [hlost, hm]
      exact List.prefix_append _ _

theorem Carried.meant_eq {src : Side} {chunk : Bytes} {failed : Prop}
    {b b' : Bridge (Recorded P)} (h : Carried src chunk failed b b') (hf : ¬failed)
    (hm : ∀ d, b.meantFor d = b.receivedFrom d.peer) (d : Side) :
    b'.meantFor d = b'.receivedFrom d.peer := by
  rcases Side.eq_or_eq_peer src d with rfl | rfl
  · rw [h.meantBack, h.receivedBack, hm]
  · rw [Side.peer_peer, h.received]
    have hm := hm src.peer
    rw [Side.peer_peer] at hm
    rcases h.meant with hall | ⟨hfailed, _⟩
    · rw [hall, hm]
    · exact absurd hfailed hf

theorem exact_of_move (hw : SendsWithin P W) {b b' : Bridge (Recorded P)} {w w' : W}
    (h : Move b w b' w') (he : Exact b) : Exact b' := by
  cases h with
  | elsewhere => exact he
  | @noticed _ _ s events report pipe hd hr =>
    obtain ⟨pipe, _, rfl⟩ := Recorded.react_eq_ok hr
    exact exact_repiped pipe (he.unfrozen hd) (he.balanced hd) he.counted
  | flushed hd hf =>
    have hflushed := Bridge.flushed hf
    obtain ⟨hmeant, hrecv, hcounted⟩ := flushed_conserves hw hflushed he.counted
    refine exact_of_balanced ?_ ?_ hcounted
    · rw [finalStats_of_flushed hflushed, he.unfrozen hd]
    · intro d
      rw [hmeant, hrecv, he.balanced hd]
  | flushFailed hd hf =>
    have hflushed := Bridge.flushed hf
    obtain ⟨hmeant, hrecv, hcounted⟩ := flushed_conserves hw hflushed he.counted
    refine exact_die ?_ ?_ hcounted
    · rw [finalStats_of_flushed hflushed, he.unfrozen hd]
    · intro d
      rw [hmeant, hrecv, he.balanced hd]
  | transferred hd ht =>
    have htransferred := Bridge.transferred ht
    obtain ⟨chunk, hcarried⟩ := transferred_carries hw htransferred he.counted
    refine exact_of_balanced ?_ (hcarried.meant_eq (by simp) (he.balanced hd)) hcarried.counted
    rw [finalStats_of_transferred htransferred, he.unfrozen hd]
  | transferFailed hd ht =>
    have htransferred := Bridge.transferred ht
    obtain ⟨chunk, hcarried⟩ := transferred_carries hw htransferred he.counted
    refine exact_die ?_ (hcarried.meant_prefix (he.balanced hd)) hcarried.counted
    rw [finalStats_of_transferred htransferred, he.unfrozen hd]
  | ended _ hd =>
    refine exact_die (he.unfrozen hd) ?_ he.counted
    intro d
    rw [he.balanced hd]

theorem exact_of_attached {b b' : Bridge (Recorded P)} {callback : Side → C} {w w' : W}
    {result : Except Failure Unit} (h : Attached callback b w result b' w')
    (hd : b.dead = false) (he : Exact b) : Exact b' := by
  have hf := he.unfrozen hd
  have hm := he.balanced hd
  have hc := he.counted
  cases h with
  | refused hi ha =>
    obtain ⟨pipe, _, rfl⟩ := Recorded.attach_eq_ok ha
    exact exact_repiped (b := b.started) pipe hf hm hc
  | done hi hl hr =>
    obtain ⟨left, _, rfl⟩ := Recorded.attach_eq_ok hl
    obtain ⟨right, _, rfl⟩ := Recorded.attach_eq_ok hr
    have hleft := exact_repiped (b := b.started) (s := .left) left hf hm hc
    exact exact_repiped right (hleft.unfrozen hd) (hleft.balanced hd) hleft.counted

theorem exact_of_path (hw : SendsWithin P W) {b b' : Bridge (Recorded P)} {w w' : W}
    {states : List (Bridge (Recorded P))} (h : Path b w states b' w') (he : Exact b) :
    Exact b' := by
  induction h with
  | refl => exact he
  | cons hm _ ih => exact ih (exact_of_move hw hm he)

end Bridge

end DuplexRelay
