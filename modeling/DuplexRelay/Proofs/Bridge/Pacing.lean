import DuplexRelay.Proofs.Bridge.Contract
import DuplexRelay.Proofs.Bridge.Metered
import DuplexRelay.Proofs.Bridge.Stints

/-! The pace of relaying. One run of relaying in a direction receives less than the budget and one
receive more, and it leaves the other direction as it was, or with more room. -/

namespace DuplexRelay

open Outlook (LeavesUsable)
open Relay (Link)

/-- Pipes the two ways of which are independent: what is received does not tell whether something
can be sent, and the other way round. -/
structure Pipe.TwoWay {P C : Type} (W : Type) [Pipe P W C] (sound : P → Prop) : Prop where
  within : ∀ {n : Nat} {p p' : P} {w w' : W} {chunk : Bytes}, sound p →
    Pipe.recv n p w = .ok (.ok (.data chunk), p', w') → chunk.length ≤ n
  recv : ∀ {n : Nat} {p p' : P} {w w' : W} {result}, sound p → (state p).isReadable = true →
    Pipe.recv n p w = .ok (result, p', w') → LeavesUsable result →
    sound p' ∧ (state p').isWritable = (state p).isWritable
  send : ∀ {data : Bytes} {p p' : P} {w w' : W} {result}, sound p → (state p).isWritable = true →
    Pipe.send data p w = .ok (result, p', w') → LeavesUsable result →
    sound p' ∧ (state p').isReadable = (state p).isReadable
  sendFin : ∀ {p p' : P} {w w' : W} {status}, sound p →
    Pipe.sendFin p w = .ok (.ok status, p', w') →
    sound p' ∧ (state p').isReadable = (state p).isReadable
  react : ∀ {events : SocketEvents} {p p' : P} {w w' : W} {report}, sound p →
    Pipe.react events p w = .ok (report, p', w') → report.broken = false →
    sound p' ∧ (report.writable = true → (state p').isWritable = true)

theorem Stack.twoWay {N C : Type} [Sockets N] [LawfulSockets N] :
    Pipe.TwoWay (C := C) (Host N C) (fun s : Link => linkOutlook.regular s) := by
  have hlinks := link_dependable (N := N) (C := C)
  have hlaws := outlook_lawful (N := N) (C := C)
  constructor
  · exact hlinks.within
  · intro n p p' w w' result hs hread hr hm
    exact ⟨(hlinks.received hs hread hr hm).regular, (hlaws.recv hs.2 hread hr hm).writable⟩
  · intro data p p' w w' result hs hwrite hr hm
    exact ⟨(hlinks.sent hs hwrite hr hm).regular, (hlaws.send hs.2 hwrite hr hm).incoming.readable⟩
  · intro p p' w w' status hs hr
    exact ⟨(hlinks.closed hs hr).1, (hlaws.sendFin hs.2 hr nofun).2.incoming.readable⟩
  · intro events p p' w w' report hs hr hb
    obtain ⟨hkept, hreport⟩ := hlinks.reacted hs hr hb
    exact ⟨hkept.regular, hreport⟩

theorem BridgeConfig.allowance_pos {config : BridgeConfig} {s : Side}
    (h : 0 < config.recvSize s) : 0 < config.allowance s :=
  Nat.lt_of_lt_of_le h (Nat.le_add_left _ _)

namespace Bridge

variable {P W C : Type}

/-- The bytes that were received of a side. -/
def received (b : Bridge P) (s : Side) : Nat := (b.side s).traffic.received

/-- A bridge with these settings, over pipes that are sound. -/
structure Paced (config : BridgeConfig) (sound : P → Prop) (b : Bridge P) : Prop where
  budget : b.budget = config.maxRelayPerEvent
  size : ∀ s, (b.side s).recvSize = config.recvSize s
  pipes : ∀ s, sound (b.side s).pipe

variable {config : BridgeConfig} {sound : P → Prop} {b b₁ b' : Bridge P} {w w' : W}
  {s src dst : Side} {n m : Nat} {new other : BridgeSide P}

theorem Paced.put (hb : b.Paced config sound) (hsize : new.recvSize = (b.side s).recvSize)
    (hnew : sound new.pipe) : (b.setSide s new).Paced config sound where
  budget := (budget_setSide b s new).trans hb.budget
  size := by
    refine Side.forall_of s ?_ ?_
    · rw [side_setSide, hsize]
      exact hb.size s
    · rw [side_setSide_peer]
      exact hb.size s.peer
  pipes := by
    refine Side.forall_of s ?_ ?_
    · rwa [side_setSide]
    · rw [side_setSide_peer]
      exact hb.pipes s.peer

theorem Paced.put_other (hb : b.Paced config sound) (hsize : new.recvSize = (b.side s).recvSize)
    (hother : other.recvSize = (b.side s.peer).recvSize) (hnew : sound new.pipe)
    (hpeer : sound other.pipe) : ((b.setSide s new).setSide s.peer other).Paced config sound := by
  refine (hb.put hsize hnew).put ?_ hpeer
  rwa [side_setSide_peer]

section States

variable [HasPipeState P]

/-- So many bytes were received from `src`, and the relaying the other way finds everything as it
was. -/
structure ReceivedFrom (config : BridgeConfig) (sound : P → Prop) (src : Side) (n : Nat)
    (b b' : Bridge P) : Prop where
  paced : b'.Paced config sound
  received : b'.received src = b.received src + n
  other : b'.received src.peer = b.received src.peer
  readable : (state (b'.side src.peer).pipe).isReadable = (state (b.side src.peer).pipe).isReadable
  writable : (state (b'.side src).pipe).isWritable = (state (b.side src).pipe).isWritable

theorem ReceivedFrom.refl (hb : b.Paced config sound) (src : Side) :
    ReceivedFrom config sound src 0 b b :=
  ⟨hb, rfl, rfl, rfl, rfl⟩

theorem ReceivedFrom.trans (h : ReceivedFrom config sound src n b b₁)
    (h' : ReceivedFrom config sound src m b₁ b') : ReceivedFrom config sound src (n + m) b b' where
  paced := h'.paced
  received := by
    rw [h'.received, h.received]
    omega
  other := h'.other.trans h.other
  readable := h'.readable.trans h.readable
  writable := h'.writable.trans h.writable

theorem ReceivedFrom.canRelay_peer (h : ReceivedFrom config sound src n b b') :
    CanRelay src.peer b' ↔ CanRelay src.peer b := by
  unfold CanRelay
  rw [Side.peer_peer, h.readable, h.writable]

theorem dry_or_full_of_not_canRelay (hh : ¬CanRelay src b) :
    (state (b.side src).pipe).isReadable = false ∨
      (state (b.side src.peer).pipe).isWritable = false := by
  cases hread : (state (b.side src).pipe).isReadable with
  | false => exact .inl rfl
  | true =>
    cases hwrite : (state (b.side src.peer).pipe).isWritable with
    | false => exact .inr rfl
    | true => exact absurd ⟨hread, hwrite⟩ hh

theorem receivedFrom_put (hb : b.Paced config sound) (hnew : sound new.pipe)
    (hsize : new.recvSize = (b.side src).recvSize)
    (hcount : new.traffic.received = (b.side src).traffic.received + n)
    (hwrite : (state new.pipe).isWritable = (state (b.side src).pipe).isWritable) :
    ReceivedFrom config sound src n b (b.setSide src new) where
  paced := hb.put hsize hnew
  received := by simpa [Bridge.received] using hcount
  other := by simp [Bridge.received]
  readable := by simp
  writable := by simpa using hwrite

theorem receivedFrom_put_peer (hb : b.Paced config sound) (hnew : sound new.pipe)
    (hsize : new.recvSize = (b.side src.peer).recvSize)
    (hcount : new.traffic.received = (b.side src.peer).traffic.received)
    (hread : (state new.pipe).isReadable = (state (b.side src.peer).pipe).isReadable) :
    ReceivedFrom config sound src 0 b (b.setSide src.peer new) where
  paced := hb.put hsize hnew
  received := by simp [Bridge.received]
  other := by simpa [Bridge.received] using hcount
  readable := by simpa using hread
  writable := by simp

end States

variable [Pipe P W C] (h : Pipe.TwoWay (C := C) W sound)
include h

theorem receivedFrom_transferred (hb : b.Paced config sound) (hh : CanRelay src b)
    (ht : Transferred src b w (.ok n) b' w') :
    n ≤ config.recvSize src ∧ ReceivedFrom config sound src n b b' := by
  obtain ⟨hread, hwrite⟩ := hh
  have hsrc := hb.pipes src
  have hdst := hb.pipes src.peer
  have hsize := hb.size src
  generalize hresult : (Except.ok n : PipeResult Nat) = result at ht
  cases ht with
  | failed | undeliverable => cases hresult
  | dry _ hr =>
    cases hresult
    obtain ⟨hsound, hsame⟩ := h.recv hsrc hread hr (by rintro e ⟨⟩; rfl)
    exact ⟨Nat.zero_le _, receivedFrom_put hb hsound rfl rfl hsame⟩
  | @ended pipe pipe' _ _ answer _ hr hc =>
    cases answer with
    | error e => cases hresult
    | ok status =>
      cases hresult
      obtain ⟨hsound, hsame⟩ := h.recv hsrc hread hr nofun
      obtain ⟨hsound', hsame'⟩ := h.sendFin hdst hc
      have hfirst : ReceivedFrom config sound src 0 b (b.setSide src { b.side src with pipe }) :=
        receivedFrom_put hb hsound rfl rfl hsame
      refine ⟨Nat.zero_le _, hfirst.trans (receivedFrom_put_peer hfirst.paced hsound' ?_ ?_ ?_)⟩
      · rw [side_setSide_peer]
      · rw [side_setSide_peer]
      · rwa [side_setSide_peer]
  | @relayed chunk _ k pipe pipe' _ _ _ hr hs ht hk
  | @congested chunk _ k pipe pipe' _ _ _ hr hs ht hk =>
    cases hresult
    have hle := h.within hsrc hr
    obtain ⟨hsound, hsame⟩ := h.recv hsrc hread hr nofun
    obtain ⟨hsound', hsame'⟩ := h.send hdst hwrite hs (leavesUsable_of_took ht)
    have hfirst : ReceivedFrom config sound src chunk.length b (b.setSide src { b.side src with
        pipe, traffic := afterRecv (b.side src).traffic chunk.length }) :=
      receivedFrom_put hb hsound rfl rfl hsame
    refine ⟨hsize ▸ hle, hfirst.trans (receivedFrom_put_peer hfirst.paced hsound' ?_ ?_ ?_)⟩
    · rw [side_setSide_peer]
    · rw [side_setSide_peer]
      rfl
    · rwa [side_setSide_peer]

theorem received_of_failed {e : PipeError} (hb : b.Paced config sound)
    (ht : Transferred src b w (.error e) b' w') :
    b'.received src ≤ b.received src + config.recvSize src ∧
      b'.received src.peer = b.received src.peer := by
  have hsize := hb.size src
  unfold received
  generalize hresult : (Except.error e : PipeResult Nat) = result at ht
  cases ht with
  | dry | relayed | congested => cases hresult
  | failed => simp
  | ended => simp
  | @undeliverable chunk _ _ _ _ _ _ hr =>
    have hle := h.within (hb.pipes src) hr
    rw [hsize] at hle
    simp only [side_setSide_of_peer, side_setSide, afterRecv]
    exact ⟨by omega, trivial⟩

/-- Relaying never exceeds the budget by a whole receive. Where it stops although it could go on,
the budget is used up. -/
theorem receivedFrom_relayed {result : PipeResult Unit} (hr : Relayed src n b w result b' w')
    (hb : b.Paced config sound) (hn : n < config.allowance src) :
    b'.received src + n < b.received src + config.allowance src ∧
      b'.received src.peer = b.received src.peer ∧
      (result = .ok () → ∃ m, ReceivedFrom config sound src m b b' ∧
        (CanRelay src b' → config.maxRelayPerEvent ≤ n + m)) := by
  induction hr with
  | stopped hv =>
    refine ⟨by omega, rfl, fun _ => ⟨0, .refl hb src, fun hh => ?_⟩⟩
    exact absurd hh (not_canRelay_iff.mpr hv)
  | yielded hv =>
    refine ⟨by omega, rfl, fun _ => ⟨0, .refl hb src, fun _ => ?_⟩⟩
    unfold verdict at hv
    rw [hb.budget] at hv
    split at hv
    · split at hv
      · assumption
      · cases hv
    · cases hv
  | failed hv ht =>
    have hless := lt_of_verdict hv
    obtain ⟨hle, hpeer⟩ := received_of_failed h hb (transferred ht)
    rw [hb.budget] at hless
    refine ⟨?_, hpeer, nofun⟩
    unfold BridgeConfig.allowance
    omega
  | @more n k b b₁ b' w w₁ w' result hv ht _ ih =>
    have hless := lt_of_verdict hv
    obtain ⟨hk, hmoved⟩ := receivedFrom_transferred h hb (canRelay_of_verdict hv) (transferred ht)
    rw [hb.budget] at hless
    -- the budget was not used up before the receive, which adds no more than its size
    have hwithin : n + k < config.allowance src := by
      unfold BridgeConfig.allowance
      omega
    obtain ⟨hbound, hpeer, hlater⟩ := ih hmoved.paced hwithin
    have hcount := hmoved.received
    refine ⟨by omega, hpeer.trans hmoved.other, fun hok => ?_⟩
    obtain ⟨m, hmoved', hspent⟩ := hlater hok
    refine ⟨k + m, hmoved.trans hmoved', fun hh => ?_⟩
    have hall := hspent hh
    omega

theorem paced_flushed (hb : b.Paced config sound)
    (hwrite : (state (b.side dst).pipe).isWritable = true)
    (hf : Flushed dst b w (.ok ()) b' w') : b'.Paced config sound := by
  have hdst := hb.pipes dst
  generalize hresult : (Except.ok () : PipeResult Unit) = result at hf
  cases hf with
  | idle => exact hb
  | refused _ hs => exact hb.put rfl (h.send hdst hwrite hs (by rintro e ⟨⟩; rfl)).1
  | failed => cases hresult
  | partly _ hs | done _ hs =>
    exact hb.put rfl (h.send hdst hwrite hs (Outlook.leavesUsable_ok _)).1
  | @closed _ _ _ _ _ _ answer _ hs _ _ _ hc =>
    cases answer with
    | error e => cases hresult
    | ok status =>
      have hsent := (h.send hdst hwrite hs (Outlook.leavesUsable_ok _)).1
      exact hb.put rfl (h.sendFin hsent hc).1

end Bridge

end DuplexRelay
