import DuplexRelay.Proofs.Bridge.Logged
import DuplexRelay.Proofs.Bridge.Waking

/-! How much a bridge moves at a time. A receive is made only while the budget is not used up, so of
each side no more is received in an activity than the budget and one receive. Whatever is sent to a
side, at once or from its queue, came from the other one in one receive. On the way, each call is
made of a pipe that no call before has failed on, and what such a call leaves behind holds at the
end. -/

namespace DuplexRelay

open Outlook (LeavesUsable)

namespace BridgeConfig

/-- The receive size of a side. -/
def recvSize (c : BridgeConfig) : Side → Nat
  | .left => c.leftRecvSize
  | .right => c.rightRecvSize

/-- What can be received of a side in an activity. -/
def allowance (c : BridgeConfig) (s : Side) : Nat := c.maxRelayPerEvent + c.recvSize s

/-- What is queued for a side was received from the other one at once. -/
def Admits (c : BridgeConfig) (s : Side) (pending : Option ByteBuffer) : Prop :=
  ∀ queue, pending = some queue → queue.size ≤ c.recvSize s.peer

theorem admits_none (c : BridgeConfig) (s : Side) : c.Admits s none := nofun

end BridgeConfig

/-- Calls of a pipe, with receives of one size and sends of no more than `most` bytes. Those that
leave it of use keep `K`, and after any of them `L` holds. -/
structure Pipe.Metered {P C : Type} (W : Type) [Pipe P W C] (room most : Nat) (K L : P → Prop) :
    Prop where
  sound : ∀ {p : P}, K p → L p
  recv : ∀ {p p' : P} {w w' : W} {result}, K p → Pipe.recv room p w = .ok (result, p', w') →
    L p' ∧ (LeavesUsable result → K p') ∧ ∀ chunk, result = .ok (.data chunk) → chunk.length ≤ room
  send : ∀ {data : Bytes} {p p' : P} {w w' : W} {result}, K p → data.length ≤ most →
    Pipe.send data p w = .ok (result, p', w') → L p' ∧ (LeavesUsable result → K p')
  sendFin : ∀ {p p' : P} {w w' : W} {result}, K p →
    Pipe.sendFin p w = .ok (result, p', w') → L p' ∧ (result.isOk = true → K p')
  react : ∀ {events : SocketEvents} {p p' : P} {w w' : W} {report}, K p →
    Pipe.react events p w = .ok (report, p', w') → L p' ∧ (report.broken = false → K p')

namespace Bridge

variable {P W C : Type}

/-- A bridge with these settings, between pipes of which something is known. -/
structure Configured (config : BridgeConfig) (K : Side → P → Prop) (b : Bridge P) : Prop where
  budget : b.budget = config.maxRelayPerEvent
  size : ∀ s, (b.side s).recvSize = config.recvSize s
  pipes : ∀ s, K s (b.side s).pipe
  queued : ∀ s, config.Admits s (b.side s).pending

variable {config : BridgeConfig} {K L : Side → P → Prop} {b b' : Bridge P} {w w' : W}
  {s src dst : Side} {new : BridgeSide P}

theorem Configured.put (hb : b.Configured config K) (hsize : new.recvSize = (b.side s).recvSize)
    (hnew : K s new.pipe) (hqueue : config.Admits s new.pending) :
    (b.setSide s new).Configured config K where
  budget := (budget_setSide b s new).trans hb.budget
  size := by
    refine Side.forall_of s ?_ ?_
    · rw [side_setSide, hsize]
      exact hb.size s
    · rw [side_setSide_peer]
      exact hb.size s.peer
  pipes := by
    refine Side.forall_of s ?_ ?_
    · rwa [side_setSide]
    · rw [side_setSide_peer]
      exact hb.pipes s.peer
  queued := by
    refine Side.forall_of s ?_ ?_
    · rwa [side_setSide]
    · rw [side_setSide_peer]
      exact hb.queued s.peer

theorem Configured.mono (hb : b.Configured config K) (h : ∀ {s p}, K s p → L s p) :
    b.Configured config L :=
  ⟨hb.budget, hb.size, fun s => h (hb.pipes s), hb.queued⟩

theorem Configured.put_other (hb : b.Configured config K) {other : BridgeSide P}
    (hsize : new.recvSize = (b.side s).recvSize)
    (hother : other.recvSize = (b.side s.peer).recvSize) (hnew : K s new.pipe)
    (hpeer : K s.peer other.pipe) (hqueue : config.Admits s new.pending)
    (hqueue' : config.Admits s.peer other.pending) :
    ((b.setSide s new).setSide s.peer other).Configured config K :=
  (hb.put hsize hnew hqueue).put (by rwa [side_setSide_peer]) hpeer hqueue'

variable [Pipe P W C]

theorem Configured.attached
    (hk : ∀ {s : Side} {callback : C} {p p' : P} {w w' : W} {result}, K s p →
      Pipe.attach callback p w = .ok (result, p', w') → K s p')
    (hb : b.Configured config K) {callback : Side → C} {result : Except Failure Unit}
    (ha : Attached callback b w result b' w') : b'.Configured config K := by
  have hstarted : b.started.Configured config K := ⟨hb.budget, hb.size, hb.pipes, hb.queued⟩
  cases ha with
  | refused _ hl => exact hstarted.put rfl (hk (hb.pipes .left) hl) (hb.queued .left)
  | done _ hl hr =>
    exact hstarted.put_other (s := .left) rfl rfl (hk (hb.pipes .left) hl) (hk (hb.pipes .right) hr)
      (hb.queued .left) (hb.queued .right)

theorem lt_of_verdict {n : Nat} (h : b.verdict src n = .go) : n < b.budget := by
  unfold verdict at h
  split at h
  · split at h
    · cases h
    · omega
  · cases h

variable (h : ∀ s, Pipe.Metered W (config.recvSize s) (config.recvSize s.peer) (K s) (L s))
include h

theorem configured_flushed {result : PipeResult Unit} (hb : b.Configured config K)
    (hf : Flushed dst b w result b' w') :
    b'.Configured config L ∧ (result.isOk = true → b'.Configured config K) := by
  have hl : b.Configured config L := hb.mono fun {s _} hk => (h s).sound hk
  have hdst := hb.pipes dst
  have hqueued := hb.queued dst
  cases hf with
  | idle => exact ⟨hl, fun _ => hb⟩
  | refused hq hs =>
    obtain ⟨hleft, hkept⟩ := (h dst).send hdst (hqueued _ hq) hs
    exact ⟨hl.put rfl hleft hqueued, fun _ => hb.put rfl (hkept (by rintro e ⟨⟩; rfl)) hqueued⟩
  | failed hq hs =>
    refine ⟨hl.put rfl ((h dst).send hdst (hqueued _ hq) hs).1 hqueued, ?_⟩
    intro hok
    cases hok
  | @partly queue rest n _ _ hq hs hn hr =>
    obtain ⟨hleft, hkept⟩ := (h dst).send hdst (hqueued _ hq) hs
    have hrest : config.Admits dst (some rest) := by
      rintro _ ⟨⟩
      have hle := hqueued queue hq
      obtain ⟨_, hafter, hlive⟩ := ByteBuffer.consume_eq_ok (Nat.le_of_lt hn)
      rw [hr] at hafter
      cases hafter
      rw [ByteBuffer.size, hlive, List.length_drop]
      exact Nat.le_trans (Nat.sub_le _ _) hle
    exact ⟨hl.put rfl hleft hrest, fun _ => hb.put rfl (hkept (Outlook.leavesUsable_ok _)) hrest⟩
  | done hq hs =>
    obtain ⟨hleft, hkept⟩ := (h dst).send hdst (hqueued _ hq) hs
    have hnone := config.admits_none dst
    exact ⟨hl.put rfl hleft hnone, fun _ => hb.put rfl (hkept (Outlook.leavesUsable_ok _)) hnone⟩
  | closed hq hs _ _ _ hc =>
    have hkept := ((h dst).send hdst (hqueued _ hq) hs).2 (Outlook.leavesUsable_ok _)
    obtain ⟨hleft, hclosed⟩ := (h dst).sendFin hkept hc
    have hnone := config.admits_none dst
    refine ⟨hl.put rfl hleft hnone, fun hok => hb.put rfl (hclosed ?_) hnone⟩
    rwa [PipeResult.isOk_map] at hok

theorem configured_transferred {result : PipeResult Nat} (hb : b.Configured config K)
    (ht : Transferred src b w result b' w') :
    b'.Configured config L ∧ (result.isOk = true → b'.Configured config K) := by
  have hl : b.Configured config L := hb.mono fun {s _} hk => (h s).sound hk
  have hsrc := hb.pipes src
  have hdst := hb.pipes src.peer
  have hqueue := hb.queued src
  have hqueue' := hb.queued src.peer
  -- the destination is sent what was received at once
  have hsends {data : Bytes} {p p' : P} {w₁ w₂ w₃ : W} {answer : PipeResult Nat}
      (hr : Pipe.recv (config.recvSize src) (b.side src).pipe w = .ok (.ok (.data data), p, w₁))
      (hs : Pipe.send data (b.side src.peer).pipe w₂ = .ok (answer, p', w₃)) :
      data.length ≤ config.recvSize src.peer.peer ∧
        L src.peer p' ∧ (LeavesUsable answer → K src.peer p') := by
    have hle := ((h src).recv hsrc hr).2.2 data rfl
    rw [← Side.peer_peer src] at hle
    exact ⟨hle, (h src.peer).send hdst hle hs⟩
  cases ht with
  | dry _ hr =>
    rw [hb.size src] at hr
    obtain ⟨hleft, hkept, _⟩ := (h src).recv hsrc hr
    exact ⟨hl.put rfl hleft hqueue, fun _ => hb.put rfl (hkept (by rintro e ⟨⟩; rfl)) hqueue⟩
  | failed _ hr =>
    rw [hb.size src] at hr
    exact ⟨hl.put rfl ((h src).recv hsrc hr).1 hqueue, nofun⟩
  | ended _ hr hc =>
    rw [hb.size src] at hr
    obtain ⟨hleft, hkept, _⟩ := (h src).recv hsrc hr
    obtain ⟨hleft', hkept'⟩ := (h src.peer).sendFin hdst hc
    refine ⟨hl.put_other rfl rfl hleft hleft' hqueue hqueue', fun hok => ?_⟩
    rw [PipeResult.isOk_map] at hok
    exact hb.put_other rfl rfl (hkept (Outlook.leavesUsable_ok _)) (hkept' hok) hqueue hqueue'
  | undeliverable _ hr hs =>
    rw [hb.size src] at hr
    obtain ⟨hleft, _⟩ := (h src).recv hsrc hr
    obtain ⟨_, hleft', _⟩ := hsends hr hs
    exact ⟨hl.put_other rfl rfl hleft hleft' hqueue hqueue', nofun⟩
  | relayed _ hr hs ht =>
    rw [hb.size src] at hr
    obtain ⟨hleft, hkept, _⟩ := (h src).recv hsrc hr
    obtain ⟨_, hleft', hkept'⟩ := hsends hr hs
    exact ⟨hl.put_other rfl rfl hleft hleft' hqueue hqueue',
      fun _ => hb.put_other rfl rfl (hkept (Outlook.leavesUsable_ok _))
        (hkept' (leavesUsable_of_took ht)) hqueue
        hqueue'⟩
  | @congested chunk _ n _ _ _ _ _ hr hs ht =>
    rw [hb.size src] at hr
    obtain ⟨hleft, hkept, _⟩ := (h src).recv hsrc hr
    obtain ⟨hle, hleft', hkept'⟩ := hsends hr hs
    have hrest : config.Admits src.peer (some (.copyOf (chunk.drop n))) := by
      rintro _ ⟨⟩
      rw [ByteBuffer.size, ByteBuffer.live_copyOf, List.length_drop]
      exact Nat.le_trans (Nat.sub_le _ _) hle
    exact ⟨hl.put_other rfl rfl hleft hleft' hqueue hrest,
      fun _ => hb.put_other rfl rfl (hkept (Outlook.leavesUsable_ok _))
        (hkept' (leavesUsable_of_took ht)) hqueue
        hrest⟩

/-- A transfer counts what it received, and that is not more than was asked for. -/
theorem received_transferred {result : PipeResult Nat} (hb : b.Configured config K)
    (ht : Transferred src b w result b' w') :
    (b'.side src.peer).traffic.received = (b.side src.peer).traffic.received ∧
      ∃ n ≤ config.recvSize src,
        (b'.side src).traffic.received = (b.side src).traffic.received + n ∧
        ∀ k, result = .ok k → k = n := by
  cases ht with
  | dry =>
    refine ⟨by simp, 0, Nat.zero_le _, by simp, ?_⟩
    rintro k ⟨⟩
    rfl
  | failed => exact ⟨by simp, 0, Nat.zero_le _, by simp, nofun⟩
  | @ended _ _ _ _ answer _ hr hc =>
    refine ⟨by simp, 0, Nat.zero_le _, by simp, fun k hk => ?_⟩
    cases answer with
    | error e => cases hk
    | ok status =>
      cases hk
      rfl
  | @undeliverable chunk _ _ _ _ _ _ hr hs =>
    rw [hb.size src] at hr
    have hle := ((h src).recv (hb.pipes src) hr).2.2 chunk rfl
    exact ⟨by simp, chunk.length, hle, by simp [afterRecv], nofun⟩
  | @relayed chunk _ _ _ _ _ _ _ hr | @congested chunk _ _ _ _ _ _ _ hr =>
    rw [hb.size src] at hr
    have hle := ((h src).recv (hb.pipes src) hr).2.2 chunk rfl
    refine ⟨by simp [afterSend, afterQueueing], chunk.length, hle, by simp [afterRecv], ?_⟩
    rintro k ⟨⟩
    rfl

omit h in
theorem received_flushed {result : PipeResult Unit} (hf : Flushed dst b w result b' w') (d : Side) :
    (b'.side d).traffic.received = (b.side d).traffic.received := by
  rcases Side.eq_or_eq_peer dst d with rfl | rfl
  · cases hf <;> simp [afterSend]
  · cases hf <;> simp

theorem metered_relayed {n : Nat} {result : PipeResult Unit} (hb : b.Configured config K)
    (hr : Relayed src n b w result b' w') :
    b'.Configured config L ∧ (result.isOk = true → b'.Configured config K) ∧
      (b'.side src.peer).traffic.received = (b.side src.peer).traffic.received ∧
      (b'.side src).traffic.received + n ≤
        (b.side src).traffic.received + max n (config.allowance src) := by
  induction hr with
  | stopped | yielded =>
    exact ⟨hb.mono fun {s _} hk => (h s).sound hk, fun _ => hb, rfl, by omega⟩
  | @failed n _ _ _ _ _ hv ht =>
    have hless := lt_of_verdict hv
    obtain ⟨hleft, _⟩ := configured_transferred h hb (transferred ht)
    obtain ⟨hpeer, k, hk, hsrc, _⟩ := received_transferred h hb (transferred ht)
    refine ⟨hleft, nofun, hpeer, ?_⟩
    rw [hb.budget] at hless
    unfold BridgeConfig.allowance
    omega
  | @more n k _ _ _ _ _ _ _ hv ht _ ih =>
    have hless := lt_of_verdict hv
    obtain ⟨_, hkept⟩ := configured_transferred h hb (transferred ht)
    obtain ⟨hpeer, m, hm, hsrc, hsame⟩ := received_transferred h hb (transferred ht)
    obtain ⟨hleft, hlater, hpeer', hsrc'⟩ := ih (hkept rfl)
    obtain rfl := hsame k rfl
    refine ⟨hleft, hlater, hpeer'.trans hpeer, ?_⟩
    rw [hb.budget] at hless
    unfold BridgeConfig.allowance at hsrc' ⊢
    omega

theorem metered_writePhase {report : PipeEvents} {result : PipeResult Unit}
    (hb : b.Configured config K) (hw : WritePhase s report b w result b' w') :
    b'.Configured config L ∧ (result.isOk = true → b'.Configured config K) ∧
      (b'.side s).traffic.received = (b.side s).traffic.received ∧
      (b'.side s.peer).traffic.received ≤
        (b.side s.peer).traffic.received + config.allowance s.peer := by
  cases hw with
  | skipped =>
    exact ⟨hb.mono fun {s _} hk => (h s).sound hk, fun _ => hb, rfl, Nat.le_add_right _ _⟩
  | failed _ hf | full _ hf =>
    obtain ⟨hleft, hkept⟩ := configured_flushed h hb (flushed hf)
    have hsame := received_flushed (flushed hf)
    have hpeer := hsame s.peer
    exact ⟨hleft, hkept, hsame s, by omega⟩
  | relayed _ hf _ hr =>
    obtain ⟨_, hkept⟩ := configured_flushed h hb (flushed hf)
    have hsame := received_flushed (flushed hf)
    obtain ⟨hleft, hlater, hpeer, hsrc⟩ := metered_relayed h (hkept rfl) hr
    rw [Side.peer_peer, hsame s] at hpeer
    rw [hsame s.peer] at hsrc
    exact ⟨hleft, hlater, hpeer, by omega⟩

/-- An activity of a live bridge receives no more of a side than is allowed for. -/
theorem metered_handled {report : PipeEvents} {result : PipeResult Unit}
    (hl : b.Configured config L) (hb : report.broken = false → b.Configured config K)
    (hh : Handled s report b w result b' w') :
    b'.Configured config L ∧ (result.isOk = true → b'.Configured config K) ∧
      ∀ d, (b'.side d).traffic.received ≤ (b.side d).traffic.received + config.allowance d := by
  cases hh with
  | broken => exact ⟨hl, nofun, fun d => Nat.le_add_right _ _⟩
  | failed hbroken hw =>
    obtain ⟨hleft, hkept, hown, hpeer⟩ := metered_writePhase h (hb hbroken) hw
    exact ⟨hleft, hkept, Side.forall_of s (by omega) hpeer⟩
  | done hbroken hw hr =>
    obtain ⟨hleft, hkept, hown, hpeer⟩ := metered_writePhase h (hb hbroken) hw
    cases hr with
    | skipped =>
      exact ⟨hleft, hkept, Side.forall_of s (by omega) hpeer⟩
    | relayed _ _ hrel =>
      -- the two phases relay in opposite directions
      obtain ⟨hleft', hkept', hpeer', hown'⟩ := metered_relayed h (hkept rfl) hrel
      refine ⟨hleft', hkept', Side.forall_of s ?_ ?_⟩
      · omega
      · omega

theorem metered_acted {events : SocketEvents} {ending : Option Bool} (hd : b.dead = false)
    (hb : b.Configured config K) (ha : Acted s events b w ending b' w') :
    b'.Configured config L ∧ (b'.dead = false → b'.Configured config K) ∧
      ∀ d, (b'.side d).traffic.received ≤ (b.side d).traffic.received + config.allowance d := by
  have hdie {J : Side → P → Prop} {b : Bridge P} (hb : b.Configured config J) :
      b.die.Configured config J :=
    ⟨hb.budget, Side.forall_of .left (hb.size .left) (hb.size .right),
      Side.forall_of .left (hb.pipes .left) (hb.pipes .right),
      Side.forall_of .left (hb.queued .left) (hb.queued .right)⟩
  have htold {report : PipeEvents} {pipe : P} {b₁ : Bridge P} {w₁ : W} {result : PipeResult Unit}
      (hr : Pipe.react events (b.side s).pipe w = .ok (report, pipe, w₁))
      (hh : Handled s report (b.setSide s { b.side s with pipe }) w₁ result b₁ w') :
      b₁.Configured config L ∧ (result.isOk = true → b₁.Configured config K) ∧
        ∀ d, (b₁.side d).traffic.received ≤ (b.side d).traffic.received + config.allowance d := by
    obtain ⟨hleft, hkept⟩ := (h s).react (hb.pipes s) hr
    have hl : b.Configured config L := hb.mono fun {s _} hk => (h s).sound hk
    have hqueue := hb.queued s
    have hnoticed : (b.setSide s { b.side s with pipe }).Configured config L :=
      hl.put rfl hleft hqueue
    obtain ⟨hleft', hkept', hcount⟩ :=
      metered_handled h hnoticed (fun hbroken => hb.put rfl (hkept hbroken) hqueue) hh
    refine ⟨hleft', hkept', Side.forall_of s ?_ ?_⟩
    · simpa using hcount s
    · simpa using hcount s.peer
  cases ha with
  | ignored hdead => exact absurd (hd.symm.trans hdead) Bool.false_ne_true
  | failed _ hr hh | closed _ hr hh =>
    obtain ⟨hleft, _, hcount⟩ := htold hr hh
    exact ⟨hdie hleft, nofun, Side.forall_of .left (hcount .left) (hcount .right)⟩
  | lives _ hr hh =>
    obtain ⟨hleft, hkept, hcount⟩ := htold hr hh
    exact ⟨hleft, fun _ => hkept rfl, hcount⟩

end Bridge

end DuplexRelay
