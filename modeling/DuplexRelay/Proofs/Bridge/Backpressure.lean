import DuplexRelay.Proofs.Bridge.FinOrder
import DuplexRelay.Proofs.Bridge.Metered
import DuplexRelay.Proofs.Bridge.Stints
import DuplexRelay.Proofs.Pipe.Reserve

/-! Backpressure. A side is read only while nothing is left on the way to the other one, neither in
the queue of the bridge nor in a layer of the pipe, so there is never more on the way than what one
receive yields. -/

namespace DuplexRelay

open Relay (Link)

/-- No more than so many bytes are held back. -/
structure Reserve.Within {P : Type} (k : Reserve P) (bound : Nat) (p : P) : Prop where
  shape : k.shape p
  held : k.held p ≤ bound

theorem Reserve.Within.kept {P : Type} {k : Reserve P} {bound : Nat} {p p' : P}
    (hp : k.Within bound p) (h : k.NothingAdded p p') : k.Within bound p' :=
  ⟨h.shape, Nat.le_trans h.held hp.held⟩

namespace Bridge

variable {P W C : Type}

section Receiving

variable [Pipe P W C]

/-- The loop of relaying, where `n` bytes were relayed before, with the states that it receives
in. -/
inductive Receiving (src : Side) :
    List (Bridge P × W) → (n : Nat) → Bridge P → W → PipeResult Unit → Bridge P → W → Prop
  | stopped {n : Nat} {b : Bridge P} {w : W} (hv : b.verdict src n = .stop) :
      Receiving src [] n b w (.ok ()) b w
  | yielded {n : Nat} {b : Bridge P} {w : W} (hv : b.verdict src n = .yield) :
      Receiving src [] n b w (.ok ()) b (Pipe.rescheduleRead (b.side src).pipe w)
  | failed {n : Nat} {b b' : Bridge P} {w w' : W} {e : PipeError} (hv : b.verdict src n = .go)
      (ht : b.transfer src w = .ok (.error e, b', w')) :
      Receiving src [(b, w)] n b w (.error e) b' w'
  | more {states : List (Bridge P × W)} {n k : Nat} {b b₁ b' : Bridge P} {w w₁ w' : W}
      {result : PipeResult Unit} (hv : b.verdict src n = .go)
      (ht : b.transfer src w = .ok (.ok k, b₁, w₁))
      (hr : Receiving src states (n + k) b₁ w₁ result b' w') :
      Receiving src ((b, w) :: states) n b w result b' w'

variable {src : Side} {n : Nat} {b b' : Bridge P} {w w' : W} {result : PipeResult Unit}
  {states : List (Bridge P × W)} {J : Bridge P → Prop} {Due : Side → Bridge P → Prop}

theorem Relayed.receiving (h : Relayed src n b w result b' w') :
    ∃ states, Receiving src states n b w result b' w' := by
  induction h with
  | stopped hv => exact ⟨[], .stopped hv⟩
  | yielded hv => exact ⟨[], .yielded hv⟩
  | failed hv ht => exact ⟨_, .failed hv ht⟩
  | more hv ht _ ih =>
    obtain ⟨states, hlater⟩ := ih
    exact ⟨_, .more hv ht hlater⟩

theorem pending_of_transferred {k : PipeResult Nat} (h : Transferred src b w k b' w') :
    (b.side src.peer).pending = none := by
  cases h <;> assumption

theorem Sustained.receiving (h : Sustained W J Due) (hb : J b)
    (hr : Receiving src states n b w result b' w') :
    ∀ x ∈ states, J x.1 ∧ CanRelay src x.1 ∧ (x.1.side src.peer).pending = none := by
  induction hr with
  | stopped | yielded => exact List.forall_mem_nil _
  | failed hv ht =>
    have hfirst :=
      And.intro (canRelay_of_verdict hv) (pending_of_transferred (Bridge.transferred ht))
    exact List.forall_mem_singleton.mpr ⟨hb, hfirst⟩
  | more hv ht _ ih =>
    have hh := canRelay_of_verdict hv
    have hfirst := And.intro hh (pending_of_transferred (Bridge.transferred ht))
    exact List.forall_mem_cons.mpr ⟨⟨hb, hfirst⟩, ih (h.transferred hb hh (Bridge.transferred ht))⟩

theorem Sustained.noted (h : Sustained W J Due) {s : Side} {events : SocketEvents}
    {ending : Option Bool} {stints : List (Stint P W)} (hb : b.dead = true ∨ J b)
    (ha : b.onActivityNoting s events w = .ok (stints, ending, b', w')) :
    ∀ x ∈ stints,
      J x.before ∧ x.before.relay x.src x.world = .ok (x.result, x.after, x.outcome) := by
  have hwrite {report : PipeEvents} {b b' : Bridge P} {w w' : W} {stints : List (Stint P W)}
      {result : PipeResult Unit} (hb : J b) (hdue : report.writable = true → Due s b)
      (hw : WriteNoted s report b w stints result b' w') : ∀ x ∈ stints, J x.before ∧
        x.before.relay x.src x.world = .ok (x.result, x.after, x.outcome) := by
    cases hw with
    | skipped | failed | full => exact List.forall_mem_nil _
    | relayed hwritable hf _ hr =>
      have hflushed := h.flushed hb (hdue hwritable) (Bridge.flushed hf)
      exact List.forall_mem_singleton.mpr ⟨hflushed, hr⟩
  cases hd : b.dead with
  | true =>
    rw [onActivityNoting, if_pos hd] at ha
    cases ha
    exact List.forall_mem_nil _
  | false =>
    have hlive := hb.resolve_left (by simp [hd])
    have hhandled {report : PipeEvents} {pipe : P} {b' : Bridge P} {w₁ w' : W}
        {result : PipeResult Unit}
        (hr : Pipe.react events (b.side s).pipe w = .ok (report, pipe, w₁))
        (hh : HandledNoted s report (b.setSide s { b.side s with pipe }) w₁ stints result b' w') :
        ∀ x ∈ stints, J x.before ∧
          x.before.relay x.src x.world = .ok (x.result, x.after, x.outcome) := by
      cases hh with
      | broken => exact List.forall_mem_nil _
      | failed hunbroken hw =>
        obtain ⟨htold, hdue⟩ := h.noticed hlive hr hunbroken
        exact hwrite htold hdue hw
      | done hunbroken hw hread =>
        obtain ⟨htold, hdue⟩ := h.noticed hlive hr hunbroken
        refine List.forall_mem_append.mpr ⟨hwrite htold hdue hw, ?_⟩
        cases hread with
        | skipped => exact List.forall_mem_nil _
        | relayed hrelay =>
          have hwritten := h.writePhase htold hdue hw.phase rfl
          exact List.forall_mem_singleton.mpr ⟨hwritten, hrelay⟩
    cases actedNoted hd ha with
    | failed hr hh | closed hr hh | lives hr hh => exact hhandled hr hh

end Receiving

section Throttled

/-- Where something is queued for a side, the layers of its pipe hold nothing back. -/
def Apart (k : Reserve P) (b : Bridge P) : Prop :=
  ∀ s, (b.side s).pending ≠ none → ¬k.holding (b.side s).pipe

/-- What is on the way to a side is in one place only, and no more than one receive yields, with a
header. -/
structure Throttled (k : Reserve P) (header : Nat) (config : BridgeConfig) (b : Bridge P) :
    Prop where
  configured : b.Configured config fun s => k.Within (config.recvSize s.peer + header)
  apart : b.Apart k

variable {k : Reserve P} {header : Nat} {config : BridgeConfig} {b b' : Bridge P} {w w' : W}
  {s src dst : Side} {new : BridgeSide P}

theorem Apart.put (hb : b.Apart k) (hnew : new.pending ≠ none → ¬k.holding new.pipe) :
    (b.setSide s new).Apart k := by
  refine Side.forall_of s ?_ ?_
  · rwa [side_setSide]
  · rw [side_setSide_peer]
    exact hb s.peer

theorem Throttled.underway_le (hb : b.Throttled k header config) (d : Side) :
    (b.side d).queued.length + k.held (b.side d).pipe ≤ config.recvSize d.peer + header := by
  obtain ⟨hshape, hheld⟩ := hb.configured.pipes d
  cases hq : (b.side d).pending with
  | none => simpa [BridgeSide.queued, hq] using hheld
  | some queue =>
    have hnone := k.empty hshape (hb.apart d (by simp [hq]))
    have hsize : queue.live.length ≤ config.recvSize d.peer := hb.configured.queued d queue hq
    simp only [BridgeSide.queued, hq, Option.map_some, Option.getD_some, hnone]
    omega

variable [Pipe P W C] (hk : k.Lawful W header)
include hk

theorem metered_of_lawful
    (hwithin : ∀ {n : Nat} {p p' : P} {w w' : W} {chunk : Bytes}, k.shape p →
      Pipe.recv n p w = .ok (.ok (.data chunk), p', w') → chunk.length ≤ n) (room most : Nat) :
    Pipe.Metered W room most (k.Within (most + header)) (k.Within (most + header)) := by
  constructor
  · exact id
  · intro p p' w w' result hp hr
    have hafter := hp.kept (hk.recv hp.shape hr)
    refine ⟨hafter, fun _ => hafter, ?_⟩
    rintro chunk rfl
    exact hwithin hp.shape hr
  · intro data p p' w w' result hp hle hs
    have hafter : k.Within (most + header) p' := by
      rcases hk.send hp.shape hs with h | h
      · exact hp.kept h
      · exact ⟨h.shape, Nat.le_trans h.held (Nat.add_le_add_right hle header)⟩
    exact ⟨hafter, fun _ => hafter⟩
  · intro p p' w w' result hp hc
    have hafter := hp.kept (hk.sendFin hp.shape hc)
    exact ⟨hafter, fun _ => hafter⟩
  · intro events p p' w w' report hp hr
    have hafter := hp.kept (hk.react hp.shape hr)
    exact ⟨hafter, fun _ => hafter⟩

/-- What is left of a queue was not taken, and then nothing is held back of it. -/
theorem apart_flushed (hb : b.Apart k) (hshape : k.shape (b.side dst).pipe)
    (hf : Flushed dst b w (.ok ()) b' w') : b'.Apart k := by
  generalize hresult : (Except.ok () : PipeResult Unit) = result at hf
  cases hf with
  | idle => exact hb
  | failed => cases hresult
  | refused hq hs =>
    rcases hk.send hshape hs with hkept | hfilled
    · exact hb.put fun hn hholding => hb dst hn (hkept.holding hholding)
    · cases hfilled.whole
  | @partly queue rest n _ _ hq hs hn =>
    rcases hk.send hshape hs with hkept | hfilled
    · exact hb.put fun _ hholding => hb dst (by simp [hq]) (hkept.holding hholding)
    · obtain rfl : n = queue.live.length := Except.ok.inj hfilled.whole
      exact absurd hn (Nat.lt_irrefl _)
  | done | closed => exact hb.put fun hn => absurd rfl hn

/-- What is queued of a chunk was not taken, by a pipe that held nothing back. -/
theorem apart_transferred {n : Nat} (hb : b.Apart k) (hshape : ∀ s, k.shape (b.side s).pipe)
    (hh : CanRelay src b) (ht : Transferred src b w (.ok n) b' w') : b'.Apart k := by
  generalize hresult : (Except.ok n : PipeResult Nat) = result at ht
  have hread {m : Nat} {answer : PipeResult Recv} {pipe : P} {w₁ : W} (traffic : Traffic)
      (hr : Pipe.recv m (b.side src).pipe w = .ok (answer, pipe, w₁)) :
      (b.setSide src { b.side src with pipe, traffic }).Apart k :=
    hb.put fun hn hholding => hb src hn ((hk.recv (hshape src) hr).holding hholding)
  cases ht with
  | failed | undeliverable => cases hresult
  | dry _ hr => exact hread _ hr
  | ended hp hr | relayed hp hr => exact (hread _ hr).put fun hn => absurd hp hn
  | congested _ hr hs htook hless =>
    refine (hread _ hr).put fun _ hholding => ?_
    rcases hk.send (hshape src.peer) hs with hkept | hfilled
    · exact hk.idle (hshape src.peer) hh.2 (hkept.holding hholding)
    · rcases htook with hall | ⟨hrefused, _⟩
      · have hsame := Except.ok.inj (hall.symm.trans hfilled.whole)
        omega
      · cases hrefused.symm.trans hfilled.whole

theorem throttled_sustained
    (hwithin : ∀ {n : Nat} {p p' : P} {w w' : W} {chunk : Bytes}, k.shape p →
      Pipe.recv n p w = .ok (.ok (.data chunk), p', w') → chunk.length ≤ n) :
    Sustained W (fun b : Bridge P => b.Throttled k header config) fun _ _ => True := by
  have hm (s : Side) := metered_of_lawful hk hwithin (config.recvSize s) (config.recvSize s.peer)
  constructor
  · intro b s events report pipe w w' hb hr _
    have hkept := hk.react (hb.configured.pipes s).shape hr
    have htold := ((hm s).react (hb.configured.pipes s) hr).1
    refine ⟨⟨hb.configured.put rfl htold (hb.configured.queued s), ?_⟩, fun _ => trivial⟩
    exact hb.apart.put fun hn hholding => hb.apart s hn (hkept.holding hholding)
  · intro b b' dst w w' hb _ hf
    exact ⟨(configured_flushed hm hb.configured hf).1,
      apart_flushed hk hb.apart (hb.configured.pipes dst).shape hf⟩
  · intro b b' src n w w' hb hh ht
    exact ⟨(configured_transferred hm hb.configured ht).1,
      apart_transferred hk hb.apart (fun s => (hb.configured.pipes s).shape) hh ht⟩
  · intro b hb
    have hconfigured := hb.configured
    exact ⟨⟨hconfigured.budget, Side.forall_of .left (hconfigured.size .left)
        (hconfigured.size .right), Side.forall_of .left (hconfigured.pipes .left)
        (hconfigured.pipes .right), Side.forall_of .left (hconfigured.queued .left)
        (hconfigured.queued .right)⟩,
      Side.forall_of .left (hb.apart .left) (hb.apart .right)⟩

theorem throttled_attached {callback : Side → C} {result : Except Failure Unit}
    (hb : b.Throttled k header config) (ha : Attached callback b w result b' w') :
    b'.Throttled k header config := by
  have hstarted : b.started.Apart k := Side.forall_of .left (hb.apart .left) (hb.apart .right)
  refine ⟨hb.configured.attached (fun hp h => hp.kept (hk.attach hp.shape h)) ha, ?_⟩
  have hput {before : Bridge P} {s : Side} {callback : C} {pipe : P} {w w' : W}
      {result : Except Failure Unit} (hbefore : before.Apart k)
      (h : Pipe.attach callback (b.side s).pipe w = .ok (result, pipe, w')) :
      (before.setSide s { b.side s with pipe }).Apart k :=
    hbefore.put fun hn hholding =>
      hb.apart s hn ((hk.attach (hb.configured.pipes s).shape h).holding hholding)
  cases ha with
  | refused _ hl => exact hput hstarted hl
  | done _ hl hr => exact hput (hput hstarted hl) hr

end Throttled

section Links

variable {N C : Type} [Sockets N]

/-- The number of bytes on the way to a side: those that the bridge queues for it, and those that
its pipe took and did not pass to the socket. -/
def underway (b : Bridge Link) (dst : Side) : Nat :=
  (b.side dst).queued.length + (b.side dst).pipe.held.length

/-- Nothing is on the way to a side. -/
structure Cleared (dst : Side) (b : Bridge Link) : Prop where
  bridge : (b.side dst).pending = none
  pipe : ¬Stack.outlook.holding (b.side dst).pipe

/-- What is on the way from each side to the other is in one place at most, and no more than one
receive yields, with the size of a datagram before it. -/
structure Bounded (config : BridgeConfig) (b : Bridge Link) : Prop where
  apart : ∀ src : Side, (b.side src.peer).pending = none ∨
    ¬Stack.outlook.holding (b.side src.peer).pipe
  underway : ∀ src : Side, b.underway src.peer ≤ config.recvSize src + 4

theorem Throttled.bounded {config : BridgeConfig} {b : Bridge Link}
    (hb : b.Throttled Stack.reserve 4 config) : b.Bounded config where
  apart src := or_iff_not_imp_left.mpr (hb.apart src.peer)
  underway src := by
    have hle := hb.underway_le src.peer
    rwa [Side.peer_peer] at hle

theorem IsNew.within {p : Link} (h : IsNew p) (bound : Nat) : Stack.reserve.Within bound p := by
  obtain ⟨tcp, _, rfl | ⟨maxSize, rfl⟩⟩ := h.shape
  · exact ⟨.inl rfl, Nat.zero_le _⟩
  · exact ⟨.inr rfl, Nat.zero_le _⟩

theorem throttled_between {left right : Link} {config : BridgeConfig} {b : Bridge Link}
    (hl : IsNew left) (hr : IsNew right) (hb : between left right config = .ok (.ok b)) :
    b.Throttled Stack.reserve 4 config := by
  rw [between_eq_ok hb]
  refine ⟨⟨rfl, Side.forall_of .left rfl rfl, Side.forall_of .left (hl.within _) (hr.within _),
    Side.forall_of .left (config.admits_none _) (config.admits_none _)⟩, ?_⟩
  exact Side.forall_of .left (fun hn => absurd rfl hn) (fun hn => absurd rfl hn)

/-- Whatever arrives and however slowly it is taken, a live bridge receives from a side only while
nothing is on the way to the other one. So what is on the way is bounded by the settings of the
bridge. -/
theorem backpressure_bounds [LawfulSockets N] {left right : Link} {config : BridgeConfig}
    {callback : Side → C} {activities : List (Activity (Host N C))} {b b₁ : Bridge Link}
    {w w₁ : Host N C} {result : Except Failure Unit} {episodes : List (Episode Link (Host N C))}
    (hl : IsNew left) (hr : IsNew right) (hb : between left right config = .ok (.ok b))
    (ha : b.attach callback w = .ok (result, b₁, w₁))
    (hc : course activities b₁ w₁ = .ok episodes) :
    b₁.Bounded config ∧
    List.Forall₂ (fun a e => (e.after.dead = false → e.after.Bounded config) ∧
      ∃ stints : List (Stint Link (Host N C)),
        e.before.onActivityNoting a.side a.events e.world =
          .ok (stints, e.ending, e.after, e.outcome) ∧
        ∀ x ∈ stints, x.before.Bounded config ∧ (x.result = .ok () → x.after.Bounded config) ∧
          ∃ states, Receiving x.src states 0 x.before x.world x.result x.after x.outcome ∧
            ∀ y ∈ states, y.1.Cleared x.src.peer ∧ y.1.Bounded config)
      activities episodes := by
  have hlawful := Stack.reserve_lawful (N := N) (C := C)
  have hkept : Sustained (Host N C) (fun b : Bridge Link => b.Throttled Stack.reserve 4 config)
      fun _ _ => True := throttled_sustained hlawful Stack.recv_le
  have hstart := throttled_attached hlawful (throttled_between hl hr hb) (attached ha)
  refine ⟨hstart.bounded, ?_⟩
  have hall := forall_course
    (I := fun b _ => b.dead = true ∨ b.Throttled Stack.reserve 4 config)
    (fun h hact => (hkept.acted h (acted hact)).1) (fun _ _ _ _ h => h) (.inr hstart) hc
  refine hall.imp fun a e ⟨hbefore, hact⟩ => ?_
  refine ⟨fun hd => ((hkept.acted hbefore (acted hact)).2 (.inl hd)).bounded, ?_⟩
  obtain ⟨stints, hnoting⟩ := exists_noting hact
  refine ⟨stints, hnoting, fun x hx => ?_⟩
  obtain ⟨hbegin, hrelay⟩ := hkept.noted hbefore hnoting x hx
  have hend := hkept.relayed hbegin (relayed hrelay)
  obtain ⟨states, hreceiving⟩ := (relayed hrelay).receiving
  refine ⟨hbegin.bounded, fun hok => (hend hok).bounded, states, hreceiving, fun y hy => ?_⟩
  obtain ⟨hthrottled, hhungry, hpending⟩ := hkept.receiving hbegin hreceiving y hy
  have hshape := (hthrottled.configured.pipes x.src.peer).shape
  exact ⟨⟨hpending, hlawful.idle hshape hhungry.2⟩, hthrottled.bounded⟩

end Links

/-- A network where three bytes can be read at any time, and whose sockets take one byte at a
time. -/
structure Trickle where

instance : Sockets Trickle where
  read _ n net := (.ok ([1, 2, 3].take n), net)
  send _ data net := (.ok (min 1 data.length), net)
  shutdown _ net := (.ok (), net)
  takeError _ net := (none, net)
  close _ net := net
  queued _ _ := 3

instance : LawfulSockets Trickle where
  read_le h := by
    cases h
    exact List.length_take_le _ _
  send_le h := by
    cases h
    exact Nat.min_le_right _ _

/-- Three bytes are received once the framed side can be written to, and are not received again
while some of the datagram is left. -/
def trickling : List (Activity (Host Trickle Side)) :=
  [(.right, { writable := true }), (.left, { readable := true }), (.left, { readable := true }),
    (.right, { writable := true })].map fun (side, events) => { side, events, meanwhile := id }

def tricklingCourse : Checked (List (Episode Link (Host Trickle Side))) := do
  let (_, b, w) ← framingBridge.attach id { net := {}, reactor := {} }
  course trickling b w

/-- What was received of the left side until then, and what is on the way from there. -/
def fromLeft {W : Type} (e : Episode Link W) : Nat × Nat :=
  ((e.after.side .left).traffic.received, e.after.underway .right)

theorem tricklingCourse_figures :
    tricklingCourse.toOption.map (List.map fromLeft) = some [(0, 0), (3, 3), (3, 3), (3, 2)] := by
  decide +kernel

/-- The left side stays readable, and is not read while a part of the datagram is left. -/
theorem backpressure_bounds_trickling :
    IsNew (.bare (.connected 3)) ∧ IsNew framedLink ∧
    between (.bare (.connected 3)) framedLink {} = .ok (.ok framingBridge) ∧
    ∃ episodes : List (Episode Link (Host Trickle Side)),
      tricklingCourse = .ok episodes ∧
      episodes.map fromLeft = [(0, 0), (3, 3), (3, 3), (3, 2)] ∧
      List.Forall₂ (fun a e => (e.after.dead = false → e.after.Bounded {}) ∧
        ∃ stints : List (Stint Link (Host Trickle Side)),
          e.before.onActivityNoting a.side a.events e.world =
            .ok (stints, e.ending, e.after, e.outcome) ∧
          ∀ x ∈ stints, x.before.Bounded {} ∧ (x.result = .ok () → x.after.Bounded {}) ∧
            ∃ states, Receiving x.src states 0 x.before x.world x.result x.after x.outcome ∧
              ∀ y ∈ states, y.1.Cleared x.src.peer ∧ y.1.Bounded {})
        trickling episodes := by
  have hl : IsNew (.bare (.connected 3)) := ⟨3, false, 0, .inr rfl⟩
  have hr : IsNew framedLink := ⟨4, true, 1024, .inr rfl⟩
  have hnew : between (.bare (.connected 3)) framedLink {} = .ok (.ok framingBridge) := rfl
  refine ⟨hl, hr, hnew, ?_⟩
  obtain ⟨episodes, hrun, hfigures⟩ :=
    Checked.toOption_map_eq_some_iff.mp tricklingCourse_figures
  refine ⟨episodes, hrun, hfigures, ?_⟩
  obtain ⟨⟨result, b, w⟩, ha, hc⟩ := Checked.bind_eq_ok_iff.mp hrun
  exact (backpressure_bounds hl hr hnew ha hc).2

end Bridge

end DuplexRelay
