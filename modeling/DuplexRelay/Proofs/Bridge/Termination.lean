import DuplexRelay.Proofs.Bridge.Contract
import DuplexRelay.Proofs.Bridge.Intake
import DuplexRelay.Proofs.Bridge.Stints

/-! Relaying comes to an end by itself. The bytes that were relayed do not tell when: a receive from
a framed side may take bytes off the socket and yield none. What every receive takes from is what
the socket announced together with what the reassembly buffer holds. -/

namespace DuplexRelay

namespace Stack

variable {N C : Type} [Sockets N]

/-- The bytes of a frame that did not arrive completely yet. -/
def buffered (s : Stack Tcp) : Nat :=
  match s.view with
  | .datagram buffered _ => buffered
  | _ => 0

/-- No more receives are announced than two for each byte that is still to be read, and one for each
that is held back. -/
theorem backlog_le {s : Stack Tcp} (hs : s.LinkShaped) (w : Host N C) :
    Pipe.backlog s w ≤ s.buffered + 2 * (Sockets.queued s.base.fd w.net + 2) := by
  obtain ⟨layers, top⟩ := s
  rcases hs.layers with hlayers | hlayers
  · cases hlayers
    have hbacklog : Pipe.backlog (⟨[], top⟩ : Stack Tcp) w =
        Sockets.queued (base ⟨[], top⟩).fd w.net + 2 := rfl
    omega
  · cases hlayers
    exact Nat.le_refl _

end Stack

namespace Bridge

section Loop

variable {P Q W C : Type} [Pipe P W C]

/-- The loop of relaying, where `n` bytes were relayed before. It makes so many receives before it
ends, and nothing but the state of the bridge tells when that is. -/
inductive Looped (src : Side) :
    (receives n : Nat) → Bridge P → W → PipeResult Unit → Bridge P → W → Prop
  | stopped {n : Nat} {b : Bridge P} {w : W} (hv : b.verdict src n = .stop) :
      Looped src 0 n b w (.ok ()) b w
  | yielded {n : Nat} {b : Bridge P} {w : W} (hv : b.verdict src n = .yield) :
      Looped src 0 n b w (.ok ()) b (Pipe.rescheduleRead (b.side src).pipe w)
  | failed {n : Nat} {b b' : Bridge P} {w w' : W} {e : PipeError} (hv : b.verdict src n = .go)
      (ht : b.transfer src w = .ok (.error e, b', w')) : Looped src 1 n b w (.error e) b' w'
  | more {receives n k : Nat} {b b₁ b' : Bridge P} {w w₁ w' : W} {result : PipeResult Unit}
      (hv : b.verdict src n = .go) (ht : b.transfer src w = .ok (.ok k, b₁, w₁))
      (hr : Looped src receives (n + k) b₁ w₁ result b' w') :
      Looped src (receives + 1) n b w result b' w'

theorem Looped.mapPipes [Pipe Q W C] {f : Q → P} (hf : Pipe.Erases W f) {src : Side}
    {receives n : Nat} {b b' : Bridge Q} {w w' : W} {result : PipeResult Unit}
    (h : Looped src receives n b w result b' w') :
    Looped src receives n (b.mapPipes f) w result (b'.mapPipes f) w' := by
  have htransfer {b b' : Bridge Q} {w w' : W} {r : PipeResult Nat}
      (ht : b.transfer src w = .ok (r, b', w')) :
      (b.mapPipes f).transfer src w = .ok (r, b'.mapPipes f, w') := by
    rw [transfer_mapPipes hf, ht]
    rfl
  induction h with
  | stopped hv => exact .stopped ((verdict_mapPipes hf _ _ _).trans hv)
  | @yielded n b w hv =>
    have hyield := Looped.yielded (W := W) (w := w) ((verdict_mapPipes hf b src n).trans hv)
    rw [side_mapPipes] at hyield
    rwa [mapSide, hf.rescheduleRead] at hyield
  | failed hv ht => exact .failed ((verdict_mapPipes hf _ _ _).trans hv) (htransfer ht)
  | more hv ht _ ih => exact .more ((verdict_mapPipes hf _ _ _).trans hv) (htransfer ht) ih

end Loop

section Measure

variable {P N C : Type} [Sockets N] [Pipe P (Host N C) C] {o : Outlook (Logged P)}
  {own : Fd → Prop} {size : Nat} {fits : Nat → Prop} {b b' : Bridge (Logged P)} {w w' : Host N C}
  {s src : Side} (h : Pipe.Dependable (N := N) (C := C) o fits)
include h

/-- The loop ends. The induction is on the receives that the source announces: the loop goes on only
from a source that is readable, and a receive that leaves it so makes them fewer, whether or not it
yields a byte. -/
theorem relayWithin_looped (hN : Sockets.AsAnnounced N) {most : Nat} (n : Nat)
    (hb : b.Fit o own w.reactor) (hp : b.Proper size)
    (hmost : CanRelay src b → Pipe.backlog (b.side src).pipe w ≤ most) :
    (∃ receives ≤ most, ∃ result b' w', relayWithin src most n b w = .ok (result, b', w') ∧
      Looped src receives n b w result b' w') ∨
    relayWithin src most n b w = .error .capacityExceeded ∧ ¬fits size := by
  induction most generalizing n b w with
  | zero =>
    unfold relayWithin
    cases hv : b.verdict src n with
    | stop => exact .inl ⟨0, Nat.le_refl 0, _, _, _, rfl, .stopped hv⟩
    | yield => exact .inl ⟨0, Nat.le_refl 0, _, _, _, rfl, .yielded hv⟩
    | go =>
      have hnone := hmost (canRelay_of_verdict hv)
      have hlasting := (h.depleting hN).lasting w (hb src).regular
      omega
  | succ most ih =>
    unfold relayWithin
    cases hv : b.verdict src n with
    | stop => exact .inl ⟨0, Nat.zero_le _, _, _, _, rfl, .stopped hv⟩
    | yield => exact .inl ⟨0, Nat.zero_le _, _, _, _, rfl, .yielded hv⟩
    | go =>
      have hh := canRelay_of_verdict hv
      rcases transfer_eq_ok h hb hp hh with ⟨⟨r, b₁, w₁⟩, ht⟩ | ⟨hlarge, hfits⟩
      · simp only [ht, Checked.ok_bind]
        cases r with
        | error e => exact .inl ⟨1, by omega, _, _, _, rfl, .failed hv ht⟩
        | ok k =>
          obtain ⟨hp₁, hb₁⟩ := proper_transferred h hb hp hh (transferred ht)
          have hless (hh₁ : CanRelay src b₁) : Pipe.backlog (b₁.side src).pipe w₁ ≤ most := by
            have hfewer :=
              backlog_transferred h hN hb (hp src).receives hh (transferred ht) hh₁.1
            have hbefore := hmost hh
            omega
          rcases ih (n + k) (hb₁ rfl) hp₁ hless with
            ⟨receives, hle, result, b', w', hrun, hlooped⟩ | hstopped
          · exact .inl ⟨receives + 1, by omega, result, b', w', hrun, .more hv ht hlooped⟩
          · exact .inr hstopped
      · simp only [hlarge]
        exact .inr ⟨rfl, hfits⟩

/-- Relaying that comes to a result is its loop, for which there are receives enough. -/
theorem relay_looped (hN : Sockets.AsAnnounced N) (hb : b.Fit o own w.reactor) (hp : b.Proper size)
    {result : PipeResult Unit} (hr : b.relay src w = .ok (result, b', w')) :
    ∃ receives ≤ Pipe.backlog (b.side src).pipe w, Looped src receives 0 b w result b' w' := by
  rcases relayWithin_looped h hN 0 hb hp fun _ => Nat.le_refl (Pipe.backlog (b.side src).pipe w)
    with ⟨receives, hle, _, _, _, hrun, hlooped⟩ | ⟨hstopped, _⟩
  · cases hr.symm.trans hrun
    exact ⟨receives, hle, hlooped⟩
  · cases hr.symm.trans hstopped

theorem fit_of_noted {report : PipeEvents} {stints : List (Stint (Logged P) (Host N C))}
    {result : PipeResult Unit}
    (ht : report.broken = false → HandlingReport o own size s report b w.reactor)
    (hh : HandledNoted s report b w stints result b' w') :
    ∀ x ∈ stints, x.before.relay x.src x.world = .ok (x.result, x.after, x.outcome) ∧
      x.before.Fit o own x.world.reactor ∧ x.before.Proper size := by
  have hfirst {stints : List (Stint (Logged P) (Host N C))} {result : PipeResult Unit}
      {b' : Bridge (Logged P)} {w' : Host N C} (hb : report.broken = false)
      (hw : WriteNoted s report b w stints result b' w') :
      ∀ x ∈ stints, x.before.relay x.src x.world = .ok (x.result, x.after, x.outcome) ∧
        x.before.Fit o own x.world.reactor ∧ x.before.Proper size := by
    intro x hx
    cases hw with
    | skipped | failed | full => exact absurd hx List.not_mem_nil
    | relayed hw hf _ hr =>
      obtain rfl := List.mem_singleton.mp hx
      have ht := ht hb
      obtain ⟨hp₁, hb₁⟩ :=
        proper_flushed h ht.fit ht.peer ht.orderly (ht.writable hw) (flushed hf)
      exact ⟨hr, hb₁ rfl, hp₁⟩
  cases hh with
  | broken => exact fun x hx => absurd hx List.not_mem_nil
  | failed hb hw => exact hfirst hb hw
  | done hb hw hr =>
    intro x hx
    rcases List.mem_append.mp hx with hx | hx
    · exact hfirst hb hw x hx
    · cases hr with
      | skipped => exact absurd hx List.not_mem_nil
      | relayed hr =>
        obtain rfl := List.mem_singleton.mp hx
        obtain ⟨hp₁, hb₁⟩ := proper_writePhase h (ht hb) hw.phase
        exact ⟨hr, hb₁ rfl, hp₁⟩

theorem looped_of_acted (hN : Sockets.AsAnnounced N) {events : SocketEvents} {ending : Option Bool}
    {stints : List (Stint (Logged P) (Host N C))} (hb : b.dead = false → b.Fit o own w.reactor)
    (hp : b.Proper size) (ha : b.onActivityNoting s events w = .ok (stints, ending, b', w')) :
    ∀ x ∈ stints, x.before.Fit o own x.world.reactor ∧
      ∃ receives ≤ Pipe.backlog (x.before.side x.src).pipe x.world,
        Looped x.src receives 0 x.before x.world x.result x.after x.outcome := by
  cases hd : b.dead with
  | true =>
    rw [onActivityNoting, if_pos hd] at ha
    cases ha
    exact fun x hx => absurd hx List.not_mem_nil
  | false =>
    intro x hx
    have hnoted {report : PipeEvents} {pipe : Logged P} {b' : Bridge (Logged P)}
        {w₁ w' : Host N C} {result : PipeResult Unit}
        (hr : Pipe.react events (b.side s).pipe w = .ok (report, pipe, w₁))
        (hh : HandledNoted s report (b.setSide s { b.side s with pipe }) w₁ stints result b' w') :=
      fit_of_noted h (handlingReport_noticed h (hb hd) hp hr).2 hh x hx
    cases actedNoted hd ha with
    | failed hr hh | closed hr hh | lives hr hh =>
      obtain ⟨hrelay, hfit, hproper⟩ := hnoted hr hh
      exact ⟨hfit, relay_looped h hN hfit hproper hrelay⟩

end Measure

end Bridge

open Relay (Link)

/-- Relaying that ended by itself, after no more receives than two for each byte that could be read
from its source, one for each that was held back, and four. -/
def Stint.EndsInTime {N C : Type} [Sockets N] (x : Stint Link (Host N C)) : Prop :=
  ∃ receives ≤ (x.before.side x.src).pipe.buffered +
      2 * (Sockets.queued (x.before.side x.src).pipe.base.fd x.world.net + 2),
    Bridge.Looped x.src receives 0 x.before x.world x.result x.after x.outcome

namespace Bridge

section Links

variable {N C : Type} [Sockets N]

theorem ends_of_looped {own : Fd → Prop} {x : Stint (Logged Link) (Host N C)}
    (hfit : x.before.Fit (Stack.linkOutlook.erased Logged.pipe) own x.world.reactor)
    (hlooped : ∃ receives ≤ Pipe.backlog (x.before.side x.src).pipe x.world,
      Looped x.src receives 0 x.before x.world x.result x.after x.outcome) :
    (x.map Logged.pipe).EndsInTime := by
  have herases : Pipe.Erases (Host N C) (Logged.pipe : Logged Link → Link) := Logged.erases
  obtain ⟨receives, hle, hlooped⟩ := hlooped
  have hshaped : (x.before.side x.src).pipe.pipe.LinkShaped := (hfit x.src).regular.1
  refine ⟨receives, ?_, hlooped.mapPipes herases⟩
  rw [← herases.backlog] at hle
  change receives ≤ ((x.before.mapPipes Logged.pipe).side x.src).pipe.buffered +
    2 * (Sockets.queued ((x.before.mapPipes Logged.pipe).side x.src).pipe.base.fd x.world.net + 2)
  rw [side_mapPipes]
  exact Nat.le_trans hle (Stack.backlog_le hshaped x.world)

/-- Where no more arrives meanwhile, each relaying of a bridge ends by itself, in whatever state of
the connections it begins, with whatever is to be read from them, and whatever follows behind that.
It may be stopped only because there can be no buffer for what is received at once. -/
theorem relaying_ends [LawfulSockets N] {left right : Link} {config : BridgeConfig}
    {callback : Side → C}
    {activities : List (Activity (Host N C))} {b b₁ : Bridge Link} {w w₁ : Host N C}
    {result : Except Failure Unit} (hN : Sockets.AsAnnounced N) (hl : IsNew left) (hr : IsNew right)
    (hb : between left right config = .ok (.ok b)) (hw : w.reactor.registrations.WellFormed)
    (ha : b.attach callback w = .ok (result, b₁, w₁))
    (hm : ∀ a ∈ activities, a.Spares (sockets left right)) :
    (course activities b₁ w₁ = .error .capacityExceeded ∧
      ¬Datagram.Holdable config.bufferSize) ∨
    ∃ episodes, course activities b₁ w₁ = .ok episodes ∧
      List.Forall₂ (fun a e => ∃ stints : List (Stint Link (Host N C)),
        e.before.onActivityNoting a.side a.events e.world =
          .ok (stints, e.ending, e.after, e.outcome) ∧ ∀ x ∈ stints, x.EndsInTime)
        activities episodes := by
  have herases : Pipe.Erases (Host N C) (Logged.pipe : Logged Link → Link) := Logged.erases
  have hlinks := (Stack.link_dependable (N := N) (C := C)).erased herases
  obtain ⟨r, rfl, hproper, hfit⟩ := logged_of_attached hl hr hb hw ha
  rw [course_mapPipes herases]
  cases hrun : course activities r w₁ with
  | error v =>
    rcases course_error hlinks hm hproper (fun _ => hfit) hrun with ⟨_, hmore⟩ | ⟨rfl, hlarge⟩
    · exact absurd hN hmore
    · exact .inl ⟨rfl, hlarge⟩
  | ok logged =>
    refine .inr ⟨logged.map (Episode.map Logged.pipe), rfl, ?_⟩
    rw [List.forall₂_map_right_iff]
    have hall := forall_course
      (I := fun b w => b.Proper config.bufferSize ∧ (b.dead = false →
        b.Fit (Stack.linkOutlook.erased Logged.pipe) (sockets left right) w.reactor))
      (fun h hact => proper_acted hlinks h.1 h.2 (acted hact))
      (fun a hmem b w h => ⟨h.1, fun hd => (h.2 hd).meanwhile (hm a hmem)⟩)
      ⟨hproper, fun _ => hfit⟩ hrun
    refine hall.imp fun a e ⟨⟨hp, hf⟩, hact⟩ => ?_
    obtain ⟨stints, hnoting⟩ := exists_noting hact
    refine ⟨stints.map (Stint.map Logged.pipe), ?_, ?_⟩
    · change (e.before.mapPipes Logged.pipe).onActivityNoting a.side a.events e.world = _
      rw [onActivityNoting_mapPipes herases, hnoting]
      rfl
    · intro x hx
      obtain ⟨y, hy, rfl⟩ := List.mem_map.mp hx
      obtain ⟨hstart, hlooped⟩ := looped_of_acted hlinks hN hf hp hnoting y hy
      exact ends_of_looped hstart hlooped

end Links

/-- A new bridge from a connection that frames datagrams of up to 16 bytes. -/
def unframingBridge : Bridge Link where
  left := { pipe := framedSource 16, recvSize := 16 }
  right := { pipe := .bare (.connected 4), recvSize := 16 }
  budget := 16

/-- Two empty datagrams arrive, and the beginning of a third one. -/
def emptyDatagrams : List (Activity (Host SocketPairs Side)) :=
  [ { side := .right, events := { writable := true }, meanwhile := id },
    { side := .left, events := { readable := true },
      meanwhile := fun w => { w with net := w.net.update 3 (·.farWrite [0, 0, 3, 1]) } } ]

/-- The life of the bridge meanwhile. -/
def emptyDatagramsCourse : Checked (List (Episode Link (Host SocketPairs Side))) := do
  let (_, b, w) ← unframingBridge.attach id pairedHost
  course emptyDatagrams b w

/-- What could be read from the framed side before an episode and after it, and what was relayed
from there until then. -/
def leftToRead {P : Type} (e : Episode P (Host SocketPairs Side)) : Nat × Nat × Nat :=
  (Sockets.queued 3 e.world.net, Sockets.queued 3 e.outcome.net,
    (e.after.side .left).traffic.received)

theorem emptyDatagramsCourse_figures :
    emptyDatagramsCourse.toOption.map (List.map leftToRead) = some [(0, 0, 0), (4, 0, 0)] := by
  decide +kernel

/-- Four bytes are taken off the socket, of which none counts for the budget. -/
theorem relaying_ends_unpaid :
    Sockets.AsAnnounced SocketPairs ∧ IsNew (framedSource 16) ∧ IsNew (.bare (.connected 4)) ∧
    between (framedSource 16) (.bare (.connected 4)) narrowConfig = .ok (.ok unframingBridge) ∧
    (∀ a ∈ emptyDatagrams, a.Spares (sockets (framedSource 16) (.bare (.connected 4)))) ∧
    ∃ episodes : List (Episode Link (Host SocketPairs Side)),
      emptyDatagramsCourse = .ok episodes ∧ episodes.map leftToRead = [(0, 0, 0), (4, 0, 0)] ∧
      List.Forall₂ (fun a e => ∃ stints : List (Stint Link (Host SocketPairs Side)),
        e.before.onActivityNoting a.side a.events e.world =
          .ok (stints, e.ending, e.after, e.outcome) ∧ ∀ x ∈ stints, x.EndsInTime)
        emptyDatagrams episodes := by
  have hl : IsNew (framedSource 16) := ⟨3, true, 16, .inr rfl⟩
  have hr : IsNew (.bare (.connected 4)) := ⟨4, false, 0, .inr rfl⟩
  have hnew : between (framedSource 16) (.bare (.connected 4)) narrowConfig =
      .ok (.ok unframingBridge) := rfl
  have hspares : ∀ a ∈ emptyDatagrams,
      a.Spares (sockets (framedSource 16) (.bare (.connected 4))) := by
    simp only [emptyDatagrams, List.forall_mem_cons]
    exact ⟨fun _ _ _ => id, fun _ _ _ => id, nofun⟩
  refine ⟨SocketPairs.asAnnounced, hl, hr, hnew, hspares, ?_⟩
  have hattached : ∃ x, unframingBridge.attach id pairedHost = .ok x := ⟨_, rfl⟩
  obtain ⟨⟨result, b, w⟩, ha⟩ := hattached
  have hempty : pairedHost.reactor.registrations.WellFormed := OrderedMap.wellFormed_empty
  rcases relaying_ends SocketPairs.asAnnounced hl hr hnew hempty ha hspares with
    ⟨_, hlarge⟩ | ⟨episodes, hrun, hends⟩
  · exact absurd (show Varint.maxLength + 16 ≤ ByteBuffer.maxCapacity by decide) hlarge
  · have hcourse : emptyDatagramsCourse = .ok episodes := by
      simp only [emptyDatagramsCourse, ha, Checked.ok_bind, hrun]
    have hfigures := emptyDatagramsCourse_figures
    simp only [hcourse, Except.toOption, Option.map_some, Option.some.injEq] at hfigures
    exact ⟨episodes, hcourse, hfigures, hends⟩

end Bridge

end DuplexRelay
