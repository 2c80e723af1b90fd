import DuplexRelay.Proofs.Bridge.Pacing

/-! Relaying stops for a reason. It goes on until its source runs dry or ends, or its destination
takes no more, or the budget of the activity is used up, and it never exceeds that by a whole
receive. An activity may relay both ways; the second time does not change what the first one
stopped for. -/

namespace DuplexRelay

open Relay (Link)

/-- Relaying within an activity from `first` to `last` that came to its end for a reason. If it
could go on after the activity, then the budget is used up. Otherwise its source ran dry or ended,
or its destination took no more. -/
structure Stint.Justified {P W : Type} [HasPipeState P] (config : BridgeConfig)
    (first last : Bridge P) (x : Stint P W) : Prop where
  spent : Bridge.CanRelay x.src last →
    first.received x.src + config.maxRelayPerEvent ≤ last.received x.src
  exhausted : ¬Bridge.CanRelay x.src last →
    (state (x.after.side x.src).pipe).isReadable = false ∨
      (state (x.after.side x.src.peer).pipe).isWritable = false

namespace Bridge

section Justified

variable {P W C : Type} [Pipe P W C] {config : BridgeConfig} {sound : P → Prop}
  {b b₁ b' : Bridge P} {w w' : W} {s src : Side} {report : PipeEvents}
  {stints : List (Stint P W)} {result : PipeResult Unit}
  (h : Pipe.TwoWay (C := C) W sound) (hpos : ∀ s, 0 < config.recvSize s)
include h hpos

theorem justified_relay (hb : b.Paced config sound) (hr : b.relay src w = .ok (result, b', w')) :
    b'.received src < b.received src + config.allowance src ∧
      b'.received src.peer = b.received src.peer ∧
      (result = .ok () → (∃ m, ReceivedFrom config sound src m b b') ∧
        Stint.Justified config b b' (⟨src, b, w, result, b', w'⟩ : Stint P W)) := by
  have hallowed := BridgeConfig.allowance_pos (hpos src)
  obtain ⟨hbound, hpeer, hmoved⟩ := receivedFrom_relayed h (relayed hr) hb hallowed
  refine ⟨hbound, hpeer, fun hok => ?_⟩
  obtain ⟨m, hmoved, hspent⟩ := hmoved hok
  have hcount := hmoved.received
  refine ⟨⟨m, hmoved⟩, fun hh => ?_, dry_or_full_of_not_canRelay⟩
  have hall := hspent hh
  dsimp only
  omega

theorem justified_written (hb : b.Paced config sound)
    (hreport : report.writable = true → (state (b.side s).pipe).isWritable = true)
    (hw : WriteNoted s report b w stints result b' w') :
    b'.received s = b.received s ∧
      b'.received s.peer < b.received s.peer + config.allowance s.peer ∧
      (result = .ok () → b'.Paced config sound ∧
        ∀ x ∈ stints, x.src = s.peer ∧ x.Justified config b b') := by
  have hallowed := BridgeConfig.allowance_pos (hpos s.peer)
  have hflush {answer : PipeResult Unit} {b₁ : Bridge P} {w₁ : W}
      (hf : b.flush s w = .ok (answer, b₁, w₁)) (d : Side) : b₁.received d = b.received d :=
    received_flushed (flushed hf) d
  cases hw with
  | skipped =>
    exact ⟨rfl, by omega, fun _ => ⟨hb, fun x hx => absurd hx List.not_mem_nil⟩⟩
  | failed hw hf =>
    have hpeer := hflush hf s.peer
    exact ⟨hflush hf s, by omega, nofun⟩
  | full hw hf =>
    have hpeer := hflush hf s.peer
    refine ⟨hflush hf s, by omega, fun _ => ⟨paced_flushed h hb (hreport hw) (flushed hf), ?_⟩⟩
    exact fun x hx => absurd hx List.not_mem_nil
  | relayed hw hf _ hr =>
    have hpaced := paced_flushed h hb (hreport hw) (flushed hf)
    have hpeer := hflush hf s.peer
    obtain ⟨hbound, hown, hjustified⟩ := justified_relay h hpos hpaced hr
    rw [Side.peer_peer] at hown
    refine ⟨hown.trans (hflush hf s), by omega, fun hok => ?_⟩
    obtain ⟨⟨m, hmoved⟩, hspent, hexhausted⟩ := hjustified hok
    refine ⟨hmoved.paced, fun x hx => ?_⟩
    obtain rfl := List.mem_singleton.mp hx
    refine ⟨rfl, fun hh => ?_, hexhausted⟩
    have hall := hspent hh
    dsimp only at hall ⊢
    omega

theorem justified_read (hb : b.Paced config sound)
    (hr : ReadNoted s report b w stints result b' w') :
    b'.received s < b.received s + config.allowance s ∧
      b'.received s.peer = b.received s.peer ∧
      (result = .ok () → (∃ m, ReceivedFrom config sound s m b b') ∧
        ∀ x ∈ stints, x.src = s ∧ x.Justified config b b') := by
  cases hr with
  | skipped =>
    have hallowed := BridgeConfig.allowance_pos (hpos s)
    refine ⟨by omega, rfl, fun _ => ⟨⟨0, .refl hb s⟩, fun x hx => absurd hx List.not_mem_nil⟩⟩
  | relayed hr =>
    obtain ⟨hbound, hpeer, hjustified⟩ := justified_relay h hpos hb hr
    refine ⟨hbound, hpeer, fun hok => ?_⟩
    obtain ⟨hmoved, hreason⟩ := hjustified hok
    refine ⟨hmoved, fun x hx => ?_⟩
    obtain rfl := List.mem_singleton.mp hx
    exact ⟨rfl, hreason⟩

/-- The relaying of both halves. What the first one stopped for is not changed by the second one,
which relays the other way. -/
theorem justified_handled (hb : report.broken = false → b.Paced config sound ∧
      (report.writable = true → (state (b.side s).pipe).isWritable = true))
    (hh : HandledNoted s report b w stints result b' w') :
    (∀ d, b'.received d < b.received d + config.allowance d) ∧
      (result = .ok () → b'.Paced config sound ∧ ∀ x ∈ stints, x.Justified config b b') := by
  cases hh with
  | broken =>
    exact ⟨fun d => Nat.lt_add_of_pos_right (BridgeConfig.allowance_pos (hpos d)), nofun⟩
  | failed hbroken hw =>
    obtain ⟨hpaced, hreport⟩ := hb hbroken
    obtain ⟨hown, hpeer, _⟩ := justified_written h hpos hpaced hreport hw
    have hallowed := BridgeConfig.allowance_pos (hpos s)
    exact ⟨Side.forall_of s (by omega) hpeer, nofun⟩
  | @done first second _ b₁ _ w₁ _ hbroken hw hr =>
    obtain ⟨hpaced, hreport⟩ := hb hbroken
    obtain ⟨hown, hpeer, hwritten⟩ := justified_written h hpos hpaced hreport hw
    obtain ⟨hpaced₁, hfirst⟩ := hwritten rfl
    obtain ⟨hown', hpeer', hread⟩ := justified_read h hpos hpaced₁ hr
    refine ⟨Side.forall_of s (by omega) (by omega), fun hok => ?_⟩
    obtain ⟨⟨m, hmoved⟩, hsecond⟩ := hread hok
    refine ⟨hmoved.paced, fun x hx => ?_⟩
    rcases List.mem_append.mp hx with hx | hx
    · obtain ⟨hsrc, hspent, hexhausted⟩ := hfirst x hx
      rw [hsrc] at hspent
      have hstill := hmoved.canRelay_peer
      constructor
      · intro hh
        rw [hsrc] at hh ⊢
        have hall := hspent (hstill.mp hh)
        omega
      · intro hn
        apply hexhausted
        rw [hsrc] at hn ⊢
        exact fun hh => hn (hstill.mpr hh)
    · obtain ⟨hsrc, hspent, hexhausted⟩ := hsecond x hx
      refine ⟨fun hh => ?_, hexhausted⟩
      have hall := hspent hh
      rw [hsrc] at hall ⊢
      omega

theorem justified_acted {events : SocketEvents} {ending : Option Bool} (hd : b.dead = false)
    (hb : b.Paced config sound)
    (ha : b.onActivityNoting s events w = .ok (stints, ending, b', w')) :
    (∀ d, b'.received d < b.received d + config.allowance d) ∧
      (ending ≠ some false → ∀ x ∈ stints, x.Justified config b b') ∧
      (b'.dead = false → b'.Paced config sound) := by
  have hnoted {pipe : P} {report : PipeEvents} {result : PipeResult Unit} {b₁ : Bridge P} {w₁ : W}
      (hr : Pipe.react events (b.side s).pipe w = .ok (report, pipe, w₁))
      (hh : HandledNoted s report (b.setSide s { b.side s with pipe }) w₁ stints result b₁ w') :
      (∀ d, b₁.received d < b.received d + config.allowance d) ∧
        (result = .ok () → b₁.Paced config sound ∧ ∀ x ∈ stints, x.Justified config b b₁) := by
    have hsame (d : Side) : (b.setSide s { b.side s with pipe }).received d = b.received d := by
      rcases Side.eq_or_eq_peer s d with rfl | rfl
      · simp [received]
      · simp [received]
    obtain ⟨hbound, hreason⟩ := justified_handled h hpos (fun hbroken => by
      obtain ⟨hsound, hreport⟩ := h.react (hb.pipes s) hr hbroken
      exact ⟨hb.put rfl hsound, by rwa [side_setSide]⟩) hh
    refine ⟨fun d => hsame d ▸ hbound d, fun hok => ?_⟩
    obtain ⟨hpaced, hall⟩ := hreason hok
    refine ⟨hpaced, fun x hx => ⟨fun hh => ?_, (hall x hx).exhausted⟩⟩
    rw [← hsame x.src]
    exact (hall x hx).spent hh
  -- the figures of a bridge that ends are those it had before
  have hdie {b₁ : Bridge P} (d : Side) : b₁.die.side d = b₁.side d := by cases d <;> rfl
  have hcount {b₁ : Bridge P} (d : Side) : b₁.die.received d = b₁.received d :=
    congrArg (fun x => x.traffic.received) (hdie d)
  cases actedNoted hd ha with
  | failed hr hh =>
    refine ⟨fun d => ?_, fun hn => absurd rfl hn, fun hlive => absurd hlive Bool.noConfusion⟩
    rw [hcount d]
    exact (hnoted hr hh).1 d
  | closed hr hh =>
    obtain ⟨hbound, hreason⟩ := hnoted hr hh
    refine ⟨fun d => ?_, fun _ x hx => ?_, fun hlive => absurd hlive Bool.noConfusion⟩
    · rw [hcount d]
      exact hbound d
    · obtain ⟨hspent, hexhausted⟩ := (hreason rfl).2 x hx
      constructor
      · unfold CanRelay
        rw [hdie, hdie, hcount]
        exact hspent
      · unfold CanRelay
        rw [hdie, hdie]
        exact hexhausted
  | lives hr hh =>
    obtain ⟨hbound, hreason⟩ := hnoted hr hh
    exact ⟨hbound, fun _ => (hreason rfl).2, fun _ => (hreason rfl).1⟩

end Justified

section Links

variable {N C : Type} [Sockets N] [LawfulSockets N]

theorem paced_of_attached {left right : Link} {config : BridgeConfig} {callback : Side → C}
    {b b' : Bridge Link} {w w' : Host N C} {result : Except Failure Unit} (hl : IsNew left)
    (hr : IsNew right) (hb : between left right config = .ok (.ok b))
    (ha : b.attach callback w = .ok (result, b', w')) :
    b'.Paced config fun s : Link => Stack.linkOutlook.regular s := by
  have hlinks := Stack.link_dependable (N := N) (C := C)
  have hstart : b.started.Paced config fun s : Link => Stack.linkOutlook.regular s := by
    rw [between_eq_ok hb]
    exact ⟨rfl, Side.forall_of .left rfl rfl,
      Side.forall_of .left hl.unattached.1 hr.unattached.1⟩
  cases attached ha with
  | refused _ hl => exact hstart.put rfl (hlinks.attached (hstart.pipes .left) hl).1
  | done _ hl hr =>
    exact hstart.put_other (s := .left) rfl rfl (hlinks.attached (hstart.pipes .left) hl).1
      (hlinks.attached (hstart.pipes .right) hr).1

/-- Whatever the sockets do, and whenever a bridge is told of readiness, one activity receives less
of a side than the budget and one receive. Unless it fails, each relaying in it went on until its
source ran dry or ended, or its destination took no more, or the budget was used up; and if after
the activity something could still be relayed that way, it was the budget. -/
theorem relaying_justified {left right : Link} {config : BridgeConfig} {callback : Side → C}
    {activities : List (Activity (Host N C))} {b b₁ : Bridge Link} {w w₁ : Host N C}
    {result : Except Failure Unit} {episodes : List (Episode Link (Host N C))} (hl : IsNew left)
    (hr : IsNew right) (hb : between left right config = .ok (.ok b))
    (ha : b.attach callback w = .ok (result, b₁, w₁))
    (hc : course activities b₁ w₁ = .ok episodes) :
    List.Forall₂ (fun a e => e.before.dead = false →
      (∀ src, e.after.received src <
        e.before.received src + (config.maxRelayPerEvent + config.recvSize src)) ∧
      ∃ stints : List (Stint Link (Host N C)),
        e.before.onActivityNoting a.side a.events e.world =
          .ok (stints, e.ending, e.after, e.outcome) ∧
        (e.ending ≠ some false → ∀ x ∈ stints, x.Justified config e.before e.after))
      activities episodes := by
  have htwo := Stack.twoWay (N := N) (C := C)
  have hpos (s : Side) : 0 < config.recvSize s := by
    have hsize := (recvSize_of_between hb s).1
    rw [between_eq_ok hb] at hsize
    cases s <;> exact hsize
  have hall := forall_course (C := C)
    (I := fun b _ => b.dead = false → b.Paced config fun s : Link => Stack.linkOutlook.regular s)
    (fun hI hact hd => by
      obtain ⟨stints, hnoting⟩ := exists_noting hact
      have halive := (acted hact).alive hd
      exact (justified_acted htwo hpos halive (hI halive) hnoting).2.2 hd)
    (fun _ _ _ _ hI => hI) (fun _ => paced_of_attached hl hr hb ha) hc
  refine hall.imp fun a e ⟨hI, hact⟩ hd => ?_
  obtain ⟨stints, hnoting⟩ := exists_noting hact
  obtain ⟨hbound, hreason, _⟩ := justified_acted htwo hpos hd (hI hd) hnoting
  exact ⟨hbound, stints, hnoting, hreason⟩

end Links

def briefConfig : BridgeConfig where
  leftRecvSize := 3
  rightRecvSize := 3
  maxRelayPerEvent := 5

def briefBridge : Bridge Link where
  left := { pipe := .bare (.connected 3), recvSize := 3 }
  right := { pipe := .bare (.connected 4), recvSize := 3 }
  budget := 5

/-- Ten bytes arrive, and the bridge is told of them twice. -/
def briefActivities : List (Activity (Host SocketPairs Side)) :=
  [ { side := .right, events := { writable := true }, meanwhile := id },
    { side := .left, events := { readable := true },
      meanwhile := fun w => { w with net := w.net.update 3 (·.farWrite (List.replicate 10 7)) } },
    { side := .left, events := { readable := true }, meanwhile := id } ]

def briefCourse : Checked (List (Episode Link (Host SocketPairs Side))) := do
  let (_, b, w) ← briefBridge.attach id pairedHost
  course briefActivities b w

/-- What was received until then, and whether there is something to be relayed. -/
def leftProgress {W : Type} (e : Episode Link W) : Nat × Bool :=
  (e.after.received .left, (state (e.after.side .left).pipe).isReadable &&
    (state (e.after.side .right).pipe).isWritable)

theorem briefCourse_figures :
    briefCourse.toOption.map (List.map leftProgress) =
      some [(0, false), (6, true), (10, false)] := by
  decide +kernel

/-- The budget stops the relaying of the second activity, and the source that of the third. -/
theorem relaying_justified_brief :
    IsNew (.bare (.connected 3)) ∧ IsNew (.bare (.connected 4)) ∧
    between (.bare (.connected 3)) (.bare (.connected 4)) briefConfig = .ok (.ok briefBridge) ∧
    ∃ episodes : List (Episode Link (Host SocketPairs Side)),
      briefCourse = .ok episodes ∧
      episodes.map leftProgress = [(0, false), (6, true), (10, false)] ∧
      List.Forall₂ (fun a e => e.before.dead = false →
        (∀ src, e.after.received src < e.before.received src +
          (briefConfig.maxRelayPerEvent + briefConfig.recvSize src)) ∧
        ∃ stints : List (Stint Link (Host SocketPairs Side)),
          e.before.onActivityNoting a.side a.events e.world =
            .ok (stints, e.ending, e.after, e.outcome) ∧
          (e.ending ≠ some false → ∀ x ∈ stints, x.Justified briefConfig e.before e.after))
        briefActivities episodes := by
  have hl : IsNew (.bare (.connected 3)) := ⟨3, false, 0, .inr rfl⟩
  have hr : IsNew (.bare (.connected 4)) := ⟨4, false, 0, .inr rfl⟩
  have hnew : between (.bare (.connected 3)) (.bare (.connected 4)) briefConfig =
      .ok (.ok briefBridge) := rfl
  refine ⟨hl, hr, hnew, ?_⟩
  have hfigures := briefCourse_figures
  cases hrun : briefCourse with
  | error v => simp [hrun, Except.toOption] at hfigures
  | ok episodes =>
    simp only [hrun, Except.toOption, Option.map_some, Option.some.injEq] at hfigures
    simp only [briefCourse, Checked.bind_eq_ok_iff] at hrun
    obtain ⟨⟨result, b, w⟩, ha, hc⟩ := hrun
    exact ⟨episodes, rfl, hfigures, relaying_justified hl hr hnew ha hc⟩

end Bridge

end DuplexRelay
