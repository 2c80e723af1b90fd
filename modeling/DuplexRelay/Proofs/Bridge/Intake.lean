import DuplexRelay.Proofs.Bridge.FinOrder
import DuplexRelay.Proofs.Bridge.Metered
import DuplexRelay.Proofs.Pipe.Intake

/-! What one activity takes off a transport. The budget counts the bytes of datagrams, so it bounds
the frames that carry any, and with them what is read of the socket. An empty datagram counts
nothing, however many of them there are. -/

namespace DuplexRelay

open Outlook (LeavesUsable)
open Relay (Link)

/-- What an activity takes off the transport of a side at most, but for empty datagrams. -/
def BridgeConfig.intakeBound (c : BridgeConfig) (s : Side) : Nat :=
  4 * c.allowance s + (Varint.maxLength + c.recvSize s)

namespace Audited

/-- The datagrams that were taken out of the reassembly buffer. A pipe without framing has none. -/
def datagrams (a : Audited) : List Bytes := if a.pipe.layers = [] then [] else a.received

/-- The number of bytes that were taken off the transport: those that were read of the socket, and
those of the frames that were taken out of the reassembly buffer. -/
def intake (a : Audited) : Nat := a.pipe.bytesRead + (a.datagrams.flatMap Datagram.wire).length

/-- The number of empty datagrams that were taken out of the reassembly buffer. -/
def empties (a : Audited) : Nat := a.datagrams.count []

/-- The number of bytes at the bottom that were returned by receives. -/
def returned (a : Audited) : Nat := (a.received.flatMap a.pipe.code).length

/-- A connection after some calls. -/
structure After (a₀ a : Audited) : Prop where
  layers : a.pipe.layers = a₀.pipe.layers
  received : a₀.received <+: a.received

/-- A connection in use. -/
structure Flowing (a₀ : Audited) (room : Nat) (a : Audited) : Prop extends After a₀ a where
  roomy : a.pipe.Roomy room
  balanced : Stack.ledger.Balanced a

/-- What was read ahead fits into one buffer. -/
structure ReadAheadBounded (a₀ : Audited) (room : Nat) (a : Audited) : Prop extends After a₀ a where
  ahead : a.pipe.bytesRead ≤ a.returned + (Varint.maxLength + room)

variable {N C : Type} [Sockets N] {a₀ a : Audited} {room : Nat} {w w' : Host N C}

theorem bytesRead_eq (h : Stack.ledger.Balanced a) :
    a.pipe.bytesRead = a.returned + a.pipe.rest.length := by
  have hread := congrArg List.length h.read
  rwa [List.length_append] at hread

theorem Flowing.readAheadBounded (h : Flowing a₀ room a) : ReadAheadBounded a₀ room a := by
  refine ⟨h.toAfter, ?_⟩
  have hread := bytesRead_eq h.balanced
  have hrest := h.roomy.rest_le
  omega

theorem After.returned_le {a' : Audited} (h : After a a') : a.returned ≤ a'.returned := by
  obtain ⟨more, hmore⟩ := h.received
  unfold returned Stack.code
  rw [h.layers, ← hmore, List.flatMap_append, List.length_append]
  exact Nat.le_add_right _ _

theorem Flowing.unread (h : Flowing a₀ room a) (a' : Audited)
    (hu : Stack.Unread room a.pipe a'.pipe) (hr : a'.received = a.received) :
    ReadAheadBounded a₀ room a' ∧ (Stack.ledger.Balanced a' → Flowing a₀ room a') := by
  have hafter : After a₀ a' := ⟨hu.layers.trans h.layers, hr ▸ h.received⟩
  refine ⟨⟨hafter, ?_⟩, fun hb => ⟨hafter, hu.roomy, hb⟩⟩
  have hmore : After a a' := ⟨hu.layers, hr ▸ List.prefix_rfl⟩
  have hle := hmore.returned_le
  have hahead := h.readAheadBounded.ahead
  rw [hu.read]
  omega

theorem metered [LawfulSockets N] (a₀ : Audited) (room most : Nat) :
    Pipe.Metered (Host N C) room most (Flowing a₀ room) (ReadAheadBounded a₀ room) := by
  have hledger : Pipe.Upholds (Host N C) (Stack.ledger (P := Tcp)).Balanced :=
    Ledger.upholds Stack.ledger_lawful
  constructor
  · exact fun h => h.readAheadBounded
  · intro a a' w w' result h hr
    obtain ⟨s, hrecv, rfl⟩ := Recorded.recv_eq_ok hr
    obtain ⟨hroomy, hlayers, hread, hwithin⟩ := h.roomy.recv hrecv
    have hmore : After a (a.noteRecv result s) := by
      refine ⟨?_, ?_⟩
      · rw [Recorded.noteRecv_pipe, hlayers]
      · rw [Ledger.noteRecv_received]
        exact List.prefix_append _ _
    have hafter : After a₀ (a.noteRecv result s) :=
      ⟨hmore.layers.trans h.layers, h.received.trans hmore.received⟩
    refine ⟨⟨hafter, ?_⟩, fun hm => ⟨hafter, ?_, hledger.recv h.balanced hr hm⟩, hwithin⟩
    · have hle := hmore.returned_le
      have hbefore := bytesRead_eq h.balanced
      rw [Recorded.noteRecv_pipe]
      omega
    · rwa [Recorded.noteRecv_pipe]
  · intro data a a' w w' result h _ hs
    obtain ⟨s, hsend, rfl⟩ := Recorded.send_eq_ok hs
    have hunread := h.roomy.send hsend
    rw [← Recorded.noteSend_pipe a data result s] at hunread
    obtain ⟨hdrawn, hflowing⟩ := h.unread _ hunread (Ledger.noteSend_received a data result s)
    exact ⟨hdrawn, fun hm => hflowing (hledger.send h.balanced hs hm)⟩
  · intro a a' w w' result h hc
    obtain ⟨s, hclose, rfl⟩ := Recorded.sendFin_eq_ok hc
    obtain ⟨hdrawn, hflowing⟩ := h.unread { a with pipe := s } (h.roomy.sendFin hclose) rfl
    refine ⟨hdrawn, fun hok => ?_⟩
    cases result with
    | error e => cases hok
    | ok status => exact hflowing (hledger.sendFin h.balanced hc)
  · intro events a a' w w' report h hr
    obtain ⟨s, hreact, rfl⟩ := Recorded.react_eq_ok hr
    obtain ⟨hdrawn, hflowing⟩ := h.unread { a with pipe := s } (h.roomy.react hreact) rfl
    exact ⟨hdrawn, fun hb => hflowing (hledger.react h.balanced hr hb)⟩

theorem ReadAheadBounded.intake_le {count : Nat} (h : ReadAheadBounded a₀ room a)
    (hlink : a₀.pipe.IsLink) (hb : a₀.returned ≤ a₀.pipe.bytesRead)
    (hcount : a.received.flatten.length ≤ a₀.received.flatten.length + count) :
    a.intake ≤ a₀.intake + (4 * count + (Varint.maxLength + room)) +
      2 * (a.empties - a₀.empties) := by
  obtain ⟨more, hmore⟩ := h.received
  have hahead := h.ahead
  have hlayers := h.layers
  unfold returned Stack.code at hb hahead
  unfold intake empties datagrams
  rw [hlayers] at hahead ⊢
  rw [← hmore] at hahead hcount ⊢
  rw [List.flatten_append, List.length_append] at hcount
  rw [List.flatMap_append, List.length_append] at hahead
  rcases hlink with hbare | hframed
  · rw [hbare] at hahead hb ⊢
    have hid (chunks : List Bytes) : chunks.flatMap (Stacked.code []) = chunks.flatten :=
      List.flatMap_id
    rw [hid] at hb
    rw [hid, hid] at hahead
    simp only [if_true, List.flatMap_nil, List.length_nil, List.count_nil]
    omega
  · rw [hframed] at hahead hb ⊢
    have hwires := Datagram.length_wires_le more
    rw [if_neg (by simp), if_neg (by simp), List.flatMap_append, List.length_append,
      List.count_append]
    change (a₀.received.flatMap Datagram.wire).length ≤ _ at hb
    change _ ≤ (a₀.received.flatMap Datagram.wire).length + (more.flatMap Datagram.wire).length + _
      at hahead
    omega

end Audited

namespace Bridge

variable {N C : Type} [Sockets N]

/-- What is known of a bridge between audited connections at any time. -/
structure Audit (config : BridgeConfig) (b : Bridge Audited) : Prop where
  exact : Exact b
  flowing : b.dead = false →
    b.Configured config fun s a => a.pipe.Roomy (config.recvSize s) ∧ Stack.ledger.Balanced a

theorem Audit.acted [LawfulSockets N] {config : BridgeConfig} {b b' : Bridge Audited}
    {w w' : Host N C} {s : Side} {events : SocketEvents} {ending : Option Bool}
    (hb : b.Audit config) (ha : b.onActivity s events w = .ok (ending, b', w')) :
    b'.Audit config ∧ ∀ src, (b'.side src).pipe.intake ≤
      (b.side src).pipe.intake + config.intakeBound src +
        2 * ((b'.side src).pipe.empties - (b.side src).pipe.empties) := by
  obtain ⟨states, hpath⟩ := reaches_of_onActivity ha
  have hexact := exact_of_path Audited.sendsWithin hpath hb.exact
  cases hd : b.dead with
  | true =>
    rw [onActivity_dead hd] at ha
    cases ha
    exact ⟨hb, fun src => by omega⟩
  | false =>
    have hflowing := hb.flowing hd
    -- the records of the activity are those behind the ones there are
    have hstart : b.Configured config fun s =>
        Audited.Flowing (b.side s).pipe (config.recvSize s) :=
      ⟨hflowing.budget, hflowing.size, fun s =>
        ⟨⟨rfl, List.prefix_rfl⟩, (hflowing.pipes s).1, (hflowing.pipes s).2⟩, hflowing.queued⟩
    obtain ⟨hleft, hkept, hcount⟩ :=
      metered_acted (fun s => Audited.metered (b.side s).pipe (config.recvSize s) _) hd hstart
        (Bridge.acted ha)
    refine ⟨⟨hexact, fun hd' => (hkept hd').mono fun hk => ⟨hk.roomy, hk.balanced⟩⟩, ?_⟩
    intro src
    obtain ⟨hroomy, hbalanced⟩ := hflowing.pipes src
    have hread := Audited.bytesRead_eq hbalanced
    refine (hleft.pipes src).intake_le hroomy.isLink (by omega) ?_
    rw [← (hexact.counted src).1, ← (hb.exact.counted src).1]
    exact hcount src

theorem intake_of_course [LawfulSockets N] {config : BridgeConfig} {b : Bridge Audited}
    {w : Host N C} {activities : List (Activity (Host N C))}
    {all : List (Episode Audited (Host N C))} (hb : b.Audit config)
    (hc : course activities b w = .ok all) :
    ∀ e ∈ all, ∀ src, (e.after.side src).pipe.intake ≤
      (e.before.side src).pipe.intake + config.intakeBound src +
        2 * ((e.after.side src).pipe.empties - (e.before.side src).pipe.empties) := by
  induction activities generalizing b w all with
  | nil =>
    cases hc
    exact fun e he => absurd he List.not_mem_nil
  | cons a rest ih =>
    unfold course at hc
    simp only [Checked.bind_eq_ok_iff] at hc
    obtain ⟨⟨ending, b', w'⟩, hact, later, hlater, heq⟩ := hc
    cases heq
    obtain ⟨hb', hbound⟩ := hb.acted hact
    intro e he
    rcases List.mem_cons.mp he with rfl | he
    · exact hbound
    · exact ih hb' hlater e he

theorem IsNew.roomy {p : Link} (h : IsNew p) (room : Nat) : (Audited.fresh p).pipe.Roomy room := by
  obtain ⟨tcp, _, rfl | ⟨maxSize, rfl⟩⟩ := h.shape
  · exact .bare _
  · exact .framed (Datagram.roomy_of_none rfl)

theorem audit_of_attached {left right : Link} {config : BridgeConfig} {callback : Side → C}
    {r r' : Bridge Audited} {w w' : Host N C} {result : Except Failure Unit} (hl : IsNew left)
    (hr : IsNew right)
    (hnew : between (Audited.fresh left) (Audited.fresh right) config = .ok (.ok r))
    (ha : r.attach callback w = .ok (result, r', w')) : r'.Audit config := by
  have hattached := attached ha
  have heq := between_eq_ok hnew
  have halive : r.dead = false := by rw [heq]
  refine ⟨exact_of_attached hattached halive (exact_of_between hnew), fun _ => ?_⟩
  have hstart : r.Configured config
      fun s a => a.pipe.Roomy (config.recvSize s) ∧ Stack.ledger.Balanced a := by
    rw [heq]
    refine ⟨rfl, Side.forall_of .left rfl rfl, Side.forall_of .left ?_ ?_,
      Side.forall_of .left (config.admits_none _) (config.admits_none _)⟩
    · exact ⟨hl.roomy _, hl.balanced⟩
    · exact ⟨hr.roomy _, hr.balanced⟩
  refine hstart.attached ?_ hattached
  intro s callback a a' w w' result ⟨hroomy, hbalanced⟩ h
  obtain ⟨s', hattach, rfl⟩ := Recorded.attach_eq_ok h
  exact ⟨hroomy.attach hattach, hbalanced.attach Stack.ledger_lawful h⟩

/-- Whatever the sockets yield, and whenever a bridge over them is told of readiness, one activity
takes no more off the transport of a side than follows from the settings, and two bytes for each
empty datagram: the one that it is on the stream, read and taken out of the reassembly buffer. From
a side without framing there are none of these. The records are those of a run over audited
connections, which is the same run. -/
theorem intake_bounded [LawfulSockets N] {left right : Link} {config : BridgeConfig}
    {callback : Side → C} {activities : List (Activity (Host N C))} {b b₁ : Bridge Link}
    {w w₁ : Host N C} {result : Except Failure Unit} {episodes : List (Episode Link (Host N C))}
    (hl : IsNew left) (hr : IsNew right) (hb : between left right config = .ok (.ok b))
    (ha : b.attach callback w = .ok (result, b₁, w₁))
    (hc : course activities b₁ w₁ = .ok episodes) :
    ∃ (r r₁ : Bridge Audited) (audited : List (Episode Audited (Host N C))),
      between (Audited.fresh left) (Audited.fresh right) config = .ok (.ok r) ∧
      r.attach callback w = .ok (result, r₁, w₁) ∧ course activities r₁ w₁ = .ok audited ∧
      audited.map (Episode.map Audited.link) = episodes ∧
      ∀ e ∈ audited, ∀ src : Side, (e.after.side src).pipe.intake ≤
        (e.before.side src).pipe.intake + config.intakeBound src +
          2 * ((e.after.side src).pipe.empties - (e.before.side src).pipe.empties) := by
  have herases := Audited.erases (N := N) (C := C)
  obtain ⟨r, hnew, rfl⟩ := between_mapPipes Audited.link (.fresh left) (.fresh right)
    (by rwa [Audited.link_fresh, Audited.link_fresh])
  rw [attach_mapPipes herases] at ha
  obtain ⟨⟨_, r₁, _⟩, hattach, heq⟩ := Checked.map_eq_ok_iff.mp ha
  simp only [Prod.mk.injEq] at heq
  obtain ⟨rfl, rfl, rfl⟩ := heq
  rw [course_mapPipes herases] at hc
  obtain ⟨audited, haudited, rfl⟩ := Checked.map_eq_ok_iff.mp hc
  refine ⟨r, r₁, audited, hnew, hattach, haudited, rfl, ?_⟩
  exact intake_of_course (audit_of_attached hl hr hnew hattach) haudited

def framedSource (maxSize : Nat) : Link :=
  ⟨[.datagram], ({ inner := { inner := .connected 3 }, maxSize } : Datagram Tcp)⟩

def deframingBridge (config : BridgeConfig) (maxSize : Nat) : Bridge Audited where
  left := { pipe := .fresh (framedSource maxSize), recvSize := config.leftRecvSize }
  right := { pipe := .fresh (.bare (.connected 4)), recvSize := config.rightRecvSize }
  budget := config.maxRelayPerEvent

/-- The smallest settings for datagrams of up to 16 bytes. -/
def narrowConfig : BridgeConfig where
  leftRecvSize := 16
  rightRecvSize := 16
  maxRelayPerEvent := 16

/-- So many empty datagrams arrive at once, after the other side can be written to. -/
def flood (n : Nat) : List (Activity (Host SocketPairs Side)) :=
  [ { side := .right, events := { writable := true }, meanwhile := id },
    { side := .left, events := { readable := true },
      meanwhile := fun w => { w with
        net := w.net.update 3 (·.farWrite (List.replicate n 0)) } } ]

def floodedCourse (config : BridgeConfig) (maxSize n : Nat) :
    Checked (List (Episode Audited (Host SocketPairs Side))) := do
  let (_, b, w) ← (deframingBridge config maxSize).attach id pairedHost
  course (flood n) b w

/-- What was taken off the framed transport until then, and how many empty datagrams. -/
def leftIntake {W : Type} (e : Episode Audited W) : Nat × Nat :=
  ((e.after.side .left).pipe.intake, (e.after.side .left).pipe.empties)

theorem floodedCourse_figures :
    (floodedCourse narrowConfig 16 200).toOption.map (List.map leftIntake) =
      some [(0, 0), (400, 200)] := by
  decide +kernel

/-- The second activity takes far more than the settings would allow for. -/
theorem intake_bounded_flooded :
    IsNew (framedSource 16) ∧ IsNew (.bare (.connected 4)) ∧
    between (framedSource 16) (.bare (.connected 4)) narrowConfig =
      .ok (.ok ((deframingBridge narrowConfig 16).mapPipes Audited.link)) ∧
    narrowConfig.intakeBound .left = 148 ∧
    ∃ audited : List (Episode Audited (Host SocketPairs Side)),
      floodedCourse narrowConfig 16 200 = .ok audited ∧
      audited.map leftIntake = [(0, 0), (400, 200)] ∧
      ∀ e ∈ audited, ∀ src : Side, (e.after.side src).pipe.intake ≤
        (e.before.side src).pipe.intake + narrowConfig.intakeBound src +
          2 * ((e.after.side src).pipe.empties - (e.before.side src).pipe.empties) := by
  have hl : IsNew (framedSource 16) := ⟨3, true, 16, .inr rfl⟩
  have hr : IsNew (.bare (.connected 4)) := ⟨4, false, 0, .inr rfl⟩
  have hnew : between (framedSource 16) (.bare (.connected 4)) narrowConfig =
      .ok (.ok ((deframingBridge narrowConfig 16).mapPipes Audited.link)) := rfl
  refine ⟨hl, hr, hnew, rfl, ?_⟩
  have herases := Audited.erases (N := SocketPairs) (C := Side)
  have hfigures := floodedCourse_figures
  cases hrun : floodedCourse narrowConfig 16 200 with
  | error v => simp [hrun, Except.toOption] at hfigures
  | ok audited =>
    simp only [hrun, Except.toOption, Option.map_some, Option.some.injEq] at hfigures
    refine ⟨audited, rfl, hfigures, ?_⟩
    simp only [floodedCourse, Checked.bind_eq_ok_iff] at hrun
    obtain ⟨⟨result, b, w⟩, ha, hc⟩ := hrun
    have hattach := attach_mapPipes herases (deframingBridge narrowConfig 16) id pairedHost
    rw [ha] at hattach
    have hcourse := course_mapPipes herases (flood 200) b w
    rw [hc] at hcourse
    obtain ⟨r, r₁, all, hr₀, hr₁, hall, _, hbound⟩ := intake_bounded hl hr hnew hattach hcourse
    -- the run with records is the one that was computed
    have hsame : between (Audited.fresh (framedSource 16)) (.fresh (.bare (.connected 4)))
        narrowConfig = .ok (.ok (deframingBridge narrowConfig 16)) := rfl
    rw [hsame] at hr₀
    cases hr₀
    rw [ha] at hr₁
    cases hr₁
    rw [hc] at hall
    cases hall
    exact hbound

end Bridge

end DuplexRelay
