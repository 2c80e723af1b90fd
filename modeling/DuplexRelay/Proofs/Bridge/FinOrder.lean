import DuplexRelay.Proofs.Bridge.Audited
import DuplexRelay.Proofs.Bridge.HalfClose
import DuplexRelay.Proofs.Bridge.NoStall

/-! The end of a stream follows its last byte. A bridge over sockets runs as one whose sockets are
logged and whose pipes are recorded, and there the way out of a side is closed only when all that
was read of the other socket was accepted by this one. -/

namespace DuplexRelay

open Relay (Link)

namespace Bridge

variable {P N C : Type}

/-- As long as a bridge does not fail, all bytes of a direction are there. -/
theorem conserved_sustained {W : Type} [Pipe P W C] (hw : SendsWithin P W) :
    Sustained W (Conserved : Bridge (Recorded P) → Prop) fun _ _ => True where
  noticed := by
    intro b s events report pipe w w' hb hr _
    obtain ⟨pipe, _, rfl⟩ := Recorded.react_eq_ok hr
    exact ⟨conserved_repiped pipe hb, fun _ => trivial⟩
  flushed := by
    intro b b' dst w w' hb _ hf
    obtain ⟨hmeant, hrecv, hcounted⟩ := flushed_conserves hw hf hb.counted
    refine ⟨?_, hcounted⟩
    intro d
    rw [hmeant, hrecv, hb.balanced d]
  transferred := by
    intro b b' src n w w' hb _ ht
    obtain ⟨chunk, hcarried⟩ := transferred_carries hw ht hb.counted
    exact ⟨hcarried.meant_eq nofun hb.balanced, hcarried.counted⟩
  died hb := by
    constructor
    · exact Side.forall_of .left (hb.balanced .left) (hb.balanced .right)
    · exact Side.forall_of .left (hb.counted .left) (hb.counted .right)

/-- What the registration of a pipe leaves as it is, the registration of both pipes does. -/
theorem forall_of_attached {W : Type} [Pipe P W C] {K : P → Prop}
    (hk : ∀ {callback : C} {p p' : P} {w w' : W} {result}, K p →
      Pipe.attach callback p w = .ok (result, p', w') → K p')
    {b b' : Bridge P} {callback : Side → C} {w w' : W} {result : Except Failure Unit}
    (h : Attached callback b w result b' w') (hb : ∀ s, K (b.side s).pipe) (s : Side) :
    K (b'.side s).pipe := by
  cases h with
  | refused _ hl =>
    cases s
    · exact hk (hb .left) hl
    · exact hb .right
  | done _ hl hr =>
    cases s
    · exact hk (hb .left) hl
    · exact hk (hb .right) hr

structure Unended [HasPipeState P] (o : Outlook P) (p : P) : Prop where
  regular : o.regular p
  unclosed : ¬o.closing p
  unended : (state p).finRcvd = false

theorem mirrored_of_unended [Sockets N] [Pipe P (Host N C) C] {o : Outlook P}
    (ho : o.Lawful (N := N) (C := C)) (rest : P → Bytes) {b : Bridge P}
    (h : ∀ s, Unended o (b.side s).pipe) : Mirrored o rest b := by
  have hopen : ∀ s, (state (b.side s).pipe).finSent = false := by
    intro s
    cases hs : (state (b.side s).pipe).finSent with
    | false => rfl
    | true => exact absurd (ho.closing hs) (h s).unclosed
  constructor
  · intro s
    refine ⟨(h s).regular, fun hc => absurd hc (h s).unclosed, ?_, ?_⟩
    · simp [(h s).unended]
    · simp [hopen s]
  · intro s
    rw [hopen, (h s).unended]

theorem IsNew.shape {p : Link} (h : IsNew p) : ∃ tcp : Tcp,
    (tcp.bits.finSent = false ∧ tcp.bits.finRcvd = false ∧ tcp.attached = false) ∧ (p = .bare tcp ∨
      ∃ maxSize, p = ⟨[.datagram], ({ inner := { inner := tcp }, maxSize } : Datagram Tcp)⟩) := by
  have hshape : ∀ {tcp : Tcp} {framed : Bool} {maxSize : Nat},
      Relay.link tcp framed maxSize = .ok p → p = .bare tcp ∨
        ∃ maxSize, p = ⟨[.datagram], ({ inner := { inner := tcp }, maxSize } : Datagram Tcp)⟩ := by
    intro tcp framed maxSize h
    unfold Relay.link at h
    cases framed with
    | false =>
      cases h
      exact .inl rfl
    | true =>
      simp only [Stack.datagram, Datagram.wrap, if_true] at h
      split at h
      · cases h
        exact .inr ⟨maxSize, rfl⟩
      · simp at h
  obtain ⟨fd, framed, maxSize, h | h⟩ := h
  · exact ⟨.connecting fd, ⟨rfl, rfl, rfl⟩, hshape h⟩
  · exact ⟨.connected fd, ⟨rfl, rfl, rfl⟩, hshape h⟩

theorem IsNew.unended {p : Link} (h : IsNew p) : Unended Stack.outlook p := by
  have hregular := (idle_of_isNew h).regular
  obtain ⟨tcp, ⟨hsent, hrcvd, _⟩, rfl | ⟨maxSize, rfl⟩⟩ := h.shape
  · refine ⟨hregular, ?_, hrcvd⟩
    intro hc
    exact Bool.false_ne_true (hsent.symm.trans hc)
  · refine ⟨hregular, ?_, hrcvd⟩
    rintro (hc | hc)
    · cases hc
    · exact Bool.false_ne_true (hsent.symm.trans hc)

theorem IsNew.balanced {p : Link} (h : IsNew p) : Stack.ledger.Balanced (Audited.fresh p) := by
  obtain ⟨tcp, _, rfl | ⟨maxSize, rfl⟩⟩ := h.shape
  · exact ⟨⟨.inl rfl, rfl⟩, rfl, rfl⟩
  · exact ⟨⟨.inr rfl, rfl⟩, rfl, rfl⟩

/-- All bytes of a direction went through the bridge, and the end of the stream after them: no side
holds any of them back, those that were read of the one socket are those that the other one
accepted, up to the framing of each, and nothing was sent after the end. -/
structure Concluded (b : Bridge Audited) (src : Side) : Prop where
  unqueued : (b.side src.peer).pending = none
  unheld : (b.side src.peer).pipe.pipe.held = []
  unassembled : (b.side src).pipe.pipe.rest = []
  read : (b.side src).pipe.calls.flatMap PipeCall.read =
    (b.side src).pipe.received.flatMap (b.side src).pipe.pipe.code
  relayed : b.acceptedBy src.peer = b.receivedFrom src
  written : ∃ before after : List PipeCall,
    (b.side src.peer).pipe.calls = before ++ .closed (.ok .sent) :: after ∧
    before.flatMap PipeCall.written =
      (b.side src.peer).pipe.accepted.flatMap (b.side src.peer).pipe.pipe.code ∧
    ∀ data answer, .sent data answer ∉ after

/-- What is known of a bridge between audited connections as long as it does not fail. -/
structure Accounted (b : Bridge Audited) : Prop where
  mirrored : Mirrored Stack.outlook Stack.rest (b.mapPipes Audited.link)
  sound : ∀ s, (b.side s).pipe.Sound
  conserved : Conserved b

section Audit

variable [Sockets N] {b b' r r' : Bridge Audited} {w w' : Host N C}

theorem Accounted.finPassedOn (h : Accounted b) (s : Side) :
    FinPassedOn Stack.outlook Stack.rest (mapSide Audited.link (b.side s)) := by
  rw [← side_mapPipes]
  exact h.mirrored.finPassedOn s

theorem Accounted.passed (h : Accounted b) (src : Side) :
    (state (b.side src.peer).pipe.link).finSent = (state (b.side src).pipe.link).finRcvd := by
  have hpassed := h.mirrored.passed src
  rwa [side_mapPipes, side_mapPipes] at hpassed

theorem concluded (ho : Stack.outlook.Lawful (N := N) (C := C)) {src : Side} (h : Accounted b)
    (hfin : (state (b.side src.peer).pipe.link).finSent = true) : b.Concluded src := by
  have hunqueued : (b.side src.peer).pending = none := (h.finPassedOn src.peer).unqueued hfin
  have hunheld : (b.side src.peer).pipe.pipe.held = [] := by
    -- what a layer holds back keeps the way out open
    have hnot : ¬Stack.outlook.holding (b.side src.peer).pipe.link := by
      intro hholding
      have hopen := (ho.held (h.finPassedOn src.peer).regular hholding).2
      exact Bool.false_ne_true (hopen.symm.trans hfin)
    rw [← Stacked.held_eq_nil hnot]
    exact (Stacked.held_rebase Logged.pipe _ _).symm
  have hunassembled : (b.side src).pipe.pipe.rest = [] := by
    rw [← (h.finPassedOn src).drained ((h.passed src).symm.trans hfin)]
    exact (Stacked.rest_rebase Logged.pipe _ _).symm
  constructor
  · exact hunqueued
  · exact hunheld
  · exact hunassembled
  · have hread : (b.side src).pipe.calls.flatMap PipeCall.read =
        (b.side src).pipe.received.flatMap (b.side src).pipe.pipe.code ++
          (b.side src).pipe.pipe.rest := (h.sound src).balanced.read
    rw [hread, hunassembled, List.append_nil]
  · have hbalanced := h.conserved.balanced src.peer
    rw [Side.peer_peer, meantFor, BridgeSide.queued, hunqueued] at hbalanced
    rw [← hbalanced]
    exact (List.append_nil _).symm
  · have hbits : (b.side src.peer).pipe.pipe.base.pipe.bits.finSent = true := by
      rwa [ho.finSent, Stack.outlook_base, Audited.link, Stack.base_rebase] at hfin
    have hwritten : (b.side src.peer).pipe.calls.flatMap PipeCall.written ++
        (b.side src.peer).pipe.pipe.held =
          (b.side src.peer).pipe.accepted.flatMap (b.side src.peer).pipe.pipe.code :=
      (h.sound src.peer).balanced.written
    obtain ⟨before, after, hcalls, hafter⟩ := (h.sound src.peer).last hbits
    refine ⟨before, after, hcalls, ?_, hafter⟩
    have hnone : after.flatMap PipeCall.written = [] := by
      apply List.flatMap_eq_nil_iff.mpr
      intro call hcall
      cases call with
      | sent data answer => exact absurd hcall (hafter data answer)
      | attached | received | closed | noticed => rfl
    rw [← hwritten, hunheld, Audited.calls, hcalls, List.flatMap_append, List.flatMap_cons, hnone]
    simp [PipeCall.written]

theorem Unended.registered {o : Outlook Link} {p p' : Link} (h : Unended o p)
    (hr : o.Registered p p') : Unended o p' := by
  refine ⟨hr.regular h.regular, fun hc => h.unclosed (hr.closing hc), ?_⟩
  rw [hr.shown]
  exact h.unended

theorem accounted_of_attached {left right : Link} {config : BridgeConfig} {callback : Side → C}
    {result : Except Failure Unit} (hl : IsNew left) (hr : IsNew right)
    (hnew : between (Audited.fresh left) (Audited.fresh right) config = .ok (.ok r))
    (ha : r.attach callback w = .ok (result, r', w')) : Accounted r' := by
  have ho := Stack.outlook_lawful (N := N) (C := C)
  have hattached := attached ha
  have hunended : ∀ s, Unended Stack.outlook (r'.side s).pipe.link := by
    refine forall_of_attached (K := fun a => Unended Stack.outlook a.link) ?_ hattached ?_
    · intro callback a a' w w' result h ha
      have hplain := (Audited.erases (N := N) (C := C)).attach callback a w
      rw [ha] at hplain
      exact h.registered (ho.attach hplain).1
    · rw [between_eq_ok hnew]
      refine Side.forall_of .left ?_ ?_
      · change Unended Stack.outlook (Audited.fresh left).link
        rw [Audited.link_fresh]
        exact hl.unended
      · change Unended Stack.outlook (Audited.fresh right).link
        rw [Audited.link_fresh]
        exact hr.unended
  have hbalanced : ∀ s, Stack.ledger.Balanced (r'.side s).pipe := by
    refine forall_of_attached (fun h ha => h.attach Stack.ledger_lawful ha) hattached ?_
    rw [between_eq_ok hnew]
    exact Side.forall_of .left hl.balanced hr.balanced
  have halive : r.dead = false := by rw [between_eq_ok hnew]
  have hexact := exact_of_attached hattached halive (exact_of_between hnew)
  constructor
  · apply mirrored_of_unended ho
    intro s
    rw [side_mapPipes]
    exact hunended s
  · intro s
    refine ⟨hbalanced s, Logged.closedLast_of_open ?_⟩
    have hopen : (state (r'.side s).pipe.link).finSent = false := by
      apply Bool.eq_false_iff.mpr
      exact fun hs => (hunended s).unclosed (ho.closing hs)
    rwa [ho.finSent, Stack.outlook_base, Audited.link, Stack.base_rebase] at hopen
  · exact ⟨hexact.balanced ((unended_of_attached hattached).1.trans halive), hexact.counted⟩

theorem accounted_of_course [LawfulSockets N] {activities : List (Activity (Host N C))}
    {all : List (Episode Audited (Host N C))} (h : Accounted b)
    (hc : course activities b w = .ok all) :
    ∀ e ∈ all, e.after.dead = false ∨ e.ending = some true → Accounted e.after := by
  have hkept : Pipe.Below (W := Host N C) Stack.outlook.base Tcp.KeepsShut := by
    rw [show Stack.outlook.base = Stack.base from funext Stack.outlook_base]
    exact Stack.below Tcp.keepsShut_chained Tcp.below_keepsShut
  have hplain : course activities (b.mapPipes Audited.link) w =
      .ok (all.map (Episode.map Audited.link)) := by
    rw [course_mapPipes Audited.erases, hc]
    rfl
  -- the ends of the streams are followed over plain connections, the bytes in the records
  have hmirrored := (mirrored_sustained Stack.outlook_lawful (Stack.concludes Tcp.concludes)
    hkept).course (.inr h.mirrored) hplain
  have hsound := (sustained_of_pipes Audited.upholds_sound).course (.inr h.sound) hc
  have hconserved := (conserved_sustained Audited.sendsWithin).course (.inr h.conserved) hc
  intro e he hgood
  constructor
  · exact hmirrored _ (List.mem_map_of_mem he) hgood
  · exact hsound e he hgood
  · exact hconserved e he hgood

/-- Whatever the sockets do, and whenever a bridge over them is told of readiness, a side is closed
exactly if the other one came to its end, and then all that came in on that one went out on this one
before. The records are those of a run over audited connections, which is the same run. -/
theorem fin_follows_bytes [LawfulSockets N] {left right : Link} {config : BridgeConfig}
    {callback : Side → C} {activities : List (Activity (Host N C))} {b b₁ : Bridge Link}
    {w w₁ : Host N C} {result : Except Failure Unit} {episodes : List (Episode Link (Host N C))}
    (hl : IsNew left) (hr : IsNew right) (hb : between left right config = .ok (.ok b))
    (ha : b.attach callback w = .ok (result, b₁, w₁))
    (hc : course activities b₁ w₁ = .ok episodes) :
    ∃ (r r₁ : Bridge Audited) (audited : List (Episode Audited (Host N C))),
      between (Audited.fresh left) (Audited.fresh right) config = .ok (.ok r) ∧
      r.attach callback w = .ok (result, r₁, w₁) ∧ course activities r₁ w₁ = .ok audited ∧
      audited.map (Episode.map Audited.link) = episodes ∧
      ∀ e ∈ audited, e.after.dead = false ∨ e.ending = some true → ∀ src : Side,
        ((state (e.after.side src.peer).pipe).finSent = true ↔
          (state (e.after.side src).pipe).finRcvd = true) ∧
        ((state (e.after.side src.peer).pipe).finSent = true → e.after.Concluded src) ∧
        (e.ending = some true → (state (e.after.side src.peer).pipe).finSent = true) := by
  have herases := Audited.erases (N := N) (C := C)
  obtain ⟨r, hnew, rfl⟩ := between_mapPipes Audited.link (.fresh left) (.fresh right)
    (by rwa [Audited.link_fresh, Audited.link_fresh])
  rw [attach_mapPipes herases] at ha
  obtain ⟨⟨_, r₁, _⟩, hattach, heq⟩ := Checked.map_eq_ok_iff.mp ha
  simp only [Prod.mk.injEq] at heq
  obtain ⟨rfl, rfl, rfl⟩ := heq
  rw [course_mapPipes herases] at hc
  obtain ⟨audited, haudited, rfl⟩ := Checked.map_eq_ok_iff.mp hc
  refine ⟨r, r₁, audited, hnew, hattach, haudited, rfl, ?_⟩
  intro e he hgood src
  have haccounted :=
    accounted_of_course (accounted_of_attached hl hr hnew hattach) haudited e he hgood
  have hshown : ∀ s, state (e.after.side s).pipe = state (e.after.side s).pipe.link :=
    fun s => (herases.state _).symm
  rw [hshown, hshown, ← haccounted.passed src]
  refine ⟨Iff.rfl, concluded (Stack.outlook_lawful (N := N) (C := C)) haccounted, ?_⟩
  intro hending
  obtain ⟨s, events, hacted⟩ := acted_of_course haudited e he
  rw [hending] at hacted
  have hclosed := hacted.isClosed src.peer
  rw [hshown] at hclosed
  exact (Bool.and_eq_true_iff.mp hclosed).1

end Audit

def framedLink : Link :=
  ⟨[.datagram], ({ inner := { inner := .connected 4 }, maxSize := 1024 } : Datagram Tcp)⟩

/-- A new bridge from a connection without framing to that one. -/
def framingBridge : Bridge Link where
  left := { pipe := .bare (.connected 3), recvSize := 8192 }
  right := { pipe := framedLink, recvSize := 8192 }
  budget := 65536

/-- Three bytes and the end of the stream arrive before the other side can be written to, and the
other stream ends after that. -/
def endingActivities : List (Activity (Host SocketPairs Side)) :=
  [ { side := .left, events := { readable := true, writable := true },
      meanwhile := fun w => { w with
        net := w.net.update 3 fun p => (p.farWrite [1, 2, 3]).farFin } },
    { side := .right, events := { writable := true }, meanwhile := id },
    { side := .right, events := { readable := true },
      meanwhile := fun w => { w with net := w.net.update 4 (·.farFin) } } ]

def endingCourse : Checked (List (Episode Link (Host SocketPairs Side))) := do
  let (_, b, w) ← framingBridge.attach id pairedHost
  course endingActivities b w

/-- What an episode ended by, and the numbers of bytes that were received and sent until then. -/
def passedBy {P W : Type} (e : Episode P W) : Option Bool × Nat × Nat :=
  (e.ending, (e.after.side .left).traffic.received, (e.after.side .right).traffic.sent)

theorem endingCourse_figures :
    endingCourse.toOption.map (List.map passedBy) =
      some [(none, 0, 0), (none, 3, 3), (some true, 3, 3)] := by
  decide +kernel

theorem fin_follows_bytes_framed :
    IsNew (.bare (.connected 3)) ∧ IsNew framedLink ∧
    between (.bare (.connected 3)) framedLink {} = .ok (.ok framingBridge) ∧
    ∃ (episodes : List (Episode Link (Host SocketPairs Side)))
      (audited : List (Episode Audited (Host SocketPairs Side))),
      endingCourse = .ok episodes ∧ audited.map (Episode.map Audited.link) = episodes ∧
      ∃ e ∈ audited, passedBy e = (some true, 3, 3) ∧
        ∀ src : Side, (state (e.after.side src.peer).pipe).finSent = true ∧
          e.after.Concluded src := by
  have hl : IsNew (.bare (.connected 3)) := ⟨3, false, 0, .inr rfl⟩
  have hr : IsNew framedLink := ⟨4, true, 1024, .inr rfl⟩
  have hnew : between (.bare (.connected 3)) framedLink {} = .ok (.ok framingBridge) := rfl
  refine ⟨hl, hr, hnew, ?_⟩
  have hfigures := endingCourse_figures
  cases hrun : endingCourse with
  | error v => simp [hrun, Except.toOption] at hfigures
  | ok episodes =>
    simp only [hrun, Except.toOption, Option.map_some, Option.some.injEq] at hfigures
    simp only [endingCourse, Checked.bind_eq_ok_iff] at hrun
    obtain ⟨⟨result, b, w⟩, ha, hc⟩ := hrun
    obtain ⟨_, _, audited, _, _, _, hmap, hall⟩ := fin_follows_bytes hl hr hnew ha hc
    refine ⟨episodes, audited, rfl, hmap, ?_⟩
    have hmem : (some true, 3, 3) ∈ audited.map passedBy := by
      rw [← hmap, List.map_map] at hfigures
      change audited.map passedBy = _ at hfigures
      simp [hfigures]
    obtain ⟨e, he, hpassed⟩ := List.mem_map.mp hmem
    have hgraceful : e.ending = some true := congrArg Prod.fst hpassed
    refine ⟨e, he, hpassed, ?_⟩
    intro src
    obtain ⟨_, hconcluded, hsent⟩ := hall e he (.inr hgraceful) src
    exact ⟨hsent hgraceful, hconcluded (hsent hgraceful)⟩

end Bridge

end DuplexRelay
