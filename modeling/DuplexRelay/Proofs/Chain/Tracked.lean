import DuplexRelay.Proofs.Chain.Channel

/-! What a pipe over a socket does to the track of the socket, and what its state bits know of that
track. -/

namespace DuplexRelay

namespace Track

/-- What a receive of up to `n` bytes can come to. -/
inductive Received (n : Nat) (t : Track) : PipeResult Recv → Track → Prop
  | failed (e : PipeError) : Received n t (.error e) t
  | ended (hu : t.unread = []) (he : t.ended = true) : Received n t (.ok .fin) t
  | data {data rest : Bytes} (hn : data.length ≤ n) (hu : t.unread = data ++ rest) :
      Received n t (.ok (.data data)) { t with got := t.got ++ data, unread := rest }

inductive Given (data : Bytes) (t : Track) : PipeResult Nat → Track → Prop
  | failed (e : PipeError) : Given data t (.error e) t
  | taken {n : Nat} (hs : t.shut = false) (hn : n ≤ data.length) :
      Given data t (.ok n) { t with sent := t.sent ++ data.take n }

/-- What a request to close the way out can come to. -/
inductive AfterClose (t : Track) : PipeResult FinStatus → Track → Prop
  | failed (e : PipeError) : AfterClose t (.error e) t
  | done : AfterClose t (.ok .sent) { t with shut := true }

/-- A later state of a track. Nothing arrives meanwhile, and once the way out is shut down nothing
is sent any more. -/
structure Later (t t' : Track) : Prop where
  arrived : t'.got ++ t'.unread = t.got ++ t.unread
  got : t.got <+: t'.got
  ended : t'.ended = t.ended
  closed : t'.closed = t.closed
  sent : t.sent <+: t'.sent
  frozen : t.shut = true ∨ t.closed = true → t'.sent = t.sent
  shut : t.shut = true → t'.shut = true

theorem Later.refl (t : Track) : t.Later t :=
  ⟨rfl, List.prefix_refl _, rfl, rfl, List.prefix_refl _, fun _ => rfl, id⟩

theorem Later.trans {t t₁ t' : Track} (h : t.Later t₁) (h' : t₁.Later t') : t.Later t' := by
  refine ⟨h'.arrived.trans h.arrived, h.got.trans h'.got, h'.ended.trans h.ended,
    h'.closed.trans h.closed, h.sent.trans h'.sent, ?_, h'.shut ∘ h.shut⟩
  intro hf
  refine (h'.frozen ?_).trans (h.frozen hf)
  rw [h.closed]
  exact hf.imp_left h.shut

end Track

namespace Tcp

variable {C : Type} {p p₁ p' : Tcp} {w w₁ w' : Host Ports C} {t : Track}

/-- What the state bits know of the track: the end of the stream was read, and whether the way out
was shut down. -/
structure Tracked (p : Tcp) (t : Track) : Prop where
  ended : p.bits.finRcvd = true → t.unread = [] ∧ t.ended = true ∧ p.bits.readable = false
  shut : p.bits.finSent = t.shut

/-- Steps of a pipe that touch its own socket only. -/
structure Stepped (p : Tcp) (w : Host Ports C) (p' : Tcp) (w' : Host Ports C) : Prop where
  fd : p'.fd = p.fd
  others : ∀ d, d ≠ p.fd → w'.net d = w.net d
  later : (w.net.track p.fd).Later (w'.net.track p.fd)
  tracked : p.Tracked (w.net.track p.fd) → p'.Tracked (w'.net.track p.fd)

theorem stepped_chained : Chained (Stepped (C := C)) where
  refl p w := ⟨rfl, fun _ _ => rfl, .refl _, id⟩
  trans {p p₁ p' w w₁ w'} h h' := by
    have hothers := h'.others
    have hlater := h'.later
    have htracked := h'.tracked
    rw [h.fd] at hothers hlater htracked
    exact ⟨h'.fd.trans h.fd, fun d hd => (hothers d hd).trans (h.others d hd),
      h.later.trans hlater, htracked ∘ h.tracked⟩

theorem stepped_of_settled {bits : PipeState} {net : Ports}
    (hs : Settled bits p { w with net } p' w') (hothers : ∀ d, d ≠ p.fd → net d = w.net d)
    (hlater : (w.net.track p.fd).Later (net.track p.fd))
    (htracked : p.Tracked (w.net.track p.fd) → ({ p with bits } : Tcp).Tracked (net.track p.fd)) :
    Stepped p w p' w' := by
  have hnet : w'.net = net := hs.net
  refine ⟨by rw [hs.pipe], by rw [hnet]; exact hothers, by rw [hnet]; exact hlater, ?_⟩
  intro h
  have hnew := htracked h
  rw [hnet, hs.pipe]
  exact ⟨hnew.ended, hnew.shut⟩

/-- The bits know no more of the end of the stream, and nothing went through the socket. -/
theorem stepped_unmoved {bits : PipeState} {net : Ports} (hs : Settled bits p { w with net } p' w')
    (hothers : ∀ d, d ≠ p.fd → net d = w.net d) (ht : net.track p.fd = w.net.track p.fd)
    (hrcvd : bits.finRcvd = p.bits.finRcvd) (hsent : bits.finSent = p.bits.finSent)
    (hread : p.bits.finRcvd = true → p.bits.readable = false → bits.readable = false) :
    w'.net.track p.fd = w.net.track p.fd ∧ Stepped p w p' w' := by
  have hnet : w'.net = net := hs.net
  refine ⟨by rw [hnet]; exact ht, stepped_of_settled hs hothers (by rw [ht]; exact .refl _) ?_⟩
  intro hold
  rw [ht]
  refine ⟨fun hfin => ?_, hsent.trans hold.shut⟩
  have hfin : p.bits.finRcvd = true := hrcvd.symm.trans hfin
  obtain ⟨hu, he, hdry⟩ := hold.ended hfin
  exact ⟨hu, he, hread hfin hdry⟩

theorem received_track {n : Nat} {result : PipeResult Recv}
    (h : Pipe.recv n p w = .ok (result, p', w')) :
    (w.net.track p.fd).Received n result (w'.net.track p.fd) ∧ Stepped p w p' w' := by
  -- a read that failed moved nothing
  have hfailed : ∀ {e : OsError} {net : Ports} {bits : PipeState} {error : PipeError},
      Sockets.read p.fd n w.net = (.error e, net) → Settled bits p { w with net } p' w' →
      bits.finRcvd = p.bits.finRcvd → bits.finSent = p.bits.finSent → bits.readable = false →
      (w.net.track p.fd).Received n (.error error) (w'.net.track p.fd) ∧ Stepped p w p' w' := by
    intro e net bits error hr hs hrcvd hsent hread
    have hsame : net.track p.fd = w.net.track p.fd := by
      have hfate := Ports.afterRead hr
      generalize net.track p.fd = t at hfate ⊢
      cases hfate
      rfl
    obtain ⟨htrack, hstepped⟩ := stepped_unmoved hs (fun d hd => Ports.operate_other hr hd) hsame
      hrcvd hsent fun _ _ => hread
    rw [htrack]
    exact ⟨.failed _, hstepped⟩
  cases received h with
  | broken => exact ⟨.failed _, stepped_chained.refl p w⟩
  | nothing hb hn =>
    refine ⟨?_, stepped_chained.refl p w⟩
    have hnone : (w.net.track p.fd).Received n (.ok (.data [])) _ := .data (Nat.zero_le n) rfl
    rwa [List.append_nil] at hnone
  | @ended net _ _ hb hn hr hs =>
    have hread := Ports.afterRead hr
    have hnet : w'.net = net := hs.net
    generalize ht : net.track p.fd = t at hread
    generalize hresult : (Except.ok [] : Except OsError Bytes) = answer at hread
    cases hread with
    | failed => cases hresult
    | data hd =>
      cases hresult
      exact absurd rfl hd
    | ended hu he =>
      rw [hnet, ht]
      refine ⟨.ended hu he, stepped_of_settled hs (fun d hd => Ports.operate_other hr hd)
        (by rw [ht]; exact .refl _) fun hold => ?_⟩
      rw [ht]
      exact ⟨fun _ => ⟨hu, he, rfl⟩, hold.shut⟩
  | @data data net _ _ hb hn hr hd hs =>
    have hread := Ports.afterRead hr
    have hnet : w'.net = net := hs.net
    generalize ht : net.track p.fd = t at hread
    generalize hresult : (Except.ok data : Except OsError Bytes) = answer at hread
    cases hread with
    | failed => cases hresult
    | ended =>
      cases hresult
      exact absurd rfl hd
    | @data data' rest _ hle hu =>
      cases hresult
      rw [hnet, ht]
      refine ⟨.data hle hu, stepped_of_settled hs (fun d hd => Ports.operate_other hr hd) ?_
        fun hold => ?_⟩
      · rw [ht]
        refine ⟨?_, List.prefix_append _ _, rfl, rfl, List.prefix_refl _, fun _ => rfl, id⟩
        rw [hu, List.append_assoc]
      · rw [ht]
        refine ⟨fun hfin => ?_, hold.shut⟩
        rw [(hold.ended hfin).1] at hu
        exact absurd (List.append_eq_nil_iff.mp hu.symm).1 hd
  | refused hb hn hr he hs => exact hfailed hr hs rfl rfl rfl
  | failed hb hn hr he hs => exact hfailed hr hs rfl rfl rfl

theorem given_track {data : Bytes} {result : PipeResult Nat}
    (h : Pipe.send data p w = .ok (result, p', w')) :
    (p.Tracked (w.net.track p.fd) →
      (w.net.track p.fd).Given data result (w'.net.track p.fd)) ∧ Stepped p w p' w' := by
  have hfailed : ∀ {e : OsError} {net : Ports} {bits : PipeState} {error : PipeError},
      Sockets.send p.fd data w.net = (.error e, net) → Settled bits p { w with net } p' w' →
      bits.finRcvd = p.bits.finRcvd → bits.finSent = p.bits.finSent →
      (p.bits.finRcvd = true → p.bits.readable = false → bits.readable = false) →
      (p.Tracked (w.net.track p.fd) →
        (w.net.track p.fd).Given data (.error error) (w'.net.track p.fd)) ∧
        Stepped p w p' w' := by
    intro e net bits error hr hs hrcvd hsent hread
    have hsame : net.track p.fd = w.net.track p.fd := by
      have hfate := Ports.afterSend hr
      generalize net.track p.fd = t at hfate ⊢
      cases hfate
      rfl
    obtain ⟨htrack, hstepped⟩ := stepped_unmoved hs (fun d hd => Ports.operate_other hr hd) hsame
      hrcvd hsent hread
    rw [htrack]
    exact ⟨fun _ => .failed _, hstepped⟩
  cases transmitted h with
  | broken => exact ⟨fun _ => .failed _, stepped_chained.refl p w⟩
  | @taken n net _ _ hf hb hr hs =>
    have hsend := Ports.afterSend hr
    have hnet : w'.net = net := hs.net
    generalize ht : net.track p.fd = t at hsend
    cases hsend with
    | taken hshut hclosed hn =>
      rw [hnet, ht]
      refine ⟨fun _ => .taken hshut hn, stepped_of_settled hs
        (fun d hd => Ports.operate_other hr hd) ?_ fun hold => ?_⟩
      · rw [ht]
        refine ⟨rfl, List.prefix_refl _, rfl, rfl, List.prefix_append _ _, ?_, id⟩
        rintro (hs | hc)
        · exact absurd (hshut.symm.trans hs) Bool.false_ne_true
        · exact absurd (hclosed.symm.trans hc) Bool.false_ne_true
      · rw [ht]
        exact ⟨hold.ended, hold.shut⟩
  | refused hf hb hr he hs => exact hfailed hr hs rfl rfl fun _ h => h
  | failed hf hb hr he hs => exact hfailed hr hs rfl rfl fun _ _ => rfl

/-- What a send of a tracked pipe puts on its socket, and what it leaves as it was. -/
theorem given_tracked {data : Bytes} {result : PipeResult Nat}
    (htracked : p.Tracked (w.net.track p.fd)) (h : Pipe.send data p w = .ok (result, p', w')) :
    (w.net.track p.fd).Given data result (w'.net.track p.fd) ∧ p'.Tracked (w'.net.track p.fd) ∧
      p'.fd = p.fd ∧ p'.bits.finSent = p.bits.finSent ∧ p'.bits.finRcvd = p.bits.finRcvd := by
  obtain ⟨htrack, hstepped⟩ := given_track h
  exact ⟨htrack htracked, hstepped.tracked htracked, hstepped.fd, transmitted_bits h⟩

theorem closing_track {result : PipeResult FinStatus}
    (h : Pipe.sendFin p w = .ok (result, p', w')) :
    (w.net.track p.fd).AfterClose result (w'.net.track p.fd) ∧ Stepped p w p' w' := by
  cases shutDown_outcome h with
  | broken => exact ⟨.failed _, stepped_chained.refl p w⟩
  | @done net _ _ hf hb hr hs =>
    have hshut := Ports.afterShutdown hr
    have hnet : w'.net = net := hs.net
    generalize ht : net.track p.fd = t at hshut
    cases hshut with
    | done =>
      rw [hnet, ht]
      refine ⟨.done, stepped_of_settled hs (fun d hd => Ports.operate_other hr hd) ?_
        fun hold => ?_⟩
      · rw [ht]
        exact ⟨rfl, List.prefix_refl _, rfl, rfl, List.prefix_refl _, fun _ => rfl, fun _ => rfl⟩
      · rw [ht]
        exact ⟨hold.ended, rfl⟩
  | @failed e net _ _ hf hb hr hs =>
    have hsame : net.track p.fd = w.net.track p.fd := by
      have hfate := Ports.afterShutdown hr
      generalize net.track p.fd = t at hfate ⊢
      cases hfate
      rfl
    obtain ⟨htrack, hstepped⟩ := stepped_unmoved hs (fun d hd => Ports.operate_other hr hd) hsame
      rfl rfl fun _ _ => rfl
    rw [htrack]
    exact ⟨.failed _, hstepped⟩

theorem noticed_track {events : SocketEvents} {report : PipeEvents}
    (h : Pipe.react events p w = .ok (report, p', w')) :
    w'.net.track p.fd = w.net.track p.fd ∧ Stepped p w p' w' := by
  have hasked : ∀ {net : Ports}, ErrorTaken p.fd w.net net →
      (∀ d, d ≠ p.fd → net d = w.net d) ∧ net.track p.fd = w.net.track p.fd := by
    rintro net (rfl | ⟨e, ht⟩)
    · exact ⟨fun _ _ => rfl, rfl⟩
    · exact ⟨fun d hd => Ports.operate_other ht hd, Ports.track_takeError ht⟩
  cases noticed h with
  | broken | waiting => exact ⟨rfl, stepped_chained.refl p w⟩
  | failed hb hn hs =>
    obtain ⟨hothers, hsame⟩ := hasked hn
    exact stepped_unmoved hs hothers hsame rfl rfl fun _ _ => rfl
  | noted hb hn hs =>
    obtain ⟨hothers, hsame⟩ := hasked hn
    refine stepped_unmoved hs hothers hsame rfl rfl fun hfin hread => ?_
    simp [Tcp.noted, hfin, hread]

theorem rescheduled_track (p : Tcp) (w : Host Ports C) :
    (Pipe.rescheduleRead p w).net = w.net := by
  change (if p.attached then _ else w).net = w.net
  split <;> rfl

theorem below_stepped : Pipe.Below (id : Tcp → Tcp) (Stepped (C := C)) where
  recv h := (received_track h).2
  send h := (given_track h).2
  sendFin h := (closing_track h).2
  react h := (noticed_track h).2
  reschedule p w := by
    have hnet := rescheduled_track p w
    exact ⟨rfl, fun d _ => by rw [hnet], by rw [hnet]; exact .refl _, by rw [hnet]; exact id⟩

end Tcp

theorem Channel.below_stepped {C : Type} : Pipe.Below Channel.base (Tcp.Stepped (C := C)) :=
  Channel.below Tcp.stepped_chained Tcp.below_stepped

end DuplexRelay
