import DuplexRelay.Proofs.Chain.BridgeInvariant

/-! What holds of a live bridge between a plain and a framed connection is kept by all that it does,
and what holds of an ended one is kept by its end. -/

namespace DuplexRelay.Bridge

open Channel

variable {C : Type} {l : Layout} {s : Side} {b b₁ b' : Bridge (Recorded Channel)}
  {w w₁ w' : Host Ports C}

theorem OthersUntouched.trans {net net₁ net' : Ports} (h : OthersUntouched l s net net₁)
    (h' : OthersUntouched l s net₁ net') : OthersUntouched l s net net' :=
  fun d hd => (h' d hd).trans (h d hd)

theorem SideInvariant.othersUntouched_peer {r : Recorded Channel} {n : Nat} {net net' : Ports}
    (h : SideInvariant l s r n net) (ha : OthersUntouched l s.peer net net') :
    SideInvariant l s r n net' := by
  rw [← Side.peer_peer s] at h
  have hmoved := h.untouched ha
  rwa [Side.peer_peer] at hmoved

theorem fits_of_drop {kind : Option Nat} {data : Bytes} (h : Fits kind data) (n : Nat) :
    Fits kind (data.drop n) := by
  intro limit hk
  rw [List.length_drop]
  exact (Nat.sub_le _ _).trans (h limit hk)

/-- A flush of a live bridge. -/
theorem LiveInvariant.flushed (h : LiveInvariant l b w.net) {dst : Side} {result : PipeResult Unit}
    (hf : b.flush dst w = .ok (result, b', w')) : InvariantAfter l result b' w'.net := by
  have hlawful : SendsWithin Channel (Host Ports C) := Channel.sendsWithin
  have hok : result = .ok () → Exact b' := by
    rintro rfl
    exact exact_of_move hlawful (.flushed h.alive hf) h.exact
  have hfailed : ∀ e, result = .error e → Exact b'.die := by
    rintro e rfl
    exact exact_of_move hlawful (.flushFailed h.alive hf) h.exact
  have hflushed := Bridge.flushed hf
  obtain ⟨hmeant, hreceived, _⟩ := flushed_conserves hlawful hflushed h.exact.counted
  -- a side that something is queued for was not closed
  have hunclosed : ∀ {queue}, (b.side dst).pending = some queue →
      ¬(b.side dst).pipe.pipe.Closing := by
    intro queue hq hc
    rw [(h.closing dst hc).2] at hq
    cases hq
  cases hflushed with
  | idle => exact h
  | refused hq hs =>
    obtain ⟨hsame, hclosing, _, hfit, huntouched⟩ :=
      (h.sides dst).send ((h.sound dst).fits _ hq) hs
    refine h.replaced hfit huntouched ((h.sound dst).same hsame (h.sound dst).fits)
      (fun hrcvd => hsame.finRcvd.trans hrcvd) ?_ (hok rfl)
    exact fun hc => absurd (hclosing.mp hc) (hunclosed hq)
  | failed hq hs he =>
    obtain ⟨hsame, hclosing, hrec, hfit, huntouched⟩ :=
      (h.sides dst).send ((h.sound dst).fits _ hq) hs
    refine h.ended hfit huntouched hsame hrec ?_ (hfailed _ rfl)
    exact fun hc => absurd (hclosing.mp hc) (hunclosed hq)
  | @partly queue rest n pipe _ hq hs hn hr =>
    have hfits := (h.sound dst).fits _ hq
    obtain ⟨hsame, hclosing, _, hfit, huntouched⟩ := (h.sides dst).send hfits hs
    obtain ⟨after, hafter, hlive⟩ := ByteBuffer.consume_eq_ok (Nat.le_of_lt hn)
    rw [hr] at hafter
    cases hafter
    refine h.replaced hfit huntouched ((h.sound dst).same hsame ?_)
      (fun hrcvd => hsame.finRcvd.trans hrcvd) ?_ (hok rfl)
    · rintro _ ⟨⟩
      rw [hlive]
      exact fits_of_drop hfits n
    · exact fun hc => absurd (hclosing.mp hc) (hunclosed hq)
  | done hq hs hn hunfinished =>
    obtain ⟨hsame, hclosing, _, hfit, huntouched⟩ :=
      (h.sides dst).send ((h.sound dst).fits _ hq) hs
    refine h.replaced hfit huntouched ((h.sound dst).same hsame nofun)
      (fun hrcvd => hsame.finRcvd.trans hrcvd) ?_ (hok rfl)
    exact fun hc => absurd (hclosing.mp hc) (hunclosed hq)
  | @closed queue n pipe pipe' w₁ _ status hq hs hn hrcvd hsent hc =>
    obtain ⟨hsame, hclosing, hrec, hfit, huntouched⟩ :=
      (h.sides dst).send ((h.sound dst).fits _ hq) hs
    obtain ⟨hsame', hclosed, hrec', _, hfit', huntouched'⟩ := hfit.close hc
    have hboth := hsame.trans hsame'
    have hended : (b.side dst.peer).pipe.pipe.base.bits.finRcvd = true :=
      (state_finRcvd _).symm.trans hrcvd
    cases status with
    | ok status =>
      refine h.replaced hfit' (huntouched.trans huntouched') ((h.sound dst).same hboth nofun)
        (fun hrcvd => hboth.finRcvd.trans hrcvd) ?_ (hok rfl)
      exact fun _ => ⟨hended, rfl⟩
    | error e =>
      refine h.ended hfit' (huntouched.trans huntouched') hboth (hrec'.trans hrec) (fun _ => ?_)
        (hfailed e rfl)
      refine ⟨by simpa using hended, by simpa using (h.sound dst.peer).intact,
        by simpa using (h.sound dst.peer).drained hended, ?_⟩
      refine accepted_eq ?_ (by simp)
      rw [hmeant, hreceived]
      exact h.exact.balanced h.alive dst

theorem sideIntact_recv {x y : BridgeSide (Recorded Channel)} {result : PipeResult Recv}
    (ht : Channel.AfterRecv x.pipe.pipe x.recvSize result y.pipe.pipe)
    (hunended : x.pipe.pipe.base.bits.finRcvd = false)
    (hresult : ∀ reason, result ≠ .error (.protocol reason))
    (hfits : ∀ queue, y.pending = some queue → Fits (l.kind s) queue.live) : SideIntact l s y := by
  refine ⟨?_, ?_, hfits⟩
  · cases hv : y.pipe.pipe.violated with
    | false => rfl
    | true =>
      obtain ⟨reason, heq⟩ := ht.intact hv
      exact absurd heq (hresult reason)
  · intro hrcvd
    rcases ht.unended hrcvd with hold | hfin | ⟨reason, heq⟩
    · exact absurd (hunended.symm.trans hold) Bool.false_ne_true
    · exact (ht.ended hfin).2
    · exact absurd heq (hresult reason)

section Transfer

variable {src : Side} {o t : BridgeSide (Recorded Channel)}

/-- What a closed way out of the source was closed behind is on the other side, which is not
read. -/
theorem LiveInvariant.passedOn_back (h : LiveInvariant l b w.net)
    (hclosing : o.pipe.pipe.Closing ↔ (b.side src).pipe.pipe.Closing)
    (haccepted : o.pipe.accepted = (b.side src).pipe.accepted)
    (hreceived : t.pipe.received = (b.side src.peer).pipe.received)
    (hsame : Same (b.side src.peer).pipe.pipe t.pipe.pipe) (hc : o.pipe.pipe.Closing) :
    PassedOn ((b.setSide src o).setSide src.peer t) src := by
  obtain ⟨hrcvd, hintact, hrest, heq⟩ := h.passedOn (hclosing.mp hc)
  refine ⟨?_, ?_, ?_, ?_⟩
  · simpa [hsame.finRcvd] using hrcvd
  · simpa [hsame.violated] using hintact
  · simpa [hsame.rest] using hrest
  · simpa [acceptedBy, receivedFrom, haccepted, hreceived] using heq

theorem LiveInvariant.closing_back (h : LiveInvariant l b w.net)
    (hclosing : o.pipe.pipe.Closing ↔ (b.side src).pipe.pipe.Closing)
    (hq : o.pending = (b.side src).pending)
    (hsame : Same (b.side src.peer).pipe.pipe t.pipe.pipe) (hc : o.pipe.pipe.Closing) :
    t.pipe.pipe.base.bits.finRcvd = true ∧ o.pending = none := by
  obtain ⟨hrcvd, hnone⟩ := h.closing src (hclosing.mp hc)
  exact ⟨hsame.finRcvd.trans hrcvd, hq.trans hnone⟩

/-- A chunk was received of one side and offered to the other one, whatever came of the offer. -/
structure OfferedChunk (l : Layout) (src : Side) (b : Bridge (Recorded Channel)) (chunk : Bytes)
    (r r' : Recorded Channel) (net : Ports) : Prop where
  after : Channel.AfterRecv (b.side src).pipe.pipe (b.side src).recvSize (.ok (.data chunk)) r.pipe
  fits : Fits (l.kind src.peer) chunk
  source : SideInvariant l src r (b.side src).recvSize net
  target : SideInvariant l src.peer r' (b.side src.peer).recvSize net
  same : Same (b.side src.peer).pipe.pipe r'.pipe
  closing : r'.pipe.Closing ↔ (b.side src.peer).pipe.pipe.Closing
  accepted : r.accepted = (b.side src).pipe.accepted
  received : r'.received = (b.side src.peer).pipe.received

theorem LiveInvariant.offered (h : LiveInvariant l b w.net) {chunk : Bytes}
    {result : PipeResult Nat} {r r' : Recorded Channel}
    (hr : Pipe.recv (b.side src).recvSize (b.side src).pipe w = .ok (.ok (.data chunk), r, w₁))
    (hs : Pipe.send chunk (b.side src.peer).pipe w₁ = .ok (result, r', w')) :
    OfferedChunk l src b chunk r r' w'.net := by
  obtain ⟨hreceived, hfit, huntouched, hacc, _⟩ := (h.sides src).recv (h.sound src).intact hr
  have hchunk := fits_of_recv (h.sides src) hreceived
  obtain ⟨hsame, hclosing, hrec, hfit', huntouched'⟩ :=
    ((h.sides src.peer).untouched huntouched).send hchunk hs
  exact ⟨hreceived, hchunk, hfit.othersUntouched_peer huntouched', hfit', hsame, hclosing, hacc,
    hrec⟩

theorem LiveInvariant.transferred (h : LiveInvariant l b w.net) {result : PipeResult Nat}
    (hh : CanRelay src b) (ht : b.transfer src w = .ok (result, b', w')) :
    InvariantAfter l result b' w'.net := by
  have hlawful : SendsWithin Channel (Host Ports C) := Channel.sendsWithin
  have hok : ∀ n, result = .ok n → Exact b' := by
    rintro n rfl
    exact exact_of_move hlawful (.transferred h.alive ht) h.exact
  have hfailed : ∀ e, result = .error e → Exact b'.die := by
    rintro e rfl
    exact exact_of_move hlawful (.transferFailed h.alive ht) h.exact
  obtain ⟨hunended, hopen⟩ := h.unended hh
  have hintact := (h.sound src).intact
  have hpeer := h.sides src.peer
  cases Bridge.transferred ht with
  | @dry pipe _ hp hr =>
    obtain ⟨hreceived, hfit, huntouched, hacc, hrec⟩ := (h.sides src).recv hintact hr
    refine h.replaced hfit huntouched
      (sideIntact_recv hreceived hunended (by simp) (h.sound src).fits) ?_ ?_ (hok _ rfl)
    · exact fun hrcvd => absurd (hunended.symm.trans hrcvd) Bool.false_ne_true
    · exact fun hc => h.closing src (hreceived.closing.mp hc)
  | @failed e pipe _ hp hr he =>
    obtain ⟨hreceived, hfit, huntouched, hacc, hrec⟩ := (h.sides src).recv hintact hr
    have hexact := hfailed e rfl
    rw [setSide_eq_both] at hexact ⊢
    refine lastingInvariant_both hfit (hpeer.untouched huntouched) ?_
      (fun hc => absurd hc hopen) hexact
    exact h.passedOn_back hreceived.closing hacc rfl (.refl _)
  | @ended pipe pipe' w₁ _ status hp hr hc =>
    obtain ⟨hreceived, hfit, huntouched, hacc, hrec⟩ := (h.sides src).recv hintact hr
    obtain ⟨hsame, hclosed, hrec', hacc', hfit', huntouched'⟩ :=
      (hpeer.untouched huntouched).close hc
    have hsource := hfit.othersUntouched_peer huntouched'
    obtain ⟨hended, hrest⟩ := hreceived.ended rfl
    have hsound : SideIntact l src { b.side src with pipe } :=
      sideIntact_recv hreceived hunended (by simp) (h.sound src).fits
    cases status with
    | ok status =>
      refine liveInvariant_both h.alive hsource hfit' hsound
        ((h.sound src.peer).same hsame (h.sound src.peer).fits) ?_ ?_ (hok 0 rfl)
      · exact h.closing_back hreceived.closing rfl hsame
      · exact fun _ => ⟨hended, hp⟩
    | error e =>
      refine lastingInvariant_both hsource hfit' ?_ (fun _ => ?_) (hfailed e rfl)
      · exact h.passedOn_back hreceived.closing hacc hrec' hsame
      · refine ⟨by simpa using hended, by simpa using hsound.intact, by simpa using hrest, ?_⟩
        have hall := accepted_eq (h.exact.balanced h.alive src.peer) hp
        rw [Side.peer_peer] at hall
        simpa [acceptedBy, receivedFrom, hacc', hrec, noteRecv_fin] using hall
  | undeliverable hp hr hs he =>
    have ho := h.offered hr hs
    refine lastingInvariant_both ho.source ho.target ?_ ?_ (hfailed _ rfl)
    · exact h.passedOn_back ho.after.closing ho.accepted ho.received ho.same
    · exact fun hc => absurd (ho.closing.mp hc) hopen
  | relayed hp hr hs htaken hn =>
    have ho := h.offered hr hs
    refine liveInvariant_both h.alive ho.source ho.target
      (sideIntact_recv ho.after hunended (by simp) (h.sound src).fits)
      ((h.sound src.peer).same ho.same (h.sound src.peer).fits) ?_ ?_ (hok _ rfl)
    · exact h.closing_back ho.after.closing rfl ho.same
    · exact fun hc => absurd (ho.closing.mp hc) hopen
  | @congested chunk taken n pipe pipe' w₁ _ hp hr hs htaken hn =>
    have ho := h.offered hr hs
    refine liveInvariant_both h.alive ho.source ho.target
      (sideIntact_recv ho.after hunended (by simp) (h.sound src).fits)
      ((h.sound src.peer).same ho.same ?_) ?_ ?_ (hok _ rfl)
    · -- what is queued is the end of a chunk that fits
      rintro _ ⟨⟩
      rw [ByteBuffer.live_copyOf]
      exact fits_of_drop ho.fits n
    · exact h.closing_back ho.after.closing rfl ho.same
    · exact fun hc => absurd (ho.closing.mp hc) hopen

end Transfer

theorem net_reschedule (r : Recorded Channel) (w : Host Ports C) :
    (Pipe.rescheduleRead r w).net = w.net := by
  obtain ⟨c, _, _⟩ := r
  cases c with
  | plain p => exact Tcp.rescheduled_track p w
  | framed p => exact Tcp.rescheduled_track p.inner.inner w

theorem LiveInvariant.relayed {src : Side} {n : Nat} {result : PipeResult Unit}
    (h : LiveInvariant l b w.net) (hr : Relayed src n b w result b' w') :
    InvariantAfter l result b' w'.net := by
  induction hr with
  | stopped => exact h
  | yielded =>
    rw [net_reschedule]
    exact h
  | failed hv ht => exact h.transferred (canRelay_of_verdict hv) ht
  | more hv ht _ ih => exact ih (h.transferred (canRelay_of_verdict hv) ht)

theorem LiveInvariant.writePhase {report : PipeEvents} {result : PipeResult Unit}
    (h : LiveInvariant l b w.net) (hw : WritePhase s report b w result b' w') :
    InvariantAfter l result b' w'.net := by
  cases hw with
  | skipped => exact h
  | failed _ hf | full _ hf => exact h.flushed hf
  | relayed _ hf _ hr =>
    have hflushed : LiveInvariant l _ _ := h.flushed hf
    exact hflushed.relayed hr

theorem LiveInvariant.die (h : LiveInvariant l b w.net) : LastingInvariant l b.die w.net := by
  have hlawful : SendsWithin Channel (Host Ports C) := Channel.sendsWithin
  exact lastingInvariant_die (exact_of_move hlawful (.ended w h.alive) h.exact) h.sides fun _ =>
    h.passedOn

theorem LiveInvariant.handled {report : PipeEvents} {result : PipeResult Unit}
    (h : LiveInvariant l b w.net)
    (hh : Handled s report b w result b' w') : InvariantAfter l result b' w'.net := by
  cases hh with
  | broken => exact h.die
  | failed _ hw => exact h.writePhase hw
  | done _ hw hr =>
    have hwritten : LiveInvariant l _ _ := h.writePhase hw
    cases hr with
    | skipped => exact hwritten
    | relayed _ _ hr => exact hwritten.relayed hr

theorem LiveInvariant.noticed {events : SocketEvents} {report : PipeEvents}
    {pipe : Recorded Channel} (h : LiveInvariant l b w.net)
    (hr : Pipe.react events (b.side s).pipe w = .ok (report, pipe, w')) :
    LiveInvariant l (b.setSide s { b.side s with pipe }) w'.net := by
  have hlawful : SendsWithin Channel (Host Ports C) := Channel.sendsWithin
  obtain ⟨hsame, hclosing, _, _, hfit, huntouched⟩ := (h.sides s).react hr
  refine h.replaced hfit huntouched ((h.sound s).same hsame (h.sound s).fits)
    (fun hrcvd => hsame.finRcvd.trans hrcvd) (fun hc => h.closing s (hclosing hc)) ?_
  exact exact_of_move hlawful (.noticed h.alive hr) h.exact

/-- Whether a bridge lives or ended, its sides are in order. -/
structure BridgeInvariant (l : Layout) (b : Bridge (Recorded Channel)) (net : Ports) : Prop where
  lasting : LastingInvariant l b net
  live : b.dead = false → LiveInvariant l b net

theorem LiveInvariant.invariant {net : Ports} (h : LiveInvariant l b net) :
    BridgeInvariant l b net :=
  ⟨h.lasting, fun _ => h⟩

theorem bridgeInvariant_die {net : Ports} (h : LastingInvariant l b.die net) :
    BridgeInvariant l b.die net := by
  refine ⟨h, fun hd => ?_⟩
  cases hd

theorem LiveInvariant.shut {net : Ports} (h : LiveInvariant l b net) (hc : b.isClosed = true)
    (d : Side) : (net.track (l.fd d)).shut = true := by
  have hsides : ∀ s, (state (b.side s).pipe.pipe).finSent = true := by
    simp only [isClosed, PipeState.isClosed, Bool.and_eq_true] at hc
    intro s
    cases s
    · exact hc.1.1
    · exact hc.2.1
  have hsent := hsides d
  rw [state_finSent] at hsent
  exact (h.sides d).records.tracked.shut.symm.trans hsent

/-- An activity of a bridge. -/
theorem BridgeInvariant.acted {events : SocketEvents} {ending : Option Bool}
    (h : BridgeInvariant l b w.net) (ha : Acted s events b w ending b' w') :
    BridgeInvariant l b' w'.net ∧
    (ending = some true → ∀ d, (w'.net.track (l.fd d)).shut = true) := by
  cases ha with
  | ignored => exact ⟨h, nofun⟩
  | failed hd hr hh =>
    have hended : LastingInvariant l _ _ := ((h.live hd).noticed hr).handled hh
    exact ⟨bridgeInvariant_die hended, nofun⟩
  | closed hd hr hh hc =>
    have hlives : LiveInvariant l _ _ := ((h.live hd).noticed hr).handled hh
    exact ⟨bridgeInvariant_die hlives.die, fun _ => hlives.shut hc⟩
  | lives hd hr hh =>
    have hlives : LiveInvariant l _ _ := ((h.live hd).noticed hr).handled hh
    exact ⟨hlives.invariant, nofun⟩

end DuplexRelay.Bridge
