import DuplexRelay.Proofs.Bridge.Unstalled

/-! A bridge never forgets a side that it could go on relaying from. Where it stops although one
side is readable and the other writable, it asked to be told of readability again. -/

namespace DuplexRelay

namespace Bridge

variable {P N C : Type} [Sockets N] [Pipe P (Host N C) C] {o : Outlook P} {b b₁ b' : Bridge P}
  {w w₁ w' : Host N C} {s src dst : Side}

theorem othersUnchanged_received (ho : o.Lawful (N := N) (C := C))
    (hb : Pipe.Below (W := Host N C) o.base Tcp.Advanced) {n : Nat} {pipe : P}
    {result : PipeResult Recv} (hs : PipesAtWork o b w.reactor) (hf : BlockedWhileQueued b)
    (hread : (state (b.side src).pipe).isReadable = true)
    (h : Pipe.recv n (b.side src).pipe w = .ok (result, pipe, w'))
    (hm : Outlook.LeavesUsable result) (traffic : Traffic) :
    OthersUnchanged o b w.reactor (b.setSide src { b.side src with pipe, traffic }) w'.reactor ∧
      BlockedWhileQueued (b.setSide src { b.side src with pipe, traffic }) := by
  have hi := ho.recv (hs.regular src) hread h hm
  refine ⟨othersUnchanged_setSide src _ hs (hb.recv h) hi.regular ?_ (fun _ => hread) ?_,
    blockedWhileQueued_setSide (hf src.peer) ?_⟩
  · intro hn hc
    exact hs.unclosed src hn (hi.closing.mp hc)
  · exact fun hw => hi.writable.symm.trans hw
  · intro hn
    exact hi.writable.trans (hf src hn)

theorem othersUnchanged_sent (ho : o.Lawful (N := N) (C := C))
    (hb : Pipe.Below (W := Host N C) o.base Tcp.Advanced) {data : Bytes}
    {result : PipeResult Nat} (dst : Side) (new : BridgeSide P) (hs : PipesAtWork o b w.reactor)
    (hwrite : (state (b.side dst).pipe).isWritable = true)
    (h : Pipe.send data (b.side dst).pipe w = .ok (result, new.pipe, w'))
    (hm : Outlook.LeavesUsable result) :
    OthersUnchanged o b w.reactor (b.setSide dst new) w'.reactor := by
  have hi := ho.send (hs.regular dst) hwrite h hm
  refine othersUnchanged_setSide dst new hs (hb.send h) hi.regular ?_ ?_ (fun _ => hwrite)
  · intro _ hc
    have hshut := ho.shut (hs.regular dst) (hi.closing.mp hc)
    rw [hwrite] at hshut
    cases hshut
  · exact fun hr => hi.incoming.readable.symm.trans hr

theorem othersUnchanged_closed (ho : o.Lawful (N := N) (C := C))
    (hb : Pipe.Below (W := Host N C) o.base Tcp.Advanced) {status : FinStatus}
    (dst : Side) (new : BridgeSide P) (hs : PipesAtWork o b w.reactor) (hq : new.pending = none)
    (h : Pipe.sendFin (b.side dst).pipe w = .ok (.ok status, new.pipe, w')) :
    OthersUnchanged o b w.reactor (b.setSide dst new) w'.reactor := by
  obtain ⟨_, hi⟩ := ho.sendFin (hs.regular dst) h (fun e he => by cases he)
  refine othersUnchanged_setSide dst new hs (hb.sendFin h) hi.regular (fun hn => absurd hq hn) ?_ ?_
  · exact fun hr => hi.incoming.readable.symm.trans hr
  · intro hw
    rw [hi.full] at hw
    cases hw

theorem leavesUsable_of_took {result : PipeResult Nat} {n : Nat} (h : Took result n) :
    Outlook.LeavesUsable result := by
  intro e he
  rcases h with rfl | ⟨rfl, _⟩
  · cases he
  · cases he
    rfl

/-- A transfer keeps the bridge at work, and queues only for a side that takes nothing. -/
theorem othersUnchanged_transferred (ho : o.Lawful (N := N) (C := C))
    (hb : Pipe.Below (W := Host N C) o.base Tcp.Advanced) {n : Nat}
    (hs : PipesAtWork o b w.reactor) (hf : BlockedWhileQueued b) (hh : CanRelay src b)
    (h : Transferred src b w (.ok n) b' w') :
    OthersUnchanged o b w.reactor b' w'.reactor ∧ BlockedWhileQueued b' := by
  obtain ⟨hread, hwrite⟩ := hh
  generalize hresult : (Except.ok n : PipeResult Nat) = result at h
  cases h with
  | failed | undeliverable => cases hresult
  | @dry pipe _ hp hr =>
    exact othersUnchanged_received ho hb hs hf hread hr (fun e he => by cases he; rfl) _
  | @ended pipe pipe' w₁ _ result hp hr hc =>
    obtain ⟨he, hf'⟩ := othersUnchanged_received ho hb hs hf hread hr (fun e he => by cases he)
      (b.side src).traffic
    cases result with
    | error e => cases hresult
    | ok status =>
      rw [← side_setSide_peer b src { b.side src with pipe }] at hc
      have hclosed :=
        othersUnchanged_closed ho hb src.peer { b.side src.peer with pipe := pipe' } he.atWork
        hp hc
      refine ⟨he.trans hclosed, blockedWhileQueued_setSide (hf' src.peer.peer) ?_⟩
      exact fun hn => absurd hp hn
  | @relayed chunk r k pipe pipe' w₁ _ hp hr hsend ht hn =>
    obtain ⟨he, hf'⟩ := othersUnchanged_received ho hb hs hf hread hr (fun e he => by cases he)
      (afterRecv (b.side src).traffic chunk.length)
    rw [← side_setSide_peer b src { b.side src with
      pipe, traffic := afterRecv (b.side src).traffic chunk.length }] at hsend hwrite
    have hsent := othersUnchanged_sent ho hb src.peer { b.side src.peer with
      pipe := pipe', traffic := afterSend (b.side src.peer).traffic k } he.atWork hwrite hsend
      (leavesUsable_of_took ht)
    refine ⟨he.trans hsent, blockedWhileQueued_setSide (hf' src.peer.peer) ?_⟩
    exact fun hn => absurd hp hn
  | @congested chunk r k pipe pipe' w₁ _ hp hr hsend ht hn =>
    obtain ⟨he, hf'⟩ := othersUnchanged_received ho hb hs hf hread hr (fun e he => by cases he)
      (afterRecv (b.side src).traffic chunk.length)
    rw [← side_setSide_peer b src { b.side src with
      pipe, traffic := afterRecv (b.side src).traffic chunk.length }] at hsend hwrite
    have hsent := othersUnchanged_sent ho hb src.peer { b.side src.peer with
      pipe := pipe', pending := some (.copyOf (chunk.drop k)),
      traffic := afterQueueing (b.side src.peer).traffic k } he.atWork hwrite hsend
      (leavesUsable_of_took ht)
    refine ⟨he.trans hsent, blockedWhileQueued_setSide (hf' src.peer.peer) ?_⟩
    intro _
    have hi := ho.send (he.atWork.regular src.peer) hwrite hsend (leavesUsable_of_took ht)
    refine hi.full fun m hm => ?_
    rcases ht with rfl | ⟨rfl, _⟩
    · cases hm
      exact hn
    · cases hm

/-- A flush of a side that takes data again leaves something queued only if the side takes no
more. -/
theorem othersUnchanged_flushed (ho : o.Lawful (N := N) (C := C))
    (hb : Pipe.Below (W := Host N C) o.base Tcp.Advanced) (hs : PipesAtWork o b w.reactor)
    (hf : (b.side dst.peer).pending ≠ none →
      (state (b.side dst.peer).pipe).isWritable = false)
    (hwrite : (state (b.side dst).pipe).isWritable = true)
    (h : Flushed dst b w (.ok ()) b' w') :
    OthersUnchanged o b w.reactor b' w'.reactor ∧ BlockedWhileQueued b' := by
  generalize hresult : (Except.ok () : PipeResult Unit) = result at h
  cases h with
  | failed => cases hresult
  | idle hq =>
    refine ⟨.refl hs, ?_⟩
    intro d
    rcases Side.eq_or_eq_peer dst d with rfl | rfl
    · exact fun hn => absurd hq hn
    · exact hf
  | @refused queue pipe _ hq hsend =>
    have hmild : Outlook.LeavesUsable (.error .wouldBlock : PipeResult Nat) := fun e he => by
      cases he
      rfl
    have hi := ho.send (hs.regular dst) hwrite hsend hmild
    refine ⟨othersUnchanged_sent ho hb dst { b.side dst with pipe } hs hwrite hsend hmild,
      blockedWhileQueued_setSide hf ?_⟩
    intro _
    exact hi.full fun n hn => by cases hn
  | @partly queue rest n pipe _ hq hsend hn =>
    have hmild : Outlook.LeavesUsable (.ok n : PipeResult Nat) := fun e he => by cases he
    have hi := ho.send (hs.regular dst) hwrite hsend hmild
    refine ⟨othersUnchanged_sent ho hb dst { b.side dst with
      pipe, pending := some rest, traffic := afterSend (b.side dst).traffic n } hs hwrite hsend
      hmild, blockedWhileQueued_setSide hf ?_⟩
    intro _
    refine hi.full fun k hk => ?_
    cases hk
    exact hn
  | @done queue n pipe _ hq hsend =>
    refine ⟨othersUnchanged_sent ho hb dst { b.side dst with
      pipe, pending := none, traffic := afterSend (b.side dst).traffic n } hs hwrite hsend
      (fun e he => by cases he), blockedWhileQueued_setSide hf ?_⟩
    exact fun hn => absurd rfl hn
  | @closed queue n pipe pipe' w₁ _ result hq hsend hn hrcvd hsent hc =>
    -- the queue is sent first, and the way out is closed behind it
    have he := othersUnchanged_sent ho hb dst { b.side dst with
      pipe, pending := none, traffic := afterSend (b.side dst).traffic n } hs hwrite hsend
      (fun e he => by cases he)
    cases result with
    | error e => cases hresult
    | ok status =>
      have hside := side_setSide b dst { b.side dst with
        pipe, pending := none, traffic := afterSend (b.side dst).traffic n }
      have hclosed := othersUnchanged_closed ho hb dst { b.side dst with
        pipe := pipe', pending := none, traffic := afterSend (b.side dst).traffic n } he.atWork
        rfl (by rw [hside]; exact hc)
      rw [setSide_setSide] at hclosed
      refine ⟨he.trans hclosed, blockedWhileQueued_setSide hf ?_⟩
      exact fun hn => absurd rfl hn

/-- Where relaying comes to an end although it could go on, the side is told of readability
again. -/
theorem othersUnchanged_relayed (ho : o.Lawful (N := N) (C := C))
    (hb : Pipe.Below (W := Host N C) o.base Tcp.Advanced) {n : Nat} {result : PipeResult Unit}
    (h : Relayed src n b w result b' w') (hresult : result = .ok ())
    (hs : PipesAtWork o b w.reactor) (hf : BlockedWhileQueued b) :
    OthersUnchanged o b w.reactor b' w'.reactor ∧ BlockedWhileQueued b' ∧
      (CanRelay src b' → w'.reactor.WillBeTold (b'.fdOf o src)) := by
  induction h with
  | stopped hv => exact ⟨.refl hs, hf, fun hh => absurd hh (not_canRelay_iff.mpr hv)⟩
  | @yielded n b w hv =>
    rw [ho.reschedule]
    have hself := othersUnchanged_setSide src (b.side src) hs (Tcp.advanced_reschedule _ w)
      (hs.regular src) (hs.unclosed src) id id
    rw [setSide_side] at hself
    exact ⟨hself, hf, fun _ => Tcp.willBeTold_reschedule (hs.waiting src)⟩
  | failed => cases hresult
  | @more n k b b₁ b' w w₁ w' result hv ht _ ih =>
    obtain ⟨he, hf'⟩ :=
      othersUnchanged_transferred ho hb hs hf (canRelay_of_verdict hv) (transferred ht)
    obtain ⟨he', hf'', htell⟩ := ih hresult he.atWork hf'
    exact ⟨he.trans he', hf'', htell⟩

theorem othersUnchanged_writePhase (ho : o.Lawful (N := N) (C := C))
    (hb : Pipe.Below (W := Host N C) o.base Tcp.Advanced) {report : PipeEvents}
    (ha : ActingOnReport o s report b w.reactor) (h : WritePhase s report b w (.ok ()) b' w') :
    OthersUnchanged o b w.reactor b' w'.reactor ∧ BlockedWhileQueued b' ∧
      (CanRelay s.peer b' → w'.reactor.WillBeTold (b'.fdOf o s.peer)) := by
  have hflush : ∀ {b₁ : Bridge P} {w₁ : Host N C}, report.writable = true →
      b.flush s w = .ok (.ok (), b₁, w₁) →
        OthersUnchanged o b w.reactor b₁ w₁.reactor ∧ BlockedWhileQueued b₁ :=
    fun hw hf => othersUnchanged_flushed ho hb ha.atWork ha.peerFull (ha.reported hw) (flushed hf)
  generalize hresult : (Except.ok () : PipeResult Unit) = result at h
  cases h with
  | skipped hw =>
    refine ⟨.refl ha.atWork, ?_, ?_⟩
    · intro d
      rcases Side.eq_or_eq_peer s d with rfl | rfl
      · intro hn
        cases hwrite : (state (b.side d).pipe).isWritable with
        | false => rfl
        | true => exact absurd (hw.symm.trans (ha.sideFull hn hwrite)) Bool.false_ne_true
      · exact ha.peerFull
    · intro hh
      rcases ha.writing hh with hreport | htell
      · exact absurd (hw.symm.trans hreport) Bool.false_ne_true
      · exact htell
  | failed => cases hresult
  | full hw hf hs =>
    obtain ⟨he, hfull⟩ := hflush hw hf
    refine ⟨he, hfull, ?_⟩
    rintro ⟨_, hwrite⟩
    rw [Side.peer_peer, hs] at hwrite
    cases hwrite
  | relayed hw hf hs hr =>
    obtain ⟨he, hfull⟩ := hflush hw hf
    obtain ⟨he', hfull', htell⟩ := othersUnchanged_relayed ho hb hr hresult.symm he.atWork hfull
    exact ⟨he.trans he', hfull', htell⟩

theorem unstalled_handled (ho : o.Lawful (N := N) (C := C))
    (hb : Pipe.Below (W := Host N C) o.base Tcp.Advanced) {report : PipeEvents}
    (ha : ActingOnReport o s report b w.reactor) (h : Handled s report b w (.ok ()) b' w') :
    OthersUnchanged o b w.reactor b' w'.reactor ∧ Unstalled o b' w'.reactor := by
  generalize hresult : (Except.ok () : PipeResult Unit) = result at h
  cases h with
  | broken => cases hresult
  | failed => cases hresult
  | @done _ b₁ _ w₁ _ _ hw hr =>
    obtain ⟨he, hfull, hwriting⟩ := othersUnchanged_writePhase ho hb ha hw
    have hreading : CanRelay s b₁ → report.readable = true ∨ w₁.reactor.WillBeTold (b₁.fdOf o s) :=
      fun hh => (ha.reading (he.canRelay s hh)).imp id he.willBeTold
    cases hr with
    | skipped hs =>
      refine ⟨he, he.atWork, hfull, ?_⟩
      intro src hh
      rcases Side.eq_or_eq_peer s src with rfl | rfl
      · rcases hreading hh with hreport | htell
        · exact absurd ⟨hreport, hh.2⟩ hs
        · exact htell
      · exact hwriting hh
    | relayed _ _ hrel =>
      obtain ⟨he', hfull', htell⟩ := othersUnchanged_relayed ho hb hrel hresult.symm he.atWork hfull
      refine ⟨he.trans he', he'.atWork, hfull', ?_⟩
      intro src hh
      rcases Side.eq_or_eq_peer s src with rfl | rfl
      · exact htell hh
      · exact he'.willBeTold (hwriting (he'.canRelay s.peer hh))

/-- What is told to a side is either in the events or still to come. -/
theorem actingOnReport_noticed (ho : o.Lawful (N := N) (C := C))
    (hb : Pipe.Below (W := Host N C) o.base Tcp.Advanced) {events : SocketEvents}
    {report : PipeEvents} {pipe : P} (hs : PipesAtWork o b w.reactor) (hf : BlockedWhileQueued b)
    (hk : ∀ src, CanRelay src b →
      src = s ∧ events.readable = true ∨ w.reactor.WillBeTold (b.fdOf o src))
    (h : Pipe.react events (b.side s).pipe w = .ok (report, pipe, w'))
    (hbroken : report.broken = false) :
    ActingOnReport o s report (b.setSide s { b.side s with pipe }) w'.reactor ∧
      (∀ d, (b.setSide s { b.side s with pipe }).fdOf o d = b.fdOf o d) ∧
      ∀ d, w.reactor.Retained (b.fdOf o d) w'.reactor := by
  have hi := ho.react (hs.regular s) h hbroken
  obtain ⟨hwork, hfd, hretained⟩ := pipesAtWork_setSide s { b.side s with pipe } hs
    (hb.react h) hi.regular (fun hn hc => hs.unclosed s hn (hi.closing.mp hc))
  -- the pipe of the side may be told, but no registration is lost by that
  have htell : ∀ {d : Side}, w.reactor.WillBeTold (b.fdOf o d) →
      w'.reactor.WillBeTold ((b.setSide s { b.side s with pipe }).fdOf o d) := by
    intro d hw
    rw [hfd]
    exact hw.retained (hretained d)
  refine ⟨⟨hwork, ?_, ?_, ?_, ?_, ?_⟩, hfd, hretained⟩
  · simpa using hf s.peer
  · rw [side_setSide]
    intro hn hw
    rcases hi.writable hw with hold | hreport
    · rw [hf s hn] at hold
      cases hold
    · exact hreport
  · rw [side_setSide]
    exact hi.reported
  · rintro ⟨hread, hwrite⟩
    rw [side_setSide] at hread
    rw [side_setSide_peer] at hwrite
    obtain ⟨hready, hfin⟩ := ho.flowing hi.regular hread
    rcases hi.readable hread with hold | hreport
    · rcases hk s ⟨hold, hwrite⟩ with ⟨_, hevents⟩ | hw
      · exact .inl (hi.told hevents hready hfin)
      · exact .inr (htell hw)
    · exact .inl hreport
  · rintro ⟨hread, hwrite⟩
    rw [side_setSide_peer] at hread
    rw [Side.peer_peer, side_setSide] at hwrite
    rcases hi.writable hwrite with hold | hreport
    · rcases hk s.peer ⟨hread, by rwa [Side.peer_peer]⟩ with ⟨hsame, _⟩ | hw
      · exact absurd hsame (Side.peer_ne s)
      · exact .inr (htell hw)
    · exact .inl hreport

/-- An activity leaves a bridge that lives on waiting for nothing in vain. -/
theorem unstalled_acted (ho : o.Lawful (N := N) (C := C))
    (hb : Pipe.Below (W := Host N C) o.base Tcp.Advanced) {events : SocketEvents}
    {ending : Option Bool} (hs : PipesAtWork o b w.reactor) (hf : BlockedWhileQueued b)
    (hk : ∀ src, CanRelay src b →
      src = s ∧ events.readable = true ∨ w.reactor.WillBeTold (b.fdOf o src))
    (hd : b.dead = false) (h : Acted s events b w ending b' w') :
    b'.dead = true ∨ Unstalled o b' w'.reactor ∧ (∀ d, b'.fdOf o d = b.fdOf o d) ∧
      ∀ d, w.reactor.Retained (b.fdOf o d) w'.reactor := by
  cases h with
  | ignored hdead => exact absurd (hd.symm.trans hdead) Bool.false_ne_true
  | failed | closed => exact .inl rfl
  | @lives report pipe _ w₁ _ _ hr hh =>
    have hbroken : report.broken = false := by
      generalize hresult : (Except.ok () : PipeResult Unit) = result at hh
      cases hh with
      | broken => cases hresult
      | failed hb => exact hb
      | done hb => exact hb
    obtain ⟨halerted, hfd, hretained⟩ := actingOnReport_noticed ho hb hs hf hk hr hbroken
    obtain ⟨he, hwatched⟩ := unstalled_handled ho hb halerted hh
    refine .inr ⟨hwatched, fun d => (he.fd d).trans (hfd d), ?_⟩
    intro d
    have hlater := he.retained d
    rw [hfd d] at hlater
    exact (hretained d).trans hlater

end Bridge

end DuplexRelay
