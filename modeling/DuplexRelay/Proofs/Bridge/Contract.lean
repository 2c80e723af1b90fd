import DuplexRelay.Proofs.Bridge.FinOrder
import DuplexRelay.Proofs.Bridge.Orderly

/-! Activities of a bridge come to a result. There are two exceptions, and the bridge is to blame
for neither: a socket that yields more than it announced, and a receive size for which no buffer can
be had. -/

namespace DuplexRelay

open Outlook (LeavesUsable)

/-- An activity may be stopped by this: a receive asks for more than `fits`, or a network does not
keep to what it announced, so that there is more to be relayed than was counted. -/
def Exempt (N : Type) [Sockets N] (fits : Nat → Prop) (size : Nat) (v : Violation) : Prop :=
  v = .backlogExceeded ∧ ¬Sockets.AsAnnounced N ∨ v = .capacityExceeded ∧ ¬fits size

namespace Bridge

variable {P N C : Type} [Sockets N] [Pipe P (Host N C) C] {o : Outlook (Logged P)}
  {own : Fd → Prop} {size : Nat} {fits : Nat → Prop} {b b' : Bridge (Logged P)} {w w' : Host N C}
  {s src dst : Side} {v : Violation} (h : Pipe.Dependable (N := N) (C := C) o fits)
include h

theorem flush_eq_ok (hb : b.Fit o own w.reactor)
    (hwrite : (state (b.side dst).pipe).isWritable = true) : ∃ x, b.flush dst w = .ok x := by
  have hx := hb dst
  unfold flush
  dsimp only
  cases hq : (b.side dst).pending with
  | none => exact ⟨_, rfl⟩
  | some queue =>
    obtain ⟨⟨result, pipe, w₁⟩, hs⟩ :=
      h.send_ok queue.live hx.regular (hx.not_closing h hwrite) hx.listed
    dsimp only
    rw [hs]
    rcases result with (_ | _ | _ | _) | n
    · exact ⟨_, rfl⟩
    · exact ⟨_, rfl⟩
    · exact ⟨_, rfl⟩
    · exact ⟨_, rfl⟩
    simp only [Checked.ok_bind]
    split
    · rename_i hn
      obtain ⟨rest, hrest, _⟩ := ByteBuffer.consume_eq_ok (Nat.le_of_lt hn)
      rw [hrest]
      exact ⟨_, rfl⟩
    · split
      · obtain ⟨hfit, hopen⟩ := hx.sent h hwrite hs nofun none (b.side dst).traffic
        obtain ⟨x, hx⟩ := h.sendFin_ok hfit.regular hopen hfit.listed
        rw [hx]
        exact ⟨_, rfl⟩
      · exact ⟨_, rfl⟩

theorem deliver_eq_ok (dst : Side) (hx : (b.side dst).Fit o own w.reactor)
    (hwrite : (state (b.side dst).pipe).isWritable = true) (chunk : Bytes) :
    ∃ x, b.deliver dst chunk w = .ok x := by
  obtain ⟨⟨result, pipe, w₁⟩, hs⟩ :=
    h.send_ok chunk hx.regular (hx.not_closing h hwrite) hx.listed
  unfold deliver
  dsimp only
  rw [hs]
  simp only [Checked.ok_bind]
  split
  · exact ⟨_, rfl⟩
  · split
    · exact ⟨_, rfl⟩
    · exact ⟨_, rfl⟩

/-- A transfer passes over no queue, and both pipes are asked for what they can be asked for. -/
theorem transfer_eq_ok (hb : b.Fit o own w.reactor) (hp : b.Proper size) (hh : CanRelay src b) :
    (∃ x, b.transfer src w = .ok x) ∨
      b.transfer src w = .error .capacityExceeded ∧ ¬fits size := by
  obtain ⟨hread, hwrite⟩ := hh
  have hx := hb src
  have hnone : (b.side src.peer).pending = none := by
    by_contra hq
    have hfull := (hp src.peer).full hq
    rw [hwrite] at hfull
    cases hfull
  unfold transfer
  rw [hnone, if_neg (by simp)]
  dsimp only
  rcases h.recv_ok (b.side src).recvSize hx.regular hx.listed with
    ⟨⟨result, pipe, w₁⟩, hr⟩ | ⟨hlarge, hfits⟩
  · left
    have hpeer := (hb src.peer).registrationsKept (h.below.recv hr).registrationsKept
    rw [hr]
    rcases result with (_ | _ | _ | _) | (chunk | _)
    · exact ⟨_, rfl⟩
    · exact ⟨_, rfl⟩
    · exact ⟨_, rfl⟩
    · exact ⟨_, rfl⟩
    · simp only [Checked.ok_bind, setPipe_eq, side_setSide, setSide_setSide]
      have hsame (new : BridgeSide (Logged P)) := side_setSide_peer b src new
      obtain ⟨x, hd⟩ := deliver_eq_ok h src.peer ((hsame _).symm ▸ hpeer)
        ((hsame _).symm ▸ hwrite) chunk
      rw [hd]
      exact ⟨_, rfl⟩
    · simp only [Checked.ok_bind, setPipe_eq, side_setSide_peer]
      obtain ⟨x, hc⟩ := h.sendFin_ok hpeer.regular (hpeer.not_closing h hwrite) hpeer.listed
      rw [hc]
      exact ⟨_, rfl⟩
  · right
    rw [hlarge]
    exact ⟨rfl, fun hsize => hfits (h.smaller (hp src).within hsize)⟩

/-- A transfer that leaves the source readable takes from what its backlog counts. -/
theorem backlog_transferred (hN : Sockets.AsAnnounced N) {n : Nat} (hb : b.Fit o own w.reactor)
    (hreceives : 0 < (b.side src).recvSize) (hh : CanRelay src b)
    (ht : Transferred src b w (.ok n) b' w')
    (hread : (state (b'.side src).pipe).isReadable = true) :
    Pipe.backlog (b'.side src).pipe w' < Pipe.backlog (b.side src).pipe w := by
  have hx := hb src
  have hdepleting := h.depleting hN
  have hless {pipe : Logged P} {w₁ : Host N C} {answer : PipeResult Recv}
      (hr : Pipe.recv (b.side src).recvSize (b.side src).pipe w = .ok (answer, pipe, w₁))
      (hm : LeavesUsable answer) (hread : (state pipe).isReadable = true)
      (he : w₁.NothingArrives w') :
      Pipe.backlog pipe w' < Pipe.backlog (b.side src).pipe w := by
    have hregular := (h.received hx.regular hh.1 hr hm).regular
    have hebbing := hdepleting.nothingArrives hregular he
    have htaken := hdepleting.recv hx.regular hh.1 hreceives hr hm hread
    omega
  generalize hresult : (Except.ok n : PipeResult Nat) = result at ht
  cases ht with
  | failed | undeliverable => cases hresult
  | dry _ hr =>
    rw [side_setSide] at hread ⊢
    exact hless hr (by rintro e ⟨⟩; rfl) hread fun _ => Nat.le_refl _
  | ended _ hr hc =>
    rw [side_setSide_of_peer, side_setSide] at hread ⊢
    exact hless hr nofun hread ((h.nothingArrives hN).sendFin hc)
  | relayed _ hr hs | congested _ hr hs =>
    rw [side_setSide_of_peer, side_setSide] at hread ⊢
    exact hless hr nofun hread ((h.nothingArrives hN).send hs)

/-- The number of receives that are made is not what relaying is stopped by, if the backlog is
within it. -/
theorem relayWithin_error {fuel n : Nat} (hb : b.Fit o own w.reactor) (hp : b.Proper size)
    (hfuel : Sockets.AsAnnounced N → CanRelay src b → Pipe.backlog (b.side src).pipe w ≤ fuel)
    (hv : relayWithin src fuel n b w = .error v) : Exempt N fits size v := by
  induction fuel generalizing n b w with
  | zero =>
    unfold relayWithin at hv
    cases hverdict : b.verdict src n with
    | stop | yield => simp [hverdict] at hv
    | go =>
      simp only [hverdict, Except.error.injEq] at hv
      refine .inl ⟨hv.symm, fun hN => ?_⟩
      have hnone := hfuel hN (canRelay_of_verdict hverdict)
      have hlasting := (h.depleting hN).lasting w (hb src).regular
      omega
  | succ fuel ih =>
    unfold relayWithin at hv
    cases hverdict : b.verdict src n with
    | stop | yield => simp [hverdict] at hv
    | go =>
      have hh := canRelay_of_verdict hverdict
      simp only [hverdict] at hv
      rcases transfer_eq_ok h hb hp hh with ⟨⟨result, b₁, w₁⟩, ht⟩ | ⟨hlarge, hfits⟩
      · rw [ht] at hv
        cases result with
        | error e => cases hv
        | ok k =>
          obtain ⟨hp₁, hb₁⟩ := proper_transferred h hb hp hh (transferred ht)
          refine ih (hb₁ rfl) hp₁ (fun hN hh₁ => ?_) hv
          have hbefore := hfuel hN hh
          have hless := backlog_transferred h hN hb (hp src).receives hh (transferred ht) hh₁.1
          omega
      · rw [hlarge] at hv
        cases hv
        exact .inr ⟨rfl, hfits⟩

theorem relay_error (hb : b.Fit o own w.reactor) (hp : b.Proper size)
    (hv : b.relay src w = .error v) : Exempt N fits size v :=
  relayWithin_error h hb hp (fun _ _ => Nat.le_refl _) hv

theorem readPhase_error {report : PipeEvents} (hb : b.Fit o own w.reactor) (hp : b.Proper size)
    (hv : (if report.readable && (state (b.side s.peer).pipe).isWritable then b.relay s w
      else pure (.ok (), b, w) : Checked _) = .error v) : Exempt N fits size v := by
  split at hv
  · exact relay_error h hb hp hv
  · cases hv

theorem handle_error {report : PipeEvents}
    (ht : report.broken = false → HandlingReport o own size s report b w.reactor)
    (hv : b.handle s report w = .error v) : Exempt N fits size v := by
  unfold handle at hv
  split at hv
  · cases hv
  rename_i hbroken
  replace ht := ht (by simpa using hbroken)
  dsimp only at hv
  split at hv
  · rename_i hw
    obtain ⟨⟨result, b₁, w₁⟩, hf⟩ := flush_eq_ok h ht.fit (ht.writable hw)
    obtain ⟨hp₁, hb₁⟩ := proper_flushed h ht.fit ht.peer ht.orderly (ht.writable hw) (flushed hf)
    rw [hf] at hv
    cases result with
    | error e => cases hv
    | ok _ =>
      simp only [Checked.ok_bind] at hv
      split at hv
      · rcases Checked.bind_eq_error_iff.mp hv with hrelay | ⟨⟨result, b₂, w₂⟩, hrelay, hv⟩
        · exact relay_error h (hb₁ rfl) hp₁ hrelay
        · obtain ⟨hp₂, hb₂⟩ := proper_relayed h (hb₁ rfl) hp₁ (relayed hrelay)
          cases result with
          | error e => cases hv
          | ok _ => exact readPhase_error h (hb₂ rfl) hp₂ hv
      · exact readPhase_error h (hb₁ rfl) hp₁ hv
  · rename_i hw
    exact readPhase_error h ht.fit (ht.proper (by simpa using hw)) hv

theorem onActivity_error {events : SocketEvents} (hp : b.Proper size)
    (hb : b.dead = false → b.Fit o own w.reactor)
    (hv : b.onActivity s events w = .error v) : Exempt N fits size v := by
  unfold onActivity at hv
  split at hv
  · cases hv
  rename_i hd
  replace hb := hb (by simpa using hd)
  obtain ⟨⟨report, pipe, w₁⟩, hr⟩ := h.react_ok events (hb s).regular (hb s).listed
  rw [hr] at hv
  simp only [Checked.ok_bind] at hv
  rcases Checked.bind_eq_error_iff.mp hv with hhandle | ⟨⟨result, b₁, w₂⟩, _, hv⟩
  · exact handle_error h (handlingReport_noticed h hb hp hr).2 hhandle
  · cases result with
    | error e => cases hv
    | ok _ =>
      dsimp only at hv
      split at hv
      · cases hv
      · cases hv

theorem course_error {activities : List (Activity (Host N C))}
    (hm : ∀ a ∈ activities, a.Spares own) (hp : b.Proper size)
    (hb : b.dead = false → b.Fit o own w.reactor)
    (hv : course activities b w = .error v) : Exempt N fits size v := by
  induction activities generalizing b w with
  | nil => cases hv
  | cons a rest ih =>
    have hspares := hm a List.mem_cons_self
    unfold course at hv
    rcases Checked.bind_eq_error_iff.mp hv with hact | ⟨⟨ending, b', w'⟩, hact, hv⟩
    · exact onActivity_error h hp (fun hd => (hb hd).meanwhile hspares) hact
    · obtain ⟨hp', hb'⟩ := proper_acted h hp (fun hd => (hb hd).meanwhile hspares) (acted hact)
      rcases Checked.bind_eq_error_iff.mp hv with hlater | ⟨later, _, hv⟩
      · exact ih (fun a ha => hm a (List.mem_cons_of_mem _ ha)) hp' hb' hlater
      · cases hv

end Bridge

namespace BridgeSide

variable {P N C : Type}

/-- A side that nothing was done with yet. -/
structure Untouched (o : Outlook (Logged P)) (own : Fd → Prop) (size : Nat)
    (x : BridgeSide (Logged P)) : Prop where
  regular : o.regular x.pipe
  unattached : (o.base x.pipe).attached = false
  own : own (o.base x.pipe).fd
  pending : x.pending = none
  calls : x.pipe.calls = []
  receives : 0 < x.recvSize
  within : x.recvSize ≤ size

variable {o : Outlook (Logged P)} {own : Fd → Prop} {size : Nat} {x : BridgeSide (Logged P)}
  {fits : Nat → Prop} {l : Logged P} {w w' : Host N C}

theorem Untouched.proper [HasPipeState P] (hx : x.Untouched o own size) : x.Proper size where
  calls := by
    rw [hx.calls]
    exact List.Pairwise.nil
  chunks := by
    rw [hx.calls]
    exact fun chunk hmem => absurd hmem List.not_mem_nil
  receives := hx.receives
  within := hx.within
  full hq := absurd hx.pending hq

theorem Untouched.fit (hx : x.Untouched o own size) (r : Reactor C) : x.Fit o own r where
  regular := hx.regular
  listed hattached := absurd (hx.unattached.symm.trans hattached) Bool.false_ne_true
  own := hx.own
  unclosed hq := absurd hx.pending hq
  requested := by
    rw [hx.calls]
    exact fun c hc => absurd hc List.not_mem_nil

theorem Untouched.attached [Sockets N] [Pipe P (Host N C) C]
    (h : Pipe.Dependable (N := N) (C := C) o fits) (hx : x.Untouched o own size)
    (hw : w.reactor.registrations.WellFormed) {callback : C} {result : Except Failure Unit}
    (ha : Pipe.attach callback x.pipe w = .ok (result, l, w')) :
    (Proper size { x with pipe := l } ∧ Fit o own w'.reactor { x with pipe := l }) ∧
      w.reactor.RegistrationsKept w'.reactor ∧ w'.reactor.registrations.WellFormed := by
  obtain ⟨hregular, _, hbase⟩ := h.attached hx.regular ha
  obtain ⟨hlisted, hfd, hkeeps, hw'⟩ := Tcp.listed_enrolled hw (Tcp.enrolled hbase)
  have hcalls := Logged.calls_attach ha
  have horderly := hx.proper.noted hcalls (.inl rfl) nofun x.pending x.traffic
  refine ⟨⟨⟨horderly, fun hq => absurd hx.pending hq⟩, ?_⟩, hkeeps, hw'⟩
  refine ⟨hregular, hlisted, hfd ▸ hx.own, fun hq => absurd hx.pending hq, ?_⟩
  rw [hcalls, hx.calls]
  exact PipeCall.forall_mem_snoc (fun c hc => absurd hc List.not_mem_nil) nofun

end BridgeSide

namespace Bridge

section Registered

variable {P N C : Type} [Sockets N] [Pipe P (Host N C) C] {o : Outlook (Logged P)}
  {own : Fd → Prop} {size : Nat} {fits : Nat → Prop} {b b' : Bridge (Logged P)} {w w' : Host N C}

theorem proper_attached (h : Pipe.Dependable (N := N) (C := C) o fits)
    (hb : ∀ s, (b.side s).Untouched o own size) (hw : w.reactor.registrations.WellFormed)
    {callback : Side → C} {result : Except Failure Unit}
    (ha : Attached callback b w result b' w') : b'.Proper size ∧ b'.Fit o own w'.reactor := by
  cases ha with
  | refused _ hl =>
    obtain ⟨⟨hproper, hfit⟩, _⟩ := (hb .left).attached h hw hl
    exact ⟨forall_setSide (hb .right).proper hproper, forall_setSide ((hb .right).fit _) hfit⟩
  | done _ hl hr =>
    obtain ⟨⟨hproper, hfit⟩, _, hw₁⟩ := (hb .left).attached h hw hl
    obtain ⟨⟨hproper', hfit'⟩, hkeeps, _⟩ := (hb .right).attached h hw₁ hr
    exact ⟨forall_setSides (s := .left) hproper hproper',
      forall_setSides (s := .left) (hfit.registrationsKept hkeeps) hfit'⟩

end Registered

open Relay (Link)

theorem IsNew.unattached {p : Link} (h : IsNew p) :
    Stack.linkOutlook.regular p ∧ p.base.attached = false := by
  have hregular := h.unended.regular
  obtain ⟨tcp, ⟨_, _, hattached⟩, rfl | ⟨maxSize, rfl⟩⟩ := h.shape
  · exact ⟨⟨⟨.inl rfl, trivial⟩, hregular⟩, hattached⟩
  · refine ⟨⟨⟨.inr rfl, trivial, ?_⟩, hregular⟩, hattached⟩
    rintro (hqueue | hwanted)
    · exact absurd rfl hqueue
    · cases hwanted

theorem recvSize_of_between {P : Type} {left right : P} {config : BridgeConfig} {b : Bridge P}
    (h : between left right config = .ok (.ok b)) (s : Side) :
    0 < (b.side s).recvSize ∧ (b.side s).recvSize ≤ config.bufferSize := by
  have hvalid : config.validate = .ok () := by
    cases hv : config.validate with
    | error e => simp [between, hv] at h
    | ok => rfl
  rw [between_eq_ok h]
  unfold BridgeConfig.validate at hvalid
  split at hvalid
  · cases hvalid
  · rename_i hsizes
    unfold BridgeConfig.bufferSize
    cases s
    · exact ⟨by simp only [side]; omega, Nat.le_max_left _ _⟩
    · exact ⟨by simp only [side]; omega, Nat.le_max_right _ _⟩

/-- The sockets of the two connections. -/
def sockets (left right : Link) (fd : Fd) : Prop := fd = left.base.fd ∨ fd = right.base.fd

theorem untouched_of_between {left right : Link} {config : BridgeConfig} {b : Bridge (Logged Link)}
    (hl : IsNew left) (hr : IsNew right)
    (hb : between (Logged.fresh left) (.fresh right) config = .ok (.ok b)) (s : Side) :
    (b.side s).Untouched (Stack.linkOutlook.erased Logged.pipe) (sockets left right)
      config.bufferSize := by
  obtain ⟨hreceives, hwithin⟩ := recvSize_of_between hb s
  rw [between_eq_ok hb] at hreceives hwithin ⊢
  cases s with
  | left => exact ⟨hl.unattached.1, hl.unattached.2, .inl rfl, rfl, rfl, hreceives, hwithin⟩
  | right => exact ⟨hr.unattached.1, hr.unattached.2, .inr rfl, rfl, rfl, hreceives, hwithin⟩

section Links

variable {N C : Type} [Sockets N] [LawfulSockets N]

/-- Once a bridge over new connections is registered, it is in order and fit to go on, with logs of
its calls that are left out again. -/
theorem logged_of_attached {left right : Link} {config : BridgeConfig} {callback : Side → C}
    {b b₁ : Bridge Link} {w w₁ : Host N C} {result : Except Failure Unit} (hl : IsNew left)
    (hr : IsNew right) (hb : between left right config = .ok (.ok b))
    (hw : w.reactor.registrations.WellFormed) (ha : b.attach callback w = .ok (result, b₁, w₁)) :
    ∃ r : Bridge (Logged Link), r.mapPipes Logged.pipe = b₁ ∧ r.Proper config.bufferSize ∧
      r.Fit (Stack.linkOutlook.erased Logged.pipe) (sockets left right) w₁.reactor := by
  have herases : Pipe.Erases (Host N C) (Logged.pipe : Logged Link → Link) := Logged.erases
  have hlinks := (Stack.link_dependable (N := N) (C := C)).erased herases
  obtain ⟨r, hnew, rfl⟩ := between_mapPipes Logged.pipe (.fresh left) (.fresh right) hb
  rw [attach_mapPipes herases] at ha
  obtain ⟨⟨_, r₁, _⟩, hattach, heq⟩ := Checked.map_eq_ok_iff.mp ha
  simp only [Prod.mk.injEq] at heq
  obtain ⟨rfl, rfl, rfl⟩ := heq
  obtain ⟨hproper, hfit⟩ :=
    proper_attached hlinks (untouched_of_between hl hr hnew) hw (attached hattach)
  exact ⟨r₁, rfl, hproper, hfit⟩

/-- A bridge over new connections keeps to the rules of their pipes, whatever the sockets do, and
whenever it is told of readiness. No activity is stopped, unless a socket yields more than was
announced, or there can be no buffer for what is received at once. Behind a request to close a side,
nothing is sent to it, and it is not closed again. What a side receives fits into the buffer that
both directions share. Between activities, what is queued for a side is queued because the pipe of
that side is not writable. The calls are those of a run over logged pipes, which is the same run. -/
theorem keeps_to_contract {left right : Link} {config : BridgeConfig} {callback : Side → C}
    {activities : List (Activity (Host N C))} {b b₁ : Bridge Link} {w w₁ : Host N C}
    {result : Except Failure Unit} (hl : IsNew left) (hr : IsNew right)
    (hb : between left right config = .ok (.ok b)) (hw : w.reactor.registrations.WellFormed)
    (ha : b.attach callback w = .ok (result, b₁, w₁))
    (hm : ∀ a ∈ activities, a.Spares (sockets left right)) :
    (∀ v, course activities b₁ w₁ = .error v →
      v = .backlogExceeded ∧ ¬Sockets.AsAnnounced N ∨
      v = .capacityExceeded ∧ ¬Datagram.Holdable config.bufferSize) ∧
    ∀ episodes, course activities b₁ w₁ = .ok episodes →
      (∀ e ∈ episodes, BlockedWhileQueued e.after) ∧
      ∃ (r r₁ : Bridge (Logged Link)) (logged : List (Episode (Logged Link) (Host N C))),
        between (Logged.fresh left) (.fresh right) config = .ok (.ok r) ∧
        r.attach callback w = .ok (result, r₁, w₁) ∧ course activities r₁ w₁ = .ok logged ∧
        logged.map (Episode.map Logged.pipe) = episodes ∧
        ∀ e ∈ logged, ∀ s, (e.after.side s).Orderly config.bufferSize := by
  have herases : Pipe.Erases (Host N C) (Logged.pipe : Logged Link → Link) := Logged.erases
  have hlinks := (Stack.link_dependable (N := N) (C := C)).erased herases
  obtain ⟨r, hnew, rfl⟩ := between_mapPipes Logged.pipe (.fresh left) (.fresh right) hb
  rw [attach_mapPipes herases] at ha
  obtain ⟨⟨_, r₁, _⟩, hattach, heq⟩ := Checked.map_eq_ok_iff.mp ha
  simp only [Prod.mk.injEq] at heq
  obtain ⟨rfl, rfl, rfl⟩ := heq
  obtain ⟨hproper, hfit⟩ :=
    proper_attached hlinks (untouched_of_between hl hr hnew) hw (attached hattach)
  rw [course_mapPipes herases]
  refine ⟨fun v hv => ?_, fun episodes hc => ?_⟩
  · exact course_error hlinks hm hproper (fun _ => hfit) (Checked.map_eq_error_iff.mp hv)
  · obtain ⟨logged, hlogged, rfl⟩ := Checked.map_eq_ok_iff.mp hc
    have hall := proper_course hlinks hm hproper (fun _ => hfit) hlogged
    refine ⟨?_, r, r₁, logged, hnew, hattach, hlogged, rfl, fun e he s => (hall e he s).toOrderly⟩
    intro episode hmem s
    obtain ⟨e, he, rfl⟩ := List.mem_map.mp hmem
    change ((e.after.mapPipes Logged.pipe).side s).pending ≠ none →
      (state ((e.after.mapPipes Logged.pipe).side s).pipe).isWritable = false
    rw [side_mapPipes]
    exact (hall e he s).full

end Links

/-- A life in which bytes and then the end of the stream are passed on to the side that frames them,
none of whose activities is stopped. -/
theorem keeps_to_contract_framed :
    IsNew (.bare (.connected 3)) ∧ IsNew framedLink ∧
    between (.bare (.connected 3)) framedLink {} = .ok (.ok framingBridge) ∧
    (∀ a ∈ endingActivities, a.Spares (sockets (.bare (.connected 3)) framedLink)) ∧
    ∃ (episodes : List (Episode Link (Host SocketPairs Side)))
      (logged : List (Episode (Logged Link) (Host SocketPairs Side))),
      endingCourse = .ok episodes ∧ episodes.map Episode.ending = [none, none, some true] ∧
        (∀ e ∈ episodes, BlockedWhileQueued e.after) ∧
        logged.map (Episode.map Logged.pipe) = episodes ∧
        ∀ e ∈ logged, ∀ s, (e.after.side s).Orderly 8192 := by
  have hl : IsNew (.bare (.connected 3)) := ⟨3, false, 0, .inr rfl⟩
  have hr : IsNew framedLink := ⟨4, true, 1024, .inr rfl⟩
  have hnew : between (.bare (.connected 3)) framedLink {} = .ok (.ok framingBridge) := rfl
  have hspares : ∀ a ∈ endingActivities, a.Spares (sockets (.bare (.connected 3)) framedLink) := by
    simp only [endingActivities, List.forall_mem_cons]
    exact ⟨fun _ _ _ => id, fun _ _ _ => id, fun _ _ _ => id, nofun⟩
  refine ⟨hl, hr, hnew, hspares, ?_⟩
  have hattached : ∃ x, framingBridge.attach id pairedHost = .ok x := ⟨_, rfl⟩
  obtain ⟨⟨result, b, w⟩, ha⟩ := hattached
  have hempty : pairedHost.reactor.registrations.WellFormed := OrderedMap.wellFormed_empty
  obtain ⟨hstopped, hkept⟩ := keeps_to_contract hl hr hnew hempty ha hspares
  cases hrun : course endingActivities b w with
  | error v =>
    rcases hstopped v hrun with ⟨_, hmore⟩ | ⟨_, hlarge⟩
    · exact absurd SocketPairs.asAnnounced hmore
    · exact absurd (show Varint.maxLength + 8192 ≤ ByteBuffer.maxCapacity by decide) hlarge
  | ok episodes =>
    obtain ⟨hfull, _, _, logged, _, _, _, hmap, horderly⟩ := hkept episodes hrun
    have hcourse : endingCourse = .ok episodes := by
      simp only [endingCourse, ha, Checked.ok_bind, hrun]
    have hfigures := endingCourse_figures
    simp only [hcourse, Except.toOption, Option.map_some, Option.some.injEq] at hfigures
    refine ⟨episodes, logged, hcourse, ?_, hfull, hmap, horderly⟩
    have hendings := congrArg (List.map Prod.fst) hfigures
    rwa [List.map_map] at hendings

end Bridge

end DuplexRelay
