import DuplexRelay.Proofs.Bridge.Lifecycle
import DuplexRelay.Proofs.Bridge.Waking
import DuplexRelay.Proofs.Pipe.Dependable

/-! A bridge keeps to the rules of its pipes. Nothing goes to a side behind the request to close it,
and a side that something is queued for takes nothing. That holds after each operation of a bridge,
also after one that the bridge does not survive. -/

namespace DuplexRelay

open Outlook (LeavesUsable)

namespace PipeCall

/-- A request to close the way out, whatever the answer. -/
def closes : PipeCall → Bool
  | closed _ => true
  | _ => false

/-- Not to be asked of a pipe behind a request to close the way out. -/
def outgoing : PipeCall → Bool
  | sent _ _ => true
  | closed _ => true
  | _ => false

/-- Nothing is sent behind a request to close the way out, and that is not asked for again. -/
def Orderly (calls : List PipeCall) : Prop :=
  calls.Pairwise fun earlier later => earlier.closes = true → later.outgoing = false

variable {calls : List PipeCall} {call : PipeCall}

theorem Orderly.snoc (h : Orderly calls)
    (hnew : call.outgoing = false ∨ ∀ c ∈ calls, c.closes = false) :
    Orderly (calls ++ [call]) := by
  refine List.pairwise_append.mpr ⟨h, List.pairwise_singleton _ call, fun c hc d hd hcloses => ?_⟩
  rw [List.mem_singleton.mp hd]
  rcases hnew with hincoming | hopen
  · exact hincoming
  · exact absurd ((hopen c hc).symm.trans hcloses) Bool.false_ne_true

theorem forall_mem_snoc {Q : PipeCall → Prop} (h : ∀ c ∈ calls, Q c) (hcall : Q call) :
    ∀ c ∈ calls ++ [call], Q c := by
  intro c hc
  rcases List.mem_append.mp hc with hc | hc
  · exact h c hc
  · rwa [List.mem_singleton.mp hc]

end PipeCall

/-- Nobody takes these registrations away before the bridge is told of readiness, unless the whole
reactor goes. -/
def Activity.Spares {N C : Type} (own : Fd → Prop) (a : Activity (Host N C)) : Prop :=
  ∀ (fd : Fd) (w : Host N C), own fd → w.reactor.Knows fd → (a.meanwhile w).reactor.Knows fd

namespace BridgeSide

variable {P N C : Type}

/-- The calls of a side are in order. It receives some bytes at a time, but not more than `size`,
and is never given more than it asked for. -/
structure Orderly (size : Nat) (x : BridgeSide (Logged P)) : Prop where
  calls : PipeCall.Orderly x.pipe.calls
  chunks : ∀ chunk, .received (.ok (.data chunk)) ∈ x.pipe.calls → chunk.length ≤ x.recvSize
  receives : 0 < x.recvSize
  within : x.recvSize ≤ size

/-- What is queued for a side is queued because its pipe takes nothing. -/
structure Proper [HasPipeState P] (size : Nat) (x : BridgeSide (Logged P)) : Prop extends
    Orderly size x where
  full : x.pending ≠ none → (state x.pipe).isWritable = false

/-- A side whose pipe can be depended on. It uses a descriptor of its own. -/
structure Fit (o : Outlook (Logged P)) (own : Fd → Prop) (r : Reactor C)
    (x : BridgeSide (Logged P)) : Prop where
  regular : o.regular x.pipe
  listed : (o.base x.pipe).Listed r
  own : own (o.base x.pipe).fd
  unclosed : x.pending ≠ none → ¬o.closing x.pipe
  requested : ∀ c ∈ x.pipe.calls, c.closes = true → o.closing x.pipe

variable {o : Outlook (Logged P)} {own : Fd → Prop} {size : Nat} {x : BridgeSide (Logged P)}
  {fits : Nat → Prop} {l : Logged P} {r r' : Reactor C} {w w' : Host N C}

theorem Orderly.noted {call : PipeCall} (hx : x.Orderly size)
    (hl : l.calls = x.pipe.calls ++ [call])
    (hnew : call.outgoing = false ∨ ∀ c ∈ x.pipe.calls, c.closes = false)
    (hchunk : ∀ chunk, call = .received (.ok (.data chunk)) → chunk.length ≤ x.recvSize)
    (pending : Option ByteBuffer) (traffic : Traffic) :
    Orderly size { x with pipe := l, pending, traffic } where
  calls := by
    rw [hl]
    exact hx.calls.snoc hnew
  chunks := by
    intro chunk hmem
    rw [hl] at hmem
    rcases List.mem_append.mp hmem with hmem | hmem
    · exact hx.chunks chunk hmem
    · exact hchunk chunk (List.mem_singleton.mp hmem).symm
  receives := hx.receives
  within := hx.within

theorem Fit.registrationsKept (hx : x.Fit o own r) (hr : r.RegistrationsKept r') : x.Fit o own r' :=
  { hx with listed := hx.listed.registrationsKept hr }

theorem Fit.unrequested (hx : x.Fit o own r) (hopen : ¬o.closing x.pipe) :
    ∀ c ∈ x.pipe.calls, c.closes = false := by
  intro c hc
  rw [← Bool.not_eq_true]
  exact fun hcloses => hopen (hx.requested c hc hcloses)

theorem Fit.sameSocket (hx : x.Fit o own w.reactor)
    (ho : Tcp.SameSocket (o.base x.pipe) w (o.base l) w') (hregular : o.regular l)
    (pending : Option ByteBuffer) (traffic : Traffic) (hunclosed : pending ≠ none → ¬o.closing l)
    (hrequested : ∀ c ∈ l.calls, c.closes = true → o.closing l) :
    Fit o own w'.reactor { x with pipe := l, pending, traffic } where
  regular := hregular
  listed := hx.listed.sameSocket ho
  own := ho.fd ▸ hx.own
  unclosed := hunclosed
  requested := hrequested

theorem Orderly.closed [Pipe P (Host N C) C] (hx : x.Orderly size) (hf : x.Fit o own w.reactor)
    (hopen : ¬o.closing x.pipe) {result : PipeResult FinStatus}
    (hc : Pipe.sendFin x.pipe w = .ok (result, l, w')) : Orderly size { x with pipe := l } :=
  hx.noted (Logged.calls_sendFin hc) (.inr (hf.unrequested hopen)) nofun x.pending x.traffic

theorem Orderly.noticed [Pipe P (Host N C) C] (hx : x.Orderly size) {events : SocketEvents}
    {report : PipeEvents} (hr : Pipe.react events x.pipe w = .ok (report, l, w')) :
    Orderly size { x with pipe := l } :=
  hx.noted (Logged.calls_react hr) (.inl rfl) nofun x.pending x.traffic

variable [Sockets N] [Pipe P (Host N C) C] (h : Pipe.Dependable (N := N) (C := C) o fits)
include h

theorem Fit.not_closing (hx : x.Fit o own r) (hwrite : (state x.pipe).isWritable = true) :
    ¬o.closing x.pipe := by
  intro hc
  have hfull := h.shut hx.regular hc
  rw [hwrite] at hfull
  cases hfull

theorem Proper.received (hx : x.Proper size) (hf : x.Fit o own w.reactor)
    {result : PipeResult Recv} (hr : Pipe.recv x.recvSize x.pipe w = .ok (result, l, w'))
    (traffic : Traffic) : Proper size { x with pipe := l, traffic } where
  toOrderly := by
    refine hx.noted (Logged.calls_recv hr) (.inl rfl) ?_ x.pending traffic
    rintro chunk ⟨⟩
    exact h.within hf.regular hr
  full hq := (h.latching.received hr).full (hx.full hq)

theorem Fit.received (hx : x.Fit o own w.reactor) (hread : (state x.pipe).isReadable = true)
    {n : Nat} {result : PipeResult Recv} (hr : Pipe.recv n x.pipe w = .ok (result, l, w'))
    (hm : LeavesUsable result) (traffic : Traffic) :
    Fit o own w'.reactor { x with pipe := l, traffic } := by
  have hkept := h.received hx.regular hread hr hm
  refine hx.sameSocket (h.below.recv hr) hkept.regular x.pending traffic (fun hq hc => ?_) ?_
  · exact hx.unclosed hq (hkept.closing.mp hc)
  · rw [Logged.calls_recv hr]
    refine PipeCall.forall_mem_snoc (fun c hc hcloses => ?_) nofun
    exact hkept.closing.mpr (hx.requested c hc hcloses)

theorem Orderly.sent (hx : x.Orderly size) (hf : x.Fit o own w.reactor)
    (hwrite : (state x.pipe).isWritable = true) {data : Bytes} {result : PipeResult Nat}
    (hs : Pipe.send data x.pipe w = .ok (result, l, w')) (pending : Option ByteBuffer)
    (traffic : Traffic) : Orderly size { x with pipe := l, pending, traffic } :=
  hx.noted (Logged.calls_send hs) (.inr (hf.unrequested (hf.not_closing h hwrite))) nofun pending
    traffic

theorem Fit.sent (hx : x.Fit o own w.reactor) (hwrite : (state x.pipe).isWritable = true)
    {data : Bytes} {result : PipeResult Nat}
    (hs : Pipe.send data x.pipe w = .ok (result, l, w')) (hm : LeavesUsable result)
    (pending : Option ByteBuffer) (traffic : Traffic) :
    Fit o own w'.reactor { x with pipe := l, pending, traffic } ∧ ¬o.closing l := by
  have hkept := h.sent hx.regular hwrite hs hm
  have hopen := hx.not_closing h hwrite
  have hstill : ¬o.closing l := fun hc => hopen (hkept.closing.mp hc)
  refine ⟨hx.sameSocket (h.below.send hs) hkept.regular pending traffic (fun _ => hstill) ?_,
    hstill⟩
  rw [Logged.calls_send hs]
  refine PipeCall.forall_mem_snoc (fun c hc hcloses => ?_) nofun
  exact absurd (hx.requested c hc hcloses) hopen

theorem Fit.closed (hx : x.Fit o own w.reactor) {status : FinStatus}
    (hc : Pipe.sendFin x.pipe w = .ok (.ok status, l, w')) :
    Fit o own w'.reactor { x with pipe := l, pending := none } := by
  obtain ⟨hregular, hclosing⟩ := h.closed hx.regular hc
  exact hx.sameSocket (h.below.sendFin hc) hregular none x.traffic (fun hq => absurd rfl hq)
    fun _ _ _ => hclosing

/-- A side that was noticed, up to the flush that the report may ask for. -/
theorem Fit.noticed (hx : x.Fit o own w.reactor) {events : SocketEvents} {report : PipeEvents}
    (hr : Pipe.react events x.pipe w = .ok (report, l, w')) (hb : report.broken = false) :
    Fit o own w'.reactor { x with pipe := l } ∧
      (report.writable = true → (state l).isWritable = true) := by
  obtain ⟨hkept, hreport⟩ := h.reacted hx.regular hr hb
  refine ⟨hx.sameSocket (h.below.react hr) hkept.regular x.pending x.traffic (fun hq hc => ?_) ?_,
    hreport⟩
  · exact hx.unclosed hq (hkept.closing.mp hc)
  · rw [Logged.calls_react hr]
    refine PipeCall.forall_mem_snoc (fun c hc hcloses => ?_) nofun
    exact hkept.closing.mpr (hx.requested c hc hcloses)

end BridgeSide

namespace Bridge

variable {P N C : Type}

def Proper [HasPipeState P] (size : Nat) (b : Bridge (Logged P)) : Prop :=
  ∀ s, (b.side s).Proper size

def Fit (o : Outlook (Logged P)) (own : Fd → Prop) (b : Bridge (Logged P)) (r : Reactor C) : Prop :=
  ∀ s, (b.side s).Fit o own r

/-- A bridge that acts on the report of one side. That side is in order but for the flush that the
report may ask for. -/
structure HandlingReport [HasPipeState P] (o : Outlook (Logged P)) (own : Fd → Prop) (size : Nat)
    (s : Side) (report : PipeEvents) (b : Bridge (Logged P)) (r : Reactor C) : Prop where
  fit : b.Fit o own r
  peer : (b.side s.peer).Proper size
  orderly : (b.side s).Orderly size
  full : report.writable = false → (b.side s).pending ≠ none →
    (state (b.side s).pipe).isWritable = false
  writable : report.writable = true → (state (b.side s).pipe).isWritable = true

variable {o : Outlook (Logged P)} {own : Fd → Prop} {size : Nat} {fits : Nat → Prop}
  {b b' : Bridge (Logged P)} {r r' : Reactor C} {w w' : Host N C} {s src dst : Side}
  {new other : BridgeSide (Logged P)}

theorem Fit.meanwhile {a : Activity (Host N C)} (hb : b.Fit o own w.reactor)
    (ha : a.Spares own) : b.Fit o own (a.meanwhile w).reactor := fun s =>
  { hb s with listed := fun hattached => ha _ w (hb s).own ((hb s).listed hattached) }

theorem HandlingReport.proper [HasPipeState P] {report : PipeEvents}
    (ht : HandlingReport o own size s report b r) (hw : report.writable = false) : b.Proper size :=
  Side.forall_of s ⟨ht.orderly, ht.full hw⟩ ht.peer

theorem forall_setSide {Q : BridgeSide (Logged P) → Prop} (hpeer : Q (b.side s.peer))
    (hnew : Q new) : ∀ d, Q ((b.setSide s new).side d) := by
  refine Side.forall_of s ?_ ?_
  · rwa [side_setSide]
  · rwa [side_setSide_peer]

theorem forall_setSides {Q : BridgeSide (Logged P) → Prop} (hnew : Q new) (hother : Q other) :
    ∀ d, Q (((b.setSide s new).setSide s.peer other).side d) := by
  refine forall_setSide ?_ hother
  rwa [Side.peer_peer, side_setSide]

variable [Sockets N] [Pipe P (Host N C) C] (h : Pipe.Dependable (N := N) (C := C) o fits)
include h

theorem proper_flushed {result : PipeResult Unit} (hb : b.Fit o own w.reactor)
    (hpeer : (b.side dst.peer).Proper size) (ho : (b.side dst).Orderly size)
    (hwrite : (state (b.side dst).pipe).isWritable = true)
    (hf : Flushed dst b w result b' w') :
    b'.Proper size ∧ (result.isOk = true → b'.Fit o own w'.reactor) := by
  -- only the pipe of the destination is used, so the other side is as it was
  have hx := hb dst
  have hother {w' : Host N C} (hkeeps : w.reactor.RegistrationsKept w'.reactor) :=
    (hb dst.peer).registrationsKept hkeeps
  cases hf with
  | idle hq => exact ⟨Side.forall_of dst ⟨ho, fun hn => absurd hq hn⟩ hpeer, fun _ => hb⟩
  | refused hq hs =>
    have horderly := ho.sent h hx hwrite hs (b.side dst).pending (b.side dst).traffic
    have hfull := (h.latching.sent hs).full nofun
    constructor
    · apply forall_setSide hpeer
      exact ⟨horderly, fun _ => hfull⟩
    · intro _
      have hfit := hx.sent h hwrite hs (by rintro e ⟨⟩; rfl) (b.side dst).pending
        (b.side dst).traffic
      exact forall_setSide (hother (h.below.send hs).registrationsKept) hfit.1
  | failed hq hs he =>
    have horderly := ho.sent h hx hwrite hs (b.side dst).pending (b.side dst).traffic
    have hfull := (h.latching.sent hs).full nofun
    refine ⟨?_, nofun⟩
    apply forall_setSide hpeer
    exact ⟨horderly, fun _ => hfull⟩
  | @partly queue rest n pipe _ hq hs hn =>
    have horderly := ho.sent h hx hwrite hs (some rest) (afterSend (b.side dst).traffic n)
    have hfull : (state pipe).isWritable = false := by
      apply (h.latching.sent hs).full
      rintro m ⟨⟩
      exact hn
    constructor
    · apply forall_setSide hpeer
      exact ⟨horderly, fun _ => hfull⟩
    · intro _
      have hfit := hx.sent h hwrite hs nofun (some rest) (afterSend (b.side dst).traffic n)
      exact forall_setSide (hother (h.below.send hs).registrationsKept) hfit.1
  | @done queue n pipe _ hq hs =>
    have horderly := ho.sent h hx hwrite hs none (afterSend (b.side dst).traffic n)
    constructor
    · apply forall_setSide hpeer
      exact ⟨horderly, fun hn => absurd rfl hn⟩
    · intro _
      have hfit := hx.sent h hwrite hs nofun none (afterSend (b.side dst).traffic n)
      exact forall_setSide (hother (h.below.send hs).registrationsKept) hfit.1
  | @closed queue n pipe pipe' w₁ _ answer hq hs hn hrcvd hsent hc =>
    have horderly := ho.sent h hx hwrite hs none (afterSend (b.side dst).traffic n)
    obtain ⟨hfit, hopen⟩ := hx.sent h hwrite hs nofun none (afterSend (b.side dst).traffic n)
    constructor
    · apply forall_setSide hpeer
      exact ⟨horderly.closed hfit hopen hc, fun hn => absurd rfl hn⟩
    · intro hok
      cases answer with
      | error e => cases hok
      | ok status =>
        have hkeeps :=
          (h.below.send hs).registrationsKept.trans (h.below.sendFin hc).registrationsKept
        exact forall_setSide (hother hkeeps) (hfit.closed h hc)

theorem proper_transferred {result : PipeResult Nat} (hb : b.Fit o own w.reactor)
    (hp : b.Proper size) (hh : CanRelay src b) (ht : Transferred src b w result b' w') :
    b'.Proper size ∧ (result.isOk = true → b'.Fit o own w'.reactor) := by
  obtain ⟨hread, hwrite⟩ := hh
  have hdst := hp src.peer
  have hproper {w₁ : Host N C} {pipe : Logged P} {answer : PipeResult Recv}
      (hr : Pipe.recv (b.side src).recvSize (b.side src).pipe w = .ok (answer, pipe, w₁))
      (traffic : Traffic) := (hp src).received h (hb src) hr traffic
  -- the destination does not notice what is received from the source
  have hstill {w₁ : Host N C} {pipe : Logged P} {answer : PipeResult Recv}
      (hr : Pipe.recv (b.side src).recvSize (b.side src).pipe w = .ok (answer, pipe, w₁)) :
      (b.side src.peer).Fit o own w₁.reactor :=
    (hb src.peer).registrationsKept (h.below.recv hr).registrationsKept
  cases ht with
  | dry _ hr =>
    constructor
    · exact forall_setSide hdst (hproper hr _)
    · intro _
      apply forall_setSide (hstill hr)
      exact (hb src).received h hread hr (by rintro e ⟨⟩; rfl) _
  | failed _ hr => exact ⟨forall_setSide hdst (hproper hr _), nofun⟩
  | @ended pipe pipe' w₁ _ answer hq hr hc =>
    have hopen := (hstill hr).not_closing h hwrite
    constructor
    · apply forall_setSides (hproper hr _)
      exact ⟨hdst.toOrderly.closed (hstill hr) hopen hc, fun hn => absurd hq hn⟩
    · intro hok
      cases answer with
      | error e => cases hok
      | ok status =>
        have hfit := (hb src).received h hread hr nofun (b.side src).traffic
        have hclosed := (hstill hr).closed h hc
        rw [← hq] at hclosed
        exact forall_setSides (hfit.registrationsKept (h.below.sendFin hc).registrationsKept)
          hclosed
  | undeliverable hq hr hs =>
    have horderly := hdst.toOrderly.sent h (hstill hr) hwrite hs (b.side src.peer).pending
      (b.side src.peer).traffic
    refine ⟨?_, nofun⟩
    apply forall_setSides (hproper hr _)
    exact ⟨horderly, fun hn => absurd hq hn⟩
  | @relayed chunk _ n _ _ _ _ hq hr hs ht =>
    have horderly := hdst.toOrderly.sent h (hstill hr) hwrite hs (b.side src.peer).pending
      (afterSend (b.side src.peer).traffic n)
    constructor
    · apply forall_setSides (hproper hr _)
      exact ⟨horderly, fun hn => absurd hq hn⟩
    · intro _
      have hfit := (hb src).received h hread hr nofun (afterRecv (b.side src).traffic chunk.length)
      have hsent := (hstill hr).sent h hwrite hs (leavesUsable_of_took ht) (b.side src.peer).pending
        (afterSend (b.side src.peer).traffic n)
      exact forall_setSides (hfit.registrationsKept (h.below.send hs).registrationsKept) hsent.1
  | @congested chunk _ n _ pipe' _ _ hq hr hs ht hn =>
    have horderly := hdst.toOrderly.sent h (hstill hr) hwrite hs (some (.copyOf (chunk.drop n)))
      (afterQueueing (b.side src.peer).traffic n)
    have hfull : (state pipe').isWritable = false := by
      apply (h.latching.sent hs).full
      intro m hm
      rcases ht with rfl | ⟨rfl, _⟩
      · cases hm
        exact hn
      · cases hm
    constructor
    · apply forall_setSides (hproper hr _)
      exact ⟨horderly, fun _ => hfull⟩
    · intro _
      have hfit := (hb src).received h hread hr nofun (afterRecv (b.side src).traffic chunk.length)
      have hsent := (hstill hr).sent h hwrite hs (leavesUsable_of_took ht)
        (some (.copyOf (chunk.drop n))) (afterQueueing (b.side src.peer).traffic n)
      exact forall_setSides (hfit.registrationsKept (h.below.send hs).registrationsKept) hsent.1

theorem proper_relayed {n : Nat} {result : PipeResult Unit} (hb : b.Fit o own w.reactor)
    (hp : b.Proper size) (hr : Relayed src n b w result b' w') :
    b'.Proper size ∧ (result.isOk = true → b'.Fit o own w'.reactor) := by
  induction hr with
  | stopped => exact ⟨hp, fun _ => hb⟩
  | yielded =>
    exact ⟨hp, fun _ s => (hb s).registrationsKept (h.below.reschedule _ _).registrationsKept⟩
  | failed hv ht =>
    exact ⟨(proper_transferred h hb hp (canRelay_of_verdict hv) (transferred ht)).1, nofun⟩
  | more hv ht _ ih =>
    obtain ⟨hp₁, hb₁⟩ := proper_transferred h hb hp (canRelay_of_verdict hv) (transferred ht)
    exact ih (hb₁ rfl) hp₁

theorem handlingReport_noticed {events : SocketEvents} {report : PipeEvents} {pipe : Logged P}
    (hb : b.Fit o own w.reactor) (hp : b.Proper size)
    (hr : Pipe.react events (b.side s).pipe w = .ok (report, pipe, w')) :
    (report.broken = true → (b.setSide s { b.side s with pipe }).Proper size) ∧
      (report.broken = false →
        HandlingReport o own size s report (b.setSide s { b.side s with pipe }) w'.reactor) := by
  have hlatched := h.latching.reacted hr
  have horderly := (hp s).toOrderly.noticed hr
  refine ⟨fun hbroken => ?_, fun hbroken => ?_⟩
  · have hfull := PipeState.isWritable_of_broken (hlatched.fatal hbroken)
    exact forall_setSide (hp s.peer) ⟨horderly, fun _ => hfull⟩
  · obtain ⟨hfit, hopen⟩ := (hb s).noticed h hr hbroken
    have hother := (hb s.peer).registrationsKept (h.below.react hr).registrationsKept
    refine ⟨forall_setSide hother hfit, ?_, ?_, ?_, ?_⟩
    · rw [side_setSide_peer]
      exact hp s.peer
    · rwa [side_setSide]
    · rw [side_setSide]
      exact fun hw hq => hlatched.full ⟨(hp s).full hq, hw⟩
    · rwa [side_setSide]

theorem proper_writePhase {report : PipeEvents} {result : PipeResult Unit}
    (ht : HandlingReport o own size s report b w.reactor)
    (hw : WritePhase s report b w result b' w') :
    b'.Proper size ∧ (result.isOk = true → b'.Fit o own w'.reactor) := by
  cases hw with
  | skipped hw => exact ⟨ht.proper hw, fun _ => ht.fit⟩
  | failed hw hf | full hw hf =>
    exact proper_flushed h ht.fit ht.peer ht.orderly (ht.writable hw) (flushed hf)
  | relayed hw hf _ hr =>
    obtain ⟨hp₁, hb₁⟩ := proper_flushed h ht.fit ht.peer ht.orderly (ht.writable hw) (flushed hf)
    exact proper_relayed h (hb₁ rfl) hp₁ hr

theorem proper_handled {report : PipeEvents} {result : PipeResult Unit}
    (hp : report.broken = true → b.Proper size)
    (ht : report.broken = false → HandlingReport o own size s report b w.reactor)
    (hh : Handled s report b w result b' w') :
    b'.Proper size ∧ (result.isOk = true → b'.Fit o own w'.reactor) := by
  cases hh with
  | broken hb => exact ⟨hp hb, nofun⟩
  | failed hb hw => exact ⟨(proper_writePhase h (ht hb) hw).1, nofun⟩
  | done hb hw hr =>
    obtain ⟨hp₁, hb₁⟩ := proper_writePhase h (ht hb) hw
    cases hr with
    | skipped => exact ⟨hp₁, hb₁⟩
    | relayed _ _ hrel => exact proper_relayed h (hb₁ rfl) hp₁ hrel

/-- A bridge is left in order by all that it does, and fit to go on unless it ends. -/
theorem proper_acted {events : SocketEvents} {ending : Option Bool} (hp : b.Proper size)
    (hb : b.dead = false → b.Fit o own w.reactor) (ha : Acted s events b w ending b' w') :
    b'.Proper size ∧ (b'.dead = false → b'.Fit o own w'.reactor) := by
  cases ha with
  | ignored => exact ⟨hp, hb⟩
  | failed hd hr hh | closed hd hr hh =>
    obtain ⟨hbroken, htold⟩ := handlingReport_noticed h (hb hd) hp hr
    obtain ⟨hp', _⟩ := proper_handled h hbroken htold hh
    exact ⟨Side.forall_of .left (hp' .left) (hp' .right), nofun⟩
  | lives hd hr hh =>
    obtain ⟨hbroken, htold⟩ := handlingReport_noticed h (hb hd) hp hr
    obtain ⟨hp', hb'⟩ := proper_handled h hbroken htold hh
    exact ⟨hp', fun _ => hb' rfl⟩

/-- Whatever happens around a bridge, it is in order after each activity, as long as nobody takes
its registrations away. -/
theorem proper_course {activities : List (Activity (Host N C))}
    {all : List (Episode (Logged P) (Host N C))} (hm : ∀ a ∈ activities, a.Spares own)
    (hp : b.Proper size) (hb : b.dead = false → b.Fit o own w.reactor)
    (hc : course activities b w = .ok all) : ∀ e ∈ all, e.after.Proper size := by
  induction activities generalizing b w all with
  | nil =>
    cases hc
    exact fun e he => absurd he List.not_mem_nil
  | cons a rest ih =>
    unfold course at hc
    simp only [Checked.bind_eq_ok_iff] at hc
    obtain ⟨⟨ending, b', w'⟩, hact, later, hlater, heq⟩ := hc
    cases heq
    have hspares := hm a List.mem_cons_self
    obtain ⟨hp', hb'⟩ := proper_acted h hp (fun hd => (hb hd).meanwhile hspares) (acted hact)
    intro e he
    rcases List.mem_cons.mp he with rfl | he
    · exact hp'
    · exact ih (fun a ha => hm a (List.mem_cons_of_mem _ ha)) hp' hb' hlater e he

end Bridge

end DuplexRelay
