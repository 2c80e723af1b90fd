import DuplexRelay.Proofs.Bridge.Waking
import DuplexRelay.Proofs.Chain.RecordsKept
import DuplexRelay.Proofs.Pipe.AtomicOutlook
import DuplexRelay.Proofs.Pipe.DatagramOutlook

/-! A bridge between a plain and a framed connection. As long as it lives it closes a way out only
behind all that came in on the other side, and whatever it ends by, that stays so. -/

namespace DuplexRelay

namespace Channel

theorem state_finRcvd (c : Channel) : (state c).finRcvd = c.base.bits.finRcvd := by
  cases c with
  | plain p => rfl
  | framed p => exact Atomic.state_finRcvd p.inner

theorem state_finSent (c : Channel) : (state c).finSent = c.base.bits.finSent := by
  cases c with
  | plain p => rfl
  | framed p => exact Atomic.state_finSent p.inner

theorem unended_of_isReadable {c : Channel} {t : Track} (ht : c.base.Tracked t)
    (hdrained : c.base.bits.finRcvd = true → c.rest = []) (h : (state c).isReadable = true) :
    c.base.bits.finRcvd = false := by
  cases hfin : c.base.bits.finRcvd with
  | false => rfl
  | true =>
    have hdry : c.base.bits.readable = false := (ht.ended hfin).2.2
    have hshown : (state c.base).readable = false := by
      change c.base.bits.isReadable = false
      simp [PipeState.isReadable, hdry]
    cases c with
    | plain p =>
      have hread : ((state p).readable && !(state p).broken) = true := h
      rw [show (state p).readable = false from hshown] at hread
      cases hread
    | framed p =>
      have hrest : p.assembled = [] := hdrained hfin
      have hinner : (state p.inner).readable = false := by
        change (if p.inner.queue.isSome then _ else _ : PipeState).readable = false
        split <;> exact hshown
      have hread : (state p).isReadable = true := h
      rw [Datagram.state_eq] at hread
      simp [Datagram.View.shown, Datagram.view, PipeState.normalized, PipeState.isReadable, hinner,
        hrest] at hread

end Channel

/-- Which side of a relay is the plain one, the largest datagram, and the sockets of both sides. -/
structure Layout where
  plain : Side
  limit : Nat
  fd : Side → Fd
  apart : ∀ s, fd s.peer ≠ fd s
  within : limit ≤ Varint.maxValue

namespace Layout

/-- The largest datagram of a side, if it is framed. -/
def kind (l : Layout) (s : Side) : Option Nat := if s = l.plain then none else some l.limit

theorem kind_le {l : Layout} {s : Side} {limit : Nat} (h : l.kind s = some limit) :
    limit ≤ Varint.maxValue := by
  unfold kind at h
  split at h
  · cases h
  · cases h
    exact l.within

theorem kind_of_peer {l : Layout} {s : Side} {limit : Nat} (h : l.kind s.peer = some limit) :
    l.kind s = none ∧ limit = l.limit := by
  unfold kind at h ⊢
  split at h
  · cases h
  · rename_i hs
    cases h
    refine ⟨if_pos ?_, rfl⟩
    rcases Side.eq_or_eq_peer s l.plain with hp | hp
    · exact hp.symm
    · exact absurd hp.symm hs

end Layout

namespace Bridge

open Channel

variable {C : Type} {l : Layout} {s : Side}

/-- A side stands on its socket and has room for what it receives, and its records agree
with the socket. -/
structure SideInvariant (l : Layout) (s : Side) (r : Recorded Channel) (n : Nat) (net : Ports) :
    Prop where
  kind : r.pipe.kind = l.kind s
  fd : r.pipe.base.fd = l.fd s
  room : ∀ limit, l.kind s = some limit → limit ≤ n
  small : l.kind s = none → n ≤ l.limit
  records : RecordsAgree r (net.track (l.fd s))

section Sides

variable {r r' : Recorded Channel} {n : Nat} {w w' : Host Ports C} {net net' : Ports}

def OthersUntouched (l : Layout) (s : Side) (net net' : Ports) : Prop :=
  ∀ d, d ≠ l.fd s → net' d = net d

theorem SideInvariant.untouched (h : SideInvariant l s.peer r n net)
    (ha : OthersUntouched l s net net') : SideInvariant l s.peer r n net' := by
  refine ⟨h.kind, h.fd, h.room, h.small, ?_⟩
  have hsame : net'.track (l.fd s.peer) = net.track (l.fd s.peer) :=
    congrArg Port.toTrack (ha _ (l.apart s))
  rw [hsame]
  exact h.records

theorem SideInvariant.replaced (h : SideInvariant l s r n net) (hk : r'.pipe.kind = r.pipe.kind)
    (hfd : r'.pipe.base.fd = r.pipe.base.fd) (hb : RecordsAgree r' (net'.track r.pipe.base.fd)) :
    SideInvariant l s r' n net' := by
  refine ⟨hk.trans h.kind, hfd.trans h.fd, h.room, h.small, ?_⟩
  rw [← h.fd]
  exact hb

theorem SideInvariant.closing (h : SideInvariant l s r n net)
    (hs : (net.track (l.fd s)).shut = true) :
    r.pipe.Closing := .inl (h.records.tracked.shut.trans hs)

theorem SideInvariant.stepped (h : SideInvariant l s r n w.net)
    (hs : r.pipe.base.Stepped w r'.pipe.base w') :
    r'.pipe.base.fd = r.pipe.base.fd ∧ OthersUntouched l s w.net w'.net := by
  refine ⟨hs.fd, ?_⟩
  unfold OthersUntouched
  rw [← h.fd]
  exact hs.others

theorem SideInvariant.recv {result : PipeResult Recv} (hf : SideInvariant l s r n w.net)
    (hv : r.pipe.violated = false) (h : Pipe.recv n r w = .ok (result, r', w')) :
    Channel.AfterRecv r.pipe n result r'.pipe ∧ SideInvariant l s r' n w'.net ∧
    OthersUntouched l s w.net w'.net ∧
      r'.accepted = r.accepted ∧ r'.received = (r.noteRecv result r'.pipe).received := by
  obtain ⟨hfd, huntouched⟩ := hf.stepped ((Recorded.below Channel.below_stepped).recv h)
  have hrecords := hf.records
  rw [← hf.fd] at hrecords
  obtain ⟨hreceived, hb, hacc, hrec⟩ :=
    recordsAgree_recv hrecords (fun limit hk => hf.room limit (hf.kind.symm.trans hk)) hv h
  exact ⟨hreceived, hf.replaced hreceived.kind hfd hb, huntouched, hacc, hrec⟩

theorem SideInvariant.send {data : Bytes} {result : PipeResult Nat}
    (hf : SideInvariant l s r n w.net)
    (hfits : Fits (l.kind s) data) (h : Pipe.send data r w = .ok (result, r', w')) :
    Same r.pipe r'.pipe ∧ (r'.pipe.Closing ↔ r.pipe.Closing) ∧ r'.received = r.received ∧
      SideInvariant l s r' n w'.net ∧ OthersUntouched l s w.net w'.net := by
  obtain ⟨hfd, huntouched⟩ := hf.stepped ((Recorded.below Channel.below_stepped).send h)
  have hrecords := hf.records
  rw [← hf.fd] at hrecords
  rw [← hf.kind] at hfits
  obtain ⟨hsame, hclosing, hrec, hb⟩ :=
    recordsAgree_send hrecords hfits (fun limit hk => Layout.kind_le (hf.kind.symm.trans hk)) h
  exact ⟨hsame, hclosing, hrec, hf.replaced hsame.kind hfd hb, huntouched⟩

theorem SideInvariant.close {result : PipeResult FinStatus} (hf : SideInvariant l s r n w.net)
    (h : Pipe.sendFin r w = .ok (result, r', w')) :
    Same r.pipe r'.pipe ∧ ((∃ s, result = .ok s) → r'.pipe.Closing) ∧
      r'.received = r.received ∧ r'.accepted = r.accepted ∧ SideInvariant l s r' n w'.net ∧
      OthersUntouched l s w.net w'.net := by
  obtain ⟨hfd, huntouched⟩ := hf.stepped ((Recorded.below Channel.below_stepped).sendFin h)
  have hrecords := hf.records
  rw [← hf.fd] at hrecords
  obtain ⟨hsame, hclosing, hrec, hacc, hb⟩ := recordsAgree_close hrecords h
  exact ⟨hsame, hclosing, hrec, hacc, hf.replaced hsame.kind hfd hb, huntouched⟩

theorem SideInvariant.react {events : SocketEvents} {report : PipeEvents}
    (hf : SideInvariant l s r n w.net) (h : Pipe.react events r w = .ok (report, r', w')) :
    Same r.pipe r'.pipe ∧ (r'.pipe.Closing → r.pipe.Closing) ∧
      r'.received = r.received ∧ r'.accepted = r.accepted ∧ SideInvariant l s r' n w'.net ∧
      OthersUntouched l s w.net w'.net := by
  obtain ⟨hfd, huntouched⟩ := hf.stepped ((Recorded.below Channel.below_stepped).react h)
  have hrecords := hf.records
  rw [← hf.fd] at hrecords
  obtain ⟨hsame, hclosing, hrec, hacc, hb⟩ := recordsAgree_react hrecords h
  exact ⟨hsame, hclosing, hrec, hacc, hf.replaced hsame.kind hfd hb, huntouched⟩

end Sides

/-- All that came in on the other side was passed on to a side. -/
structure PassedOn (b : Bridge (Recorded Channel)) (d : Side) : Prop where
  ended : (b.side d.peer).pipe.pipe.base.bits.finRcvd = true
  intact : (b.side d.peer).pipe.pipe.violated = false
  rest : (b.side d.peer).pipe.pipe.rest = []
  all : b.acceptedBy d = b.receivedFrom d.peer

/-- What holds of a bridge even when it ended. -/
structure LastingInvariant (l : Layout) (b : Bridge (Recorded Channel)) (net : Ports) : Prop where
  exact : Exact b
  sides : ∀ s, SideInvariant l s (b.side s).pipe (b.side s).recvSize net
  passed : ∀ d, (b.side d).pipe.pipe.Closing → b.PassedOn d

/-- Nothing is wrong with what came in on a side, and what is queued for it is not too large. -/
structure SideIntact (l : Layout) (s : Side) (x : BridgeSide (Recorded Channel)) : Prop where
  intact : x.pipe.pipe.violated = false
  drained : x.pipe.pipe.base.bits.finRcvd = true → x.pipe.pipe.rest = []
  fits : ∀ queue, x.pending = some queue → Fits (l.kind s) queue.live

/-- What holds of a bridge as long as it lives. -/
structure LiveInvariant (l : Layout) (b : Bridge (Recorded Channel)) (net : Ports) : Prop where
  alive : b.dead = false
  exact : Exact b
  sides : ∀ s, SideInvariant l s (b.side s).pipe (b.side s).recvSize net
  sound : ∀ s, SideIntact l s (b.side s)
  closing : ∀ d, (b.side d).pipe.pipe.Closing →
    (b.side d.peer).pipe.pipe.base.bits.finRcvd = true ∧ (b.side d).pending = none

section Invariant

variable {b b' : Bridge (Recorded Channel)} {w w' : Host Ports C} {net : Ports}

theorem accepted_eq (hm : b.meantFor s = b.receivedFrom s.peer) (hq : (b.side s).pending = none) :
    b.acceptedBy s = b.receivedFrom s.peer := by
  rw [← hm]
  simp [meantFor, BridgeSide.queued, hq]

theorem LiveInvariant.passedOn (h : LiveInvariant l b net) {d : Side}
    (hc : (b.side d).pipe.pipe.Closing) : b.PassedOn d := by
  obtain ⟨hrcvd, hq⟩ := h.closing d hc
  exact ⟨hrcvd, (h.sound d.peer).intact, (h.sound d.peer).drained hrcvd,
    accepted_eq (h.exact.balanced h.alive d) hq⟩

theorem LiveInvariant.lasting (h : LiveInvariant l b net) : LastingInvariant l b net :=
  ⟨h.exact, h.sides, fun _ => h.passedOn⟩

@[simp] theorem side_die (b : Bridge (Recorded Channel)) (s : Side) : b.die.side s = b.side s := by
  cases s <;> rfl

theorem lastingInvariant_die (he : Exact b.die)
    (hf : ∀ s, SideInvariant l s (b.side s).pipe (b.side s).recvSize net)
    (hp : ∀ d, (b.side d).pipe.pipe.Closing → b.PassedOn d) : LastingInvariant l b.die net := by
  refine ⟨he, ?_, ?_⟩
  · intro s
    rw [side_die]
    exact hf s
  · intro d hc
    rw [side_die] at hc
    obtain ⟨hrcvd, hintact, hrest, heq⟩ := hp d hc
    refine ⟨?_, ?_, ?_, ?_⟩
    · rwa [side_die]
    · rwa [side_die]
    · rwa [side_die]
    · simpa [acceptedBy, receivedFrom] using heq

/-- What an operation leads to. A failure ends the bridge. -/
def InvariantAfter {α : Type} (l : Layout) (result : PipeResult α) (b : Bridge (Recorded Channel))
    (net : Ports) : Prop :=
  match result with
  | .ok _ => LiveInvariant l b net
  | .error _ => LastingInvariant l b.die net

/-- Where a side is hungry, its stream did not end, and the other way out was not closed. -/
theorem LiveInvariant.unended (h : LiveInvariant l b net) {src : Side} (hh : CanRelay src b) :
    (b.side src).pipe.pipe.base.bits.finRcvd = false ∧ ¬(b.side src.peer).pipe.pipe.Closing := by
  have hunended := unended_of_isReadable (h.sides src).records.tracked (h.sound src).drained hh.1
  refine ⟨hunended, fun hc => ?_⟩
  have hrcvd := (h.closing src.peer hc).1
  rw [Side.peer_peer] at hrcvd
  exact absurd (hunended.symm.trans hrcvd) Bool.false_ne_true

/-- A chunk that came in on a side is not too large for the other one. -/
theorem fits_of_recv {r r' : Recorded Channel} {n : Nat} {chunk : Bytes}
    (hf : SideInvariant l s r n net)
    (ht : Channel.AfterRecv r.pipe n (.ok (.data chunk)) r'.pipe) : Fits (l.kind s.peer) chunk := by
  intro limit hk
  obtain ⟨hplain, rfl⟩ := Layout.kind_of_peer hk
  have hsize := ht.size (hf.kind.trans hplain) chunk rfl
  exact hsize.trans (hf.small hplain)

theorem SideIntact.same {x y : BridgeSide (Recorded Channel)} (h : SideIntact l s x)
    (hsame : Same x.pipe.pipe y.pipe.pipe)
    (hfits : ∀ queue, y.pending = some queue → Fits (l.kind s) queue.live) : SideIntact l s y := by
  refine ⟨hsame.violated.trans h.intact, ?_, hfits⟩
  intro hrcvd
  rw [hsame.rest]
  exact h.drained (hsame.finRcvd.symm.trans hrcvd)

theorem liveInvariant_both {o t : BridgeSide (Recorded Channel)} (hd : b.dead = false)
    (hfo : SideInvariant l s o.pipe o.recvSize net)
    (hft : SideInvariant l s.peer t.pipe t.recvSize net)
    (ho : SideIntact l s o) (ht : SideIntact l s.peer t)
    (hco : o.pipe.pipe.Closing → t.pipe.pipe.base.bits.finRcvd = true ∧ o.pending = none)
    (hct : t.pipe.pipe.Closing → o.pipe.pipe.base.bits.finRcvd = true ∧ t.pending = none)
    (he : Exact ((b.setSide s o).setSide s.peer t)) :
    LiveInvariant l ((b.setSide s o).setSide s.peer t) net := by
  refine ⟨by simpa using hd, he, ?_, ?_, ?_⟩
  · exact Side.forall_of s (by simpa using hfo) (by simpa using hft)
  · exact Side.forall_of s (by simpa using ho) (by simpa using ht)
  · exact Side.forall_of s (by simpa using hco) (by simpa using hct)

theorem lastingInvariant_both {o t : BridgeSide (Recorded Channel)}
    (hfo : SideInvariant l s o.pipe o.recvSize net)
    (hft : SideInvariant l s.peer t.pipe t.recvSize net)
    (hpo : o.pipe.pipe.Closing → PassedOn ((b.setSide s o).setSide s.peer t) s)
    (hpt : t.pipe.pipe.Closing → PassedOn ((b.setSide s o).setSide s.peer t) s.peer)
    (he : Exact ((b.setSide s o).setSide s.peer t).die) :
    LastingInvariant l ((b.setSide s o).setSide s.peer t).die net := by
  refine lastingInvariant_die he ?_ ?_
  · exact Side.forall_of s (by simpa using hfo) (by simpa using hft)
  · exact Side.forall_of s (by simpa using hpo) (by simpa using hpt)

theorem LiveInvariant.replaced (h : LiveInvariant l b w.net) {x : BridgeSide (Recorded Channel)}
    (hf : SideInvariant l s x.pipe x.recvSize w'.net) (ha : OthersUntouched l s w.net w'.net)
    (hx : SideIntact l s x)
    (hrcvd : (b.side s).pipe.pipe.base.bits.finRcvd = true →
      x.pipe.pipe.base.bits.finRcvd = true)
    (hc : x.pipe.pipe.Closing →
      (b.side s.peer).pipe.pipe.base.bits.finRcvd = true ∧ x.pending = none)
    (he : Exact (b.setSide s x)) : LiveInvariant l (b.setSide s x) w'.net := by
  rw [setSide_eq_both] at he ⊢
  refine liveInvariant_both h.alive hf ((h.sides s.peer).untouched ha) hx (h.sound s.peer) hc ?_ he
  intro hpeer
  obtain ⟨hold, hq⟩ := h.closing s.peer hpeer
  rw [Side.peer_peer] at hold
  exact ⟨hrcvd hold, hq⟩

theorem LiveInvariant.ended (h : LiveInvariant l b w.net) {x : BridgeSide (Recorded Channel)}
    (hf : SideInvariant l s x.pipe x.recvSize w'.net) (ha : OthersUntouched l s w.net w'.net)
    (hsame : Same (b.side s).pipe.pipe x.pipe.pipe)
    (hreceived : x.pipe.received = (b.side s).pipe.received)
    (hc : x.pipe.pipe.Closing → PassedOn (b.setSide s x) s) (he : Exact (b.setSide s x).die) :
    LastingInvariant l (b.setSide s x).die w'.net := by
  rw [setSide_eq_both] at he hc ⊢
  refine lastingInvariant_both hf ((h.sides s.peer).untouched ha) hc ?_ he
  intro hpeer
  obtain ⟨hrcvd, hintact, hrest, heq⟩ := h.passedOn hpeer
  rw [Side.peer_peer] at hrcvd hintact hrest heq
  refine ⟨?_, ?_, ?_, ?_⟩
  · simpa [hsame.finRcvd] using hrcvd
  · simpa [hsame.violated] using hintact
  · simpa [hsame.rest] using hrest
  · simpa [acceptedBy, receivedFrom, hreceived] using heq

end Invariant

end Bridge

end DuplexRelay
