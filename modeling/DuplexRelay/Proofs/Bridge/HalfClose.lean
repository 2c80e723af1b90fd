import DuplexRelay.Proofs.Bridge.Sustained
import DuplexRelay.Proofs.Pipe.Ending

/-! The end of a stream goes through a bridge at once. Nothing is read from a side unless the other
one takes data, so where a side comes to its end nothing is queued, and the way out of the other
side is closed there and then. The flush never finds an end that is still to be passed on. -/

namespace DuplexRelay

open Outlook (LeavesUsable)

namespace Tcp

variable {N C : Type} {p p' : Tcp} {w w' : Host N C}

def KeepsShut (p : Tcp) (_ : Host N C) (p' : Tcp) (_ : Host N C) : Prop :=
  p.bits.finSent = true → p'.bits.finSent = true

theorem keepsShut_chained : Chained (KeepsShut (N := N) (C := C)) where
  refl _ _ := id
  trans h h' := h' ∘ h

theorem below_keepsShut [Sockets N] :
    Pipe.Below (id : Tcp → Tcp) (KeepsShut (N := N) (C := C)) where
  recv h := (received_bits h).1.trans
  send h := (transmitted_bits h).1.trans
  sendFin h hs := by
    cases shutDown_outcome h with
    | broken => exact hs
    | done _ _ _ hsettled => rw [id, hsettled.pipe]
    | failed _ _ _ hsettled =>
      rw [id, hsettled.pipe]
      exact hs
  react h := (noticed_bits h).1.trans
  reschedule _ _ := id

end Tcp

namespace Bridge

section States

variable {P : Type} [HasPipeState P] (o : Outlook P) (rest : P → Bytes)

/-- The way out of a side is closed as soon as it is to be, nothing that came in is held back behind
the end, and nothing is queued for a side that was closed. -/
structure FinPassedOn (x : BridgeSide P) : Prop where
  regular : o.regular x.pipe
  closed : o.closing x.pipe → (state x.pipe).finSent = true
  drained : (state x.pipe).finRcvd = true → rest x.pipe = []
  unqueued : (state x.pipe).finSent = true → x.pending = none

/-- A side was closed if the other one came to its end. -/
structure Mirrored (b : Bridge P) : Prop where
  finPassedOn : ∀ s, FinPassedOn o rest (b.side s)
  passed : ∀ s, (state (b.side s.peer).pipe).finSent = (state (b.side s).pipe).finRcvd

variable {o rest} {b : Bridge P}

theorem mirrored_setSides {s : Side} {x y : BridgeSide P} (hx : FinPassedOn o rest x)
    (hy : FinPassedOn o rest y) (hxy : (state y.pipe).finSent = (state x.pipe).finRcvd)
    (hyx : (state x.pipe).finSent = (state y.pipe).finRcvd) :
    Mirrored o rest ((b.setSide s x).setSide s.peer y) := by
  constructor
  · refine Side.forall_of s ?_ ?_
    · simpa using hx
    · simpa using hy
  · refine Side.forall_of s ?_ ?_
    · simpa using hxy
    · simpa using hyx

theorem mirrored_setSide (h : Mirrored o rest b) {s : Side} {x : BridgeSide P}
    (hx : FinPassedOn o rest x) (hs : (state x.pipe).finSent = (state (b.side s).pipe).finSent)
    (hr : (state x.pipe).finRcvd = (state (b.side s).pipe).finRcvd) :
    Mirrored o rest (b.setSide s x) := by
  have hback := h.passed s.peer
  rw [Side.peer_peer] at hback
  rw [setSide_eq_both]
  apply mirrored_setSides hx (h.finPassedOn s.peer)
  · rw [h.passed s, hr]
  · rw [hs, hback]

end States

variable {P N C : Type} [Sockets N] [Pipe P (Host N C) C] {o : Outlook P} {rest : P → Bytes}
  {b b' : Bridge P} {w w' : Host N C} {x : BridgeSide P} {p' : P}

section Sides

variable (ho : o.Lawful (N := N) (C := C)) (hc : Pipe.Concludes (W := Host N C) rest)
  (hk : Pipe.Below (W := Host N C) o.base Tcp.KeepsShut)
include ho

theorem open_of_isWritable (hx : FinPassedOn o rest x) (hw : (state x.pipe).isWritable = true) :
    (state x.pipe).finSent = false := by
  cases hs : (state x.pipe).finSent with
  | false => rfl
  | true =>
    rw [ho.shut hx.regular (ho.closing hs)] at hw
    cases hw

/-- An operation that is not to close the way out does not do so. -/
theorem finSent_of_closing_iff (hx : FinPassedOn o rest x)
    (hclosing : o.closing p' ↔ o.closing x.pipe)
    (hkept : Tcp.KeepsShut (o.base x.pipe) w (o.base p') w') :
    (state p').finSent = (state x.pipe).finSent := by
  apply Bool.eq_iff_iff.mpr
  constructor
  · intro hs
    exact hx.closed (hclosing.mp (ho.closing hs))
  · intro hs
    rw [ho.finSent] at hs ⊢
    exact hkept hs

theorem finPassedOn_received (hk : Pipe.Below (W := Host N C) o.base Tcp.KeepsShut)
    {n : Nat} {result : PipeResult Recv} (traffic : Traffic) (hx : FinPassedOn o rest x)
    (hread : (state x.pipe).isReadable = true)
    (h : Pipe.recv n x.pipe w = .ok (result, p', w')) (hm : LeavesUsable result)
    (hdrained : (state p').finRcvd = true → rest p' = []) :
    FinPassedOn o rest { x with pipe := p', traffic } ∧
      (state p').finSent = (state x.pipe).finSent := by
  have hr := ho.recv hx.regular hread h hm
  have hsame := finSent_of_closing_iff ho hx hr.closing (hk.recv h)
  refine ⟨⟨hr.regular, ?_, hdrained, ?_⟩, hsame⟩
  · intro hclosing
    exact hsame.trans (hx.closed (hr.closing.mp hclosing))
  · intro hs
    exact hx.unqueued (hsame.symm.trans hs)

include hc hk

theorem finPassedOn_sent {data : Bytes} {result : PipeResult Nat} (pending : Option ByteBuffer)
    (traffic : Traffic) (hx : FinPassedOn o rest x) (hwrite : (state x.pipe).isWritable = true)
    (h : Pipe.send data x.pipe w = .ok (result, p', w')) (hm : LeavesUsable result) :
    FinPassedOn o rest { x with pipe := p', pending, traffic } ∧ (state p').finSent = false ∧
      (state p').finRcvd = (state x.pipe).finRcvd := by
  have hs := ho.send hx.regular hwrite h hm
  have hopen := open_of_isWritable ho hx hwrite
  have hsame := finSent_of_closing_iff ho hx hs.closing (hk.send h)
  have hstill := hsame.trans hopen
  refine ⟨⟨hs.regular, ?_, ?_, ?_⟩, hstill, hs.incoming.finRcvd⟩
  · intro hclosing
    exact hsame.trans (hx.closed (hs.closing.mp hclosing))
  · intro hr
    rw [hc.send h hm]
    exact hx.drained (hs.incoming.finRcvd.symm.trans hr)
  · intro hshut
    rw [hstill] at hshut
    cases hshut

omit hk in
theorem finPassedOn_closed {status : FinStatus} (hx : FinPassedOn o rest x)
    (hwrite : (state x.pipe).isWritable = true) (hq : x.pending = none)
    (h : Pipe.sendFin x.pipe w = .ok (.ok status, p', w')) :
    FinPassedOn o rest { x with pipe := p' } ∧ (state p').finSent = true ∧
      (state p').finRcvd = (state x.pipe).finRcvd := by
  obtain ⟨_, hs⟩ := ho.sendFin hx.regular h nofun
  have hshut := hc.shut hwrite h
  refine ⟨⟨hs.regular, fun _ => hshut, ?_, fun _ => hq⟩, hshut, hs.incoming.finRcvd⟩
  intro hr
  rw [hc.sendFin h]
  exact hx.drained (hs.incoming.finRcvd.symm.trans hr)

theorem finPassedOn_noticed {events : SocketEvents} {report : PipeEvents}
    (hx : FinPassedOn o rest x)
    (h : Pipe.react events x.pipe w = .ok (report, p', w')) (hb : report.broken = false) :
    FinPassedOn o rest { x with pipe := p' } ∧ (state p').finSent = (state x.pipe).finSent ∧
      (state p').finRcvd = (state x.pipe).finRcvd := by
  have hn := ho.react hx.regular h hb
  have hsame := finSent_of_closing_iff ho hx hn.closing (hk.react h)
  refine ⟨⟨hn.regular, ?_, ?_, ?_⟩, hsame, hn.finRcvd⟩
  · intro hclosing
    exact hsame.trans (hx.closed (hn.closing.mp hclosing))
  · intro hr
    rw [hc.react (ho.unbroken hx.regular).1 h hb]
    exact hx.drained (hn.finRcvd.symm.trans hr)
  · intro hs
    exact hx.unqueued (hsame.symm.trans hs)

theorem mirrored_transferred {src : Side} {n : Nat} (hb : Mirrored o rest b)
    (hh : CanRelay src b) (h : Transferred src b w (.ok n) b' w') : Mirrored o rest b' := by
  obtain ⟨hread, hwrite⟩ := hh
  have hsrc := hb.finPassedOn src
  have hdst := hb.finPassedOn src.peer
  have hpassed := hb.passed src.peer
  rw [Side.peer_peer] at hpassed
  obtain ⟨_, hbefore⟩ := ho.flowing hsrc.regular hread
  have hopen := open_of_isWritable ho hdst hwrite
  -- a receive that yields no end leaves the source without one
  have hunended : ∀ {pipe : P} {w₁ : Host N C} {answer : PipeResult Recv} {traffic : Traffic},
      Pipe.recv (b.side src).recvSize (b.side src).pipe w = .ok (answer, pipe, w₁) →
        LeavesUsable answer →
      answer ≠ .ok .fin → FinPassedOn o rest { b.side src with pipe, traffic } ∧
        (state pipe).finSent = (state (b.side src).pipe).finSent ∧
        (state pipe).finRcvd = false := by
    intro pipe w₁ answer traffic hr hm hanswer
    have hnone : (state pipe).finRcvd = false := by
      cases hf : (state pipe).finRcvd with
      | false => rfl
      | true => exact absurd ((ho.recv hsrc.regular hread hr hm).ended hf) hanswer
    obtain ⟨hside, hsame⟩ := finPassedOn_received ho hk traffic hsrc hread hr hm
      (fun hf => absurd (hnone.symm.trans hf) Bool.false_ne_true)
    exact ⟨hside, hsame, hnone⟩
  generalize hresult : (Except.ok n : PipeResult Nat) = result at h
  cases h with
  | failed | undeliverable => cases hresult
  | dry _ hr =>
    obtain ⟨hside, hsame, hnone⟩ := hunended hr (by rintro e ⟨⟩; rfl) nofun
    exact mirrored_setSide hb hside hsame (hnone.trans hbefore.symm)
  | @ended _ _ _ _ answer hq hr hclose =>
    cases answer with
    | error e => cases hresult
    | ok status =>
      -- the end that the source comes to here is the one that the other side is closed for
      obtain ⟨hfin, hempty⟩ := hc.recv hr
      obtain ⟨hside, hsame⟩ := finPassedOn_received ho hk (b.side src).traffic hsrc hread hr
        nofun fun _ => hempty
      obtain ⟨hside', hshut, hrcvd⟩ := finPassedOn_closed ho hc hdst hwrite hq hclose
      apply mirrored_setSides hside hside'
      · exact hshut.trans hfin.symm
      · exact hsame.trans (hpassed.trans hrcvd.symm)
  | relayed _ hr hs ht | congested _ hr hs ht =>
    obtain ⟨hside, hsame, hnone⟩ := hunended hr nofun nofun
    obtain ⟨hside', hstill, hrcvd⟩ :=
      finPassedOn_sent ho hc hk _ _ hdst hwrite hs (leavesUsable_of_took ht)
    apply mirrored_setSides hside hside'
    · exact hstill.trans hnone.symm
    · exact hsame.trans (hpassed.trans hrcvd.symm)

theorem mirrored_flushed {dst : Side} (hb : Mirrored o rest b)
    (hwrite : (state (b.side dst).pipe).isWritable = true)
    (h : Flushed dst b w (.ok ()) b' w') : Mirrored o rest b' := by
  have hdst := hb.finPassedOn dst
  have hopen := open_of_isWritable ho hdst hwrite
  have hpassed := hb.passed dst.peer
  rw [Side.peer_peer, hopen] at hpassed
  generalize hresult : (Except.ok () : PipeResult Unit) = result at h
  cases h with
  | idle => exact hb
  | failed => cases hresult
  | refused _ hs =>
    obtain ⟨hside, hstill, hrcvd⟩ := finPassedOn_sent ho hc hk (b.side dst).pending
      (b.side dst).traffic hdst hwrite hs (by rintro e ⟨⟩; rfl)
    exact mirrored_setSide hb hside (hstill.trans hopen.symm) hrcvd
  | partly _ hs | done _ hs =>
    obtain ⟨hside, hstill, hrcvd⟩ := finPassedOn_sent ho hc hk _ _ hdst hwrite hs nofun
    exact mirrored_setSide hb hside (hstill.trans hopen.symm) hrcvd
  | closed _ _ _ hfin =>
    -- no end of the other side can have been left for a flush
    rw [← hpassed] at hfin
    cases hfin

/-- As long as a bridge does not fail, a side is closed exactly if the other one came to its end. -/
theorem mirrored_sustained :
    Sustained (Host N C) (Mirrored o rest) fun s b =>
      (state (b.side s).pipe).isWritable = true where
  noticed := by
    intro b s events report pipe w w' hb hr hbroken
    obtain ⟨hside, hsent, hrcvd⟩ := finPassedOn_noticed ho hc hk (hb.finPassedOn s) hr hbroken
    refine ⟨mirrored_setSide hb hside hsent hrcvd, ?_⟩
    rw [side_setSide]
    exact (ho.react (hb.finPassedOn s).regular hr hbroken).reported
  flushed := mirrored_flushed ho hc hk
  transferred := mirrored_transferred ho hc hk
  died hb := by
    constructor
    · exact Side.forall_of .left (hb.finPassedOn .left) (hb.finPassedOn .right)
    · exact Side.forall_of .left (hb.passed .left) (hb.passed .right)

end Sides

end Bridge

end DuplexRelay
