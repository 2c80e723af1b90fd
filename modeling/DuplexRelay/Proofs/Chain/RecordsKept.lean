import DuplexRelay.Proofs.Chain.Records
import DuplexRelay.Proofs.Pipe.Outlook

/-! Every operation of a connection keeps its records. Bytes only move: from what was read so far to
the owner, and from the owner over what is held back to the socket. -/

namespace DuplexRelay

namespace Atomic

variable {C : Type} {a a₁ a' : Atomic Tcp} {w w' : Host Ports C} {t t₁ t' : Track}

/-- What was accepted and not passed to the socket yet. -/
def held (a : Atomic Tcp) : Bytes := (a.queue.map (·.live)).getD []

def Closing (a : Atomic Tcp) : Prop := a.inner.bits.finSent = true ∨ a.finWanted = true

/-- Bytes went from what is held to the socket at most, and the way out was closed behind them at
most. -/
structure Forwarded (a : Atomic Tcp) (t : Track) (a' : Atomic Tcp) (t' : Track) : Prop where
  fd : a'.inner.fd = a.inner.fd
  got : t'.got = t.got
  unread : t'.unread = t.unread
  ended : t'.ended = t.ended
  given : t'.sent ++ a'.held = t.sent ++ a.held
  tracked : a'.inner.Tracked t'
  finRcvd : a'.inner.bits.finRcvd = a.inner.bits.finRcvd
  closing : a'.Closing → a.Closing
  settled : (t.shut = true → a.held = []) → t'.shut = true → a'.held = []

theorem Forwarded.refl (h : a.inner.Tracked t) : Forwarded a t a t :=
  ⟨rfl, rfl, rfl, rfl, rfl, h, rfl, id, id⟩

theorem Forwarded.trans (h : Forwarded a t a₁ t₁) (h' : Forwarded a₁ t₁ a' t') :
    Forwarded a t a' t' :=
  ⟨h'.fd.trans h.fd, h'.got.trans h.got, h'.unread.trans h.unread, h'.ended.trans h.ended,
    h'.given.trans h.given, h'.tracked, h'.finRcvd.trans h.finRcvd, h.closing ∘ h'.closing,
    h'.settled ∘ h.settled⟩

theorem forwarded_queueFlushed {events report : PipeEvents}
    (h : QueueFlushed events a w report a' w')
    (htracked : a.inner.Tracked (w.net.track a.inner.fd)) :
    Forwarded a (w.net.track a.inner.fd) a' (w'.net.track a.inner.fd) := by
  -- a send moves a part of the queue to the socket, or nothing
  have hsent : ∀ {queue : ByteBuffer} {result : PipeResult Nat} {inner : Tcp}
      (left : Option ByteBuffer), a.queue = some queue →
      Pipe.send queue.live a.inner w = .ok (result, inner, w') →
      (∀ t', (w.net.track a.inner.fd).Given queue.live result t' →
        t'.sent ++ (left.map (·.live)).getD [] = (w.net.track a.inner.fd).sent ++ queue.live) →
      Forwarded a (w.net.track a.inner.fd) { a with inner, queue := left }
        (w'.net.track a.inner.fd) := by
    intro queue result inner left hq hs hgiven
    obtain ⟨htrack, htracked', hfd, hfin, hrcvd⟩ := Tcp.given_tracked htracked hs
    have hheld : a.held = queue.live := by simp [held, hq]
    have hmoved := hgiven _ htrack
    generalize w'.net.track a.inner.fd = t at htrack htracked' hmoved ⊢
    have hclosing : Closing { a with inner, queue := left } → a.Closing := by
      unfold Closing
      rw [hfin]
      exact id
    cases htrack with
    | failed =>
      refine ⟨hfd, rfl, rfl, rfl, by rw [hheld]; exact hmoved, htracked', hrcvd, hclosing,
        fun hsettled hshut => ?_⟩
      rw [← hheld] at hmoved
      exact (List.append_cancel_left hmoved).trans (hsettled hshut)
    | taken hopen =>
      refine ⟨hfd, rfl, rfl, rfl, by rw [hheld]; exact hmoved, htracked', hrcvd, hclosing,
        fun _ hshut => ?_⟩
      exact absurd (hopen.symm.trans hshut) Bool.false_ne_true
  cases h with
  | idle => exact .refl htracked
  | @refused queue e inner _ hq hs =>
    refine hsent _ hq hs fun t' ht => ?_
    cases ht
    rfl
  | @part queue rest n inner _ hq hs hn hr =>
    refine hsent _ hq hs fun t' ht => ?_
    cases ht with
    | taken _ hle =>
      obtain ⟨after, hafter, hlive⟩ := ByteBuffer.consume_eq_ok hle
      rw [hr] at hafter
      cases hafter
      simp [hlive]
  | @all queue n inner _ hq hs hn =>
    refine hsent none hq hs fun t' ht => ?_
    cases ht with
    | taken _ hle =>
      have hall : queue.live.take n = queue.live := List.take_of_length_le hn
      simp [hall]

theorem forwarded_finFlushed {events report : PipeEvents} (h : FinFlushed events a w report a' w')
    (htracked : a.inner.Tracked (w.net.track a.inner.fd)) :
    Forwarded a (w.net.track a.inner.fd) a' (w'.net.track a.inner.fd) := by
  cases h with
  | skipped => exact .refl htracked
  | @closed result inner _ hq hf hc =>
    obtain ⟨htrack, hstepped⟩ := Tcp.closing_track hc
    have htracked' := hstepped.tracked htracked
    have hempty : ({ a with inner, finWanted := false } : Atomic Tcp).held = [] := by
      simp [held, hq]
    generalize w'.net.track a.inner.fd = t at htrack htracked' ⊢
    cases htrack with
    | failed | done =>
      exact ⟨hstepped.fd, rfl, rfl, rfl, rfl, htracked', (Tcp.shutDown_bits hc).1,
        fun _ => .inr hf, fun _ _ => hempty⟩

theorem forwarded_reacted {events : SocketEvents} {report : PipeEvents}
    (h : Pipe.react events a w = .ok (report, a', w'))
    (htracked : a.inner.Tracked (w.net.track a.inner.fd)) :
    Forwarded a (w.net.track a.inner.fd) a' (w'.net.track a.inner.fd) := by
  have hnoticed : ∀ {report : PipeEvents} {inner : Tcp} {w₁ : Host Ports C},
      Pipe.react events a.inner w = .ok (report, inner, w₁) →
      Forwarded a (w.net.track a.inner.fd) { a with inner } (w₁.net.track a.inner.fd) := by
    intro report inner w₁ hr
    obtain ⟨hsame, hstepped⟩ := Tcp.noticed_track hr
    obtain ⟨hfin, hrcvd⟩ := Tcp.noticed_bits hr
    have htracked' := hstepped.tracked htracked
    rw [hsame] at htracked' ⊢
    refine ⟨hstepped.fd, rfl, rfl, rfl, rfl, htracked', hrcvd, ?_, id⟩
    unfold Closing
    rw [hfin]
    exact id
  cases reacted h with
  | passed hr => exact hnoticed hr
  | flushing hr _ hq hf =>
    have hfirst := hnoticed hr
    have hfd := hfirst.fd
    have hqueue := forwarded_queueFlushed hq (by rw [hfd]; exact hfirst.tracked)
    rw [hfd] at hqueue
    have hfd' := hqueue.fd.trans hfd
    have hfin := forwarded_finFlushed hf (by rw [hfd']; exact hqueue.tracked)
    rw [hfd'] at hfin
    exact (hfirst.trans hqueue).trans hfin

end Atomic

namespace Channel

variable {C : Type} {w w' : Host Ports C} {t t' : Track} {r r' : Recorded Channel}

theorem afterRecv_framed {n : Nat} {v v' : Datagram.View Tcp} {result : PipeResult Recv}
    (h : Datagram.Received n v w result v' w') (hbroken : v.broken = false) :
    (v'.broken = true → ∃ reason, result = .error (.protocol reason)) ∧
      (result = .ok .fin → v'.inner.inner.bits.finRcvd = true ∧ v'.assembled = []) ∧
      (v'.inner.inner.bits.finRcvd = true → v.inner.inner.bits.finRcvd = true ∨
        result = .ok .fin ∨ ∃ reason, result = .error (.protocol reason)) := by
  have hbits : ∀ {m : Nat} {found : PipeResult Recv} {a : Atomic Tcp},
      Pipe.recv m v.inner w = .ok (found, a, w') →
      (a.inner.bits.finRcvd = true → v.inner.inner.bits.finRcvd = true ∨ found = .ok .fin) ∧
        (found = .ok .fin → a.inner.bits.finRcvd = true) := by
    intro m found a hr
    obtain ⟨q, hrecv, rfl⟩ := atomic_recv hr
    exact (Tcp.received_bits hrecv).2
  have hintact : v.broken = true → ∃ reason, result = .error (.protocol reason) :=
    fun hv => absurd (hbroken.symm.trans hv) Bool.false_ne_true
  cases h with
  | broken => exact ⟨hintact, nofun, .inl⟩
  | found => exact ⟨hintact, nofun, .inl⟩
  | violated => exact ⟨fun _ => ⟨_, rfl⟩, nofun, .inl⟩
  | refused _ _ _ hr | incomplete _ _ _ hr | completed _ _ _ hr =>
    exact ⟨hintact, nofun, fun hf => .inl (((hbits hr).1 hf).resolve_right nofun)⟩
  | corrupted => exact ⟨fun _ => ⟨_, rfl⟩, nofun, fun _ => .inr (.inr ⟨_, rfl⟩)⟩
  | ended _ _ hnothing hr =>
    exact ⟨hintact, fun _ => ⟨(hbits hr).2 rfl, hnothing⟩, fun _ => .inr (.inl rfl)⟩
  | cut => exact ⟨fun _ => ⟨_, rfl⟩, nofun, fun _ => .inr (.inr ⟨_, rfl⟩)⟩

theorem flatMap_noteRecv (r : Recorded Channel) (limit : Nat) (result : PipeResult Recv)
    (c : Channel) : (r.noteRecv result c).received.flatMap (wire (some limit)) =
      r.received.flatMap (wire (some limit)) ++ frameOf result := by
  match result with
  | .ok (.data data) => simp [noteRecv_data, wire, frameOf]
  | .ok .fin => exact (List.append_nil _).symm
  | .error e => exact (List.append_nil _).symm

theorem recordsAgree_recv_framed {n : Nat} {p p' : Datagram Tcp} {result : PipeResult Recv}
    (hr : r.pipe = framed p) (hn : p.maxSize ≤ n) (hv : p.broken = false)
    (hb : RecordsAgree r (w.net.track p.inner.inner.fd))
    (h : Pipe.recv n p w = .ok (result, p', w')) :
    AfterRecv (framed p) n result (framed p') ∧
      RecordsAgree (r.noteRecv result (framed p')) (w'.net.track p.inner.inner.fd) := by
  have hview := Datagram.received h
  obtain ⟨hintact, hended, hunended⟩ := afterRecv_framed hview hv
  obtain ⟨hsize, hunder⟩ := afterRawRecv_framed hview
  have hkind : r.pipe.kind = some p.maxSize := by rw [hr]; rfl
  have hsize : (framed p').kind = some p.maxSize := congrArg some hsize
  have hgot := hb.taken (by rw [hr]; exact hv)
  rw [hkind, hr] at hgot
  obtain ⟨hfits, rest, hrest, hheld, hspoiled⟩ := taken_framed hview hn hv hgot
  refine ⟨⟨hsize, ?_, hintact, hended, hunended, nofun⟩, ?_⟩
  · exact closing_congr hunder.finSent hunder.finWanted
  · have hqueue : (framed p').held = r.pipe.held := by
      rw [hr]
      exact congrArg (fun queue => (queue.map ByteBuffer.live).getD []) hunder.queue
    have htracked := hb.tracked
    rw [hr] at htracked
    refine hb.afterRecv (hsize.trans hkind.symm) hqueue hunder.sent hunder.shut
      (hunder.tracked htracked) ?_ ?_ ?_
    · intro hbroken
      rw [hkind, flatMap_noteRecv]
      exact hrest.trans (congrArg _ (hheld hbroken).symm)
    · intro hbroken
      rw [hkind]
      refine ⟨rest, ?_, hspoiled hbroken⟩
      rw [flatMap_noteRecv]
      exact hrest
    · intro data hd
      rw [hkind]
      exact fits_framed (hfits data hd)

theorem recordsAgree_recv {n : Nat} {result : PipeResult Recv}
    (hb : RecordsAgree r (w.net.track r.pipe.base.fd))
    (hn : ∀ limit, r.pipe.kind = some limit → limit ≤ n)
    (hv : r.pipe.violated = false) (h : Pipe.recv n r w = .ok (result, r', w')) :
    AfterRecv r.pipe n result r'.pipe ∧ RecordsAgree r' (w'.net.track r.pipe.base.fd) ∧
      r'.accepted = r.accepted ∧ r'.received = (r.noteRecv result r'.pipe).received := by
  obtain ⟨c, hrecv, rfl⟩ := Recorded.recv_eq_ok h
  have haccepted : (r.noteRecv result c).accepted = r.accepted := by
    unfold Recorded.noteRecv
    split <;> rfl
  rw [Recorded.noteRecv_pipe]
  suffices hrecords : AfterRecv r.pipe n result c ∧
      RecordsAgree (r.noteRecv result c) (w'.net.track r.pipe.base.fd) from
    ⟨hrecords.1, hrecords.2, haccepted, rfl⟩
  cases hr : r.pipe with
  | plain p =>
    rw [hr] at hrecv hb
    obtain ⟨p', hplain, rfl⟩ := ofPlain_eq_ok hrecv
    exact recordsAgree_recv_plain hr hb hplain
  | framed p =>
    rw [hr] at hrecv hb hn hv
    obtain ⟨p', hframed, rfl⟩ := ofFramed_eq_ok hrecv
    exact recordsAgree_recv_framed hr (hn _ rfl) hv hb hframed

theorem Same.refl (c : Channel) : Same c c := ⟨rfl, rfl, rfl, rfl⟩

theorem Same.trans {c₁ c₂ c₃ : Channel} (h : Same c₁ c₂) (h' : Same c₂ c₃) : Same c₁ c₃ :=
  ⟨h'.kind.trans h.kind, h'.rest.trans h.rest, h'.violated.trans h.violated,
    h'.finRcvd.trans h.finRcvd⟩

theorem Conveyed.refl {c : Channel} (h : c.base.Tracked t) : Conveyed c t [] c t :=
  ⟨.refl c, rfl, rfl, rfl, (List.append_nil _).symm, h, id⟩

/-- What went on below the framing does not concern what was read so far. -/
theorem conveyed_framed {p : Datagram Tcp} {a : Atomic Tcp} {bytes : Bytes}
    (hgot : t'.got = t.got) (hunread : t'.unread = t.unread) (hended : t'.ended = t.ended)
    (hgiven : t'.sent ++ a.held = t.sent ++ p.inner.held ++ bytes) (htracked : a.inner.Tracked t')
    (hrcvd : a.inner.bits.finRcvd = p.inner.inner.bits.finRcvd)
    (hsettled : (t.shut = true → p.inner.held = []) → t'.shut = true → a.held = []) :
    Conveyed (framed p) t bytes (framed { p with inner := a }) t' :=
  ⟨⟨rfl, rfl, rfl, hrcvd⟩, hgot, hunread, hended, hgiven, htracked, hsettled⟩

/-- The bytes that a send put on the stream. -/
def putOn (kind : Option Nat) (data : Bytes) : PipeResult Nat → Bytes
  | .ok n => wire kind (data.take n)
  | .error _ => []

theorem conveyed_send_plain {p p' : Tcp} {data : Bytes} {result : PipeResult Nat}
    (htracked : p.Tracked (w.net.track p.fd)) (h : Pipe.send data p w = .ok (result, p', w')) :
    Conveyed (plain p) (w.net.track p.fd) (putOn none data result) (plain p')
        (w'.net.track p.fd) ∧
      ((plain p').Closing ↔ (plain p).Closing) := by
  obtain ⟨htrack, htracked', _, hfin, hrcvd⟩ := Tcp.given_tracked htracked h
  generalize w'.net.track p.fd = t at htrack htracked' ⊢
  refine ⟨?_, closing_congr hfin rfl⟩
  cases htrack with
  | failed =>
    exact ⟨⟨rfl, rfl, rfl, hrcvd⟩, rfl, rfl, rfl, (List.append_nil _).symm, htracked',
      fun _ _ => rfl⟩
  | taken =>
    refine ⟨⟨rfl, rfl, rfl, hrcvd⟩, rfl, rfl, rfl, ?_, htracked', fun _ _ => rfl⟩
    simp [held, putOn, wire]

theorem conveyed_send_framed {p p' : Datagram Tcp} {data : Bytes} {result : PipeResult Nat}
    (hfits : data.length ≤ p.maxSize) (hmax : p.maxSize ≤ Varint.maxValue)
    (htracked : p.inner.inner.Tracked (w.net.track p.inner.inner.fd))
    (h : Pipe.send data p w = .ok (result, p', w')) :
    Conveyed (framed p) (w.net.track p.inner.inner.fd) (putOn (some p.maxSize) data result)
        (framed p') (w'.net.track p.inner.inner.fd) ∧
      ((framed p').Closing ↔ (framed p).Closing) := by
  have hframe := Datagram.frame_eq (hfits.trans hmax)
  cases Datagram.sent h with
  | broken => exact ⟨.refl htracked, Iff.rfl⟩
  | excessive _ hs => exact absurd hfits (Nat.not_le.mpr hs)
  | waiting => exact ⟨.refl htracked, Iff.rfl⟩
  | unframed _ _ hf =>
    rw [hframe] at hf
    cases hf
  | @passed framed result a _ hb hs hw hf hsend =>
    rw [hframe] at hf
    cases hf
    have hall : data.take data.length = data := List.take_length
    -- what the socket did not take of the frame is held in the queue
    cases Atomic.sentWhole hsend with
    | waiting => exact ⟨.refl htracked, Iff.rfl⟩
    | @refused e inner _ hfin hq hs =>
      obtain ⟨htrack, htracked', _, hsent, hrcvd⟩ := Tcp.given_tracked htracked hs
      generalize w'.net.track p.inner.inner.fd = t at htrack htracked' ⊢
      cases htrack
      refine ⟨conveyed_framed rfl rfl rfl ?_ htracked' hrcvd id, closing_congr hsent rfl⟩
      exact (List.append_nil _).symm
    | @all n inner _ hfin hq hs hn =>
      obtain ⟨htrack, htracked', _, hsent, hrcvd⟩ := Tcp.given_tracked htracked hs
      generalize w'.net.track p.inner.inner.fd = t at htrack htracked' ⊢
      cases htrack with
      | taken hopen =>
        refine ⟨conveyed_framed rfl rfl rfl ?_ htracked' hrcvd id, closing_congr hsent rfl⟩
        have hwhole : (Datagram.wire data).take n = Datagram.wire data :=
          List.take_of_length_le hn
        simp [Atomic.held, hq, hwhole, putOn, wire, hall, Except.map]
    | @part n inner _ hfin hq hs hn =>
      obtain ⟨htrack, htracked', _, hsent, hrcvd⟩ := Tcp.given_tracked htracked hs
      generalize w'.net.track p.inner.inner.fd = t at htrack htracked' ⊢
      cases htrack with
      | taken hopen =>
        refine ⟨conveyed_framed rfl rfl rfl ?_ htracked' hrcvd ?_, closing_congr hsent rfl⟩
        · simp [Atomic.held, hq, putOn, wire, hall, Except.map]
        · exact fun _ hshut => absurd (hopen.symm.trans hshut) Bool.false_ne_true

theorem recordsAgree_send {data : Bytes} {result : PipeResult Nat}
    (hb : RecordsAgree r (w.net.track r.pipe.base.fd)) (hfits : Fits r.pipe.kind data)
    (hmax : ∀ limit, r.pipe.kind = some limit → limit ≤ Varint.maxValue)
    (h : Pipe.send data r w = .ok (result, r', w')) :
    Same r.pipe r'.pipe ∧ (r'.pipe.Closing ↔ r.pipe.Closing) ∧ r'.received = r.received ∧
      RecordsAgree r' (w'.net.track r.pipe.base.fd) := by
  obtain ⟨c, hsend, rfl⟩ := Recorded.send_eq_ok h
  have hconveyed : Conveyed r.pipe (w.net.track r.pipe.base.fd) (putOn r.pipe.kind data result) c
      (w'.net.track r.pipe.base.fd) ∧ (c.Closing ↔ r.pipe.Closing) := by
    have htracked := hb.tracked
    cases hr : r.pipe with
    | plain p =>
      rw [hr] at hsend htracked
      obtain ⟨p', hplain, rfl⟩ := ofPlain_eq_ok hsend
      exact conveyed_send_plain htracked hplain
    | framed p =>
      rw [hr] at hsend htracked hfits hmax
      obtain ⟨p', hframed, rfl⟩ := ofFramed_eq_ok hsend
      exact conveyed_send_framed (hfits _ rfl) (hmax _ rfl) htracked hframed
  obtain ⟨hconveyed, hclosing⟩ := hconveyed
  rw [Recorded.noteSend_pipe]
  refine ⟨hconveyed.same, hclosing, ?_⟩
  cases result with
  | error e => exact ⟨rfl, hb.repiped hconveyed⟩
  | ok n =>
    refine ⟨rfl, hb.conveyed [data.take n] ?_ ?_⟩
    · rw [List.flatMap_singleton]
      exact hconveyed
    · intro chunk hchunk limit hkind
      rw [List.mem_singleton.mp hchunk]
      exact (List.length_take_le' n data).trans (hfits limit hkind)

theorem conveyed_close_plain {p p' : Tcp} {result : PipeResult FinStatus}
    (htracked : p.Tracked (w.net.track p.fd)) (h : Pipe.sendFin p w = .ok (result, p', w')) :
    Conveyed (plain p) (w.net.track p.fd) [] (plain p') (w'.net.track p.fd) ∧
      ((∃ s, result = .ok s) → (plain p').Closing) := by
  obtain ⟨htrack, hstepped⟩ := Tcp.closing_track h
  obtain ⟨hrcvd, hdone, _⟩ := Tcp.shutDown_bits h
  have htracked' := hstepped.tracked htracked
  generalize w'.net.track p.fd = t at htrack htracked' ⊢
  refine ⟨?_, .inl ∘ hdone⟩
  have hsame : Same (plain p) (plain p') := ⟨rfl, rfl, rfl, hrcvd⟩
  cases htrack with
  | failed | done =>
    exact ⟨hsame, rfl, rfl, rfl, (List.append_nil _).symm, htracked', fun _ _ => rfl⟩

theorem conveyed_close_framed {p p' : Datagram Tcp} {result : PipeResult FinStatus}
    (htracked : p.inner.inner.Tracked (w.net.track p.inner.inner.fd))
    (h : Pipe.sendFin p w = .ok (result, p', w')) :
    Conveyed (framed p) (w.net.track p.inner.inner.fd) [] (framed p')
        (w'.net.track p.inner.inner.fd) ∧
      ((∃ s, result = .ok s) → (framed p').Closing) := by
  obtain ⟨_, rfl, rfl, rfl⟩ | ⟨_, inner, hclose, rfl⟩ := Datagram.closed h
  · exact ⟨.refl htracked, nofun⟩
  cases Atomic.closedBehind hclose with
  | waiting hf hq =>
    refine ⟨conveyed_framed rfl rfl rfl (List.append_nil _).symm htracked rfl id, fun _ => ?_⟩
    exact .inr rfl
  | @passed _ base _ hf hq hc =>
    obtain ⟨htrack, hstepped⟩ := Tcp.closing_track hc
    obtain ⟨hrcvd, hdone, _⟩ := Tcp.shutDown_bits hc
    have htracked' := hstepped.tracked htracked
    have hempty : ({ p.inner with inner := base } : Atomic Tcp).held = [] := by
      simp [Atomic.held, hq]
    generalize w'.net.track p.inner.inner.fd = t at htrack htracked' ⊢
    refine ⟨?_, .inl ∘ hdone⟩
    cases htrack with
    | failed | done =>
      exact conveyed_framed rfl rfl rfl (List.append_nil _).symm htracked' hrcvd
        fun _ _ => hempty

theorem recordsAgree_close {result : PipeResult FinStatus}
    (hb : RecordsAgree r (w.net.track r.pipe.base.fd))
    (h : Pipe.sendFin r w = .ok (result, r', w')) :
    Same r.pipe r'.pipe ∧ ((∃ s, result = .ok s) → r'.pipe.Closing) ∧
      r'.received = r.received ∧ r'.accepted = r.accepted ∧
      RecordsAgree r' (w'.net.track r.pipe.base.fd) := by
  obtain ⟨c, hclose, rfl⟩ := Recorded.sendFin_eq_ok h
  have hconveyed : Conveyed r.pipe (w.net.track r.pipe.base.fd) [] c
      (w'.net.track r.pipe.base.fd) ∧ ((∃ s, result = .ok s) → c.Closing) := by
    have htracked := hb.tracked
    cases hr : r.pipe with
    | plain p =>
      rw [hr] at hclose htracked
      obtain ⟨p', hplain, rfl⟩ := ofPlain_eq_ok hclose
      exact conveyed_close_plain htracked hplain
    | framed p =>
      rw [hr] at hclose htracked
      obtain ⟨p', hframed, rfl⟩ := ofFramed_eq_ok hclose
      exact conveyed_close_framed htracked hframed
  obtain ⟨hconveyed, hclosing⟩ := hconveyed
  exact ⟨hconveyed.same, hclosing, rfl, rfl, hb.repiped hconveyed⟩

theorem recordsAgree_react {events : SocketEvents} {report : PipeEvents}
    (hb : RecordsAgree r (w.net.track r.pipe.base.fd))
    (h : Pipe.react events r w = .ok (report, r', w')) :
    Same r.pipe r'.pipe ∧ (r'.pipe.Closing → r.pipe.Closing) ∧
      r'.received = r.received ∧ r'.accepted = r.accepted ∧
      RecordsAgree r' (w'.net.track r.pipe.base.fd) := by
  obtain ⟨c, hreact, rfl⟩ := Recorded.react_eq_ok h
  have hconveyed : Conveyed r.pipe (w.net.track r.pipe.base.fd) [] c
      (w'.net.track r.pipe.base.fd) ∧ (c.Closing → r.pipe.Closing) := by
    have htracked := hb.tracked
    cases hr : r.pipe with
    | plain p =>
      rw [hr] at hreact htracked
      obtain ⟨p', hplain, rfl⟩ := ofPlain_eq_ok hreact
      obtain ⟨htrack, hstepped⟩ := Tcp.noticed_track hplain
      obtain ⟨hfin, hrcvd⟩ := Tcp.noticed_bits hplain
      have htracked' := hstepped.tracked htracked
      have hsame : w'.net.track (plain p).base.fd = w.net.track (plain p).base.fd := htrack
      rw [htrack] at htracked'
      rw [hsame]
      have hclosing : (plain p').Closing ↔ (plain p).Closing := closing_congr hfin rfl
      exact ⟨⟨⟨rfl, rfl, rfl, hrcvd⟩, rfl, rfl, rfl, (List.append_nil _).symm, htracked',
        fun _ _ => rfl⟩, hclosing.mp⟩
    | framed p =>
      rw [hr] at hreact htracked
      obtain ⟨p', hframed, rfl⟩ := ofFramed_eq_ok hreact
      obtain ⟨⟨_, inner, _⟩, hbelow, heq⟩ := Checked.bind_eq_ok_iff.mp hframed
      cases heq
      have hpassed := Atomic.forwarded_reacted hbelow htracked
      refine ⟨conveyed_framed hpassed.got hpassed.unread hpassed.ended ?_ hpassed.tracked
        hpassed.finRcvd hpassed.settled, hpassed.closing⟩
      rw [List.append_nil]
      exact hpassed.given
  obtain ⟨hconveyed, hclosing⟩ := hconveyed
  exact ⟨hconveyed.same, hclosing, rfl, rfl, hb.repiped hconveyed⟩

theorem recordsAgree_attach {callback : C} {result : Except Failure Unit}
    (hb : RecordsAgree r (w.net.track r.pipe.base.fd))
    (h : Pipe.attach callback r w = .ok (result, r', w')) :
    w'.net = w.net ∧ r'.pipe.base.fd = r.pipe.base.fd ∧ Same r.pipe r'.pipe ∧
      (r'.pipe.Closing ↔ r.pipe.Closing) ∧ r'.received = r.received ∧
      r'.accepted = r.accepted ∧ RecordsAgree r' (w'.net.track r.pipe.base.fd) := by
  obtain ⟨c, hattach, rfl⟩ := Recorded.attach_eq_ok h
  have htcp : ∀ {p p' : Tcp}, Pipe.attach callback p w = .ok (result, p', w') →
      w'.net = w.net ∧ p'.fd = p.fd ∧ p'.bits = p.bits := by
    intro p p' hp
    cases Tcp.enrolled hp <;> exact ⟨rfl, rfl, rfl⟩
  have hconveyed : w'.net = w.net ∧ c.base.fd = r.pipe.base.fd ∧
      Conveyed r.pipe (w.net.track r.pipe.base.fd) [] c (w.net.track r.pipe.base.fd) ∧
      (c.Closing ↔ r.pipe.Closing) := by
    have htracked := hb.tracked
    cases hr : r.pipe with
    | plain p =>
      rw [hr] at hattach htracked
      obtain ⟨p', hplain, rfl⟩ := ofPlain_eq_ok hattach
      obtain ⟨hnet, hfd, hbits⟩ := htcp hplain
      have htracked' : p'.Tracked (w.net.track p.fd) :=
        ⟨by rw [hbits]; exact htracked.ended, by rw [hbits]; exact htracked.shut⟩
      refine ⟨hnet, hfd, ⟨⟨rfl, rfl, rfl, congrArg PipeState.finRcvd hbits⟩, rfl, rfl, rfl, ?_,
        htracked', fun _ _ => rfl⟩, closing_congr (congrArg PipeState.finSent hbits) rfl⟩
      exact (List.append_nil _).symm
    | framed p =>
      rw [hr] at hattach htracked
      obtain ⟨p', hframed, rfl⟩ := ofFramed_eq_ok hattach
      obtain ⟨⟨_, inner, _⟩, hbelow, heq⟩ := Checked.bind_eq_ok_iff.mp hframed
      cases heq
      obtain ⟨⟨_, base, _⟩, hplain, heq⟩ := Checked.bind_eq_ok_iff.mp hbelow
      cases heq
      obtain ⟨hnet, hfd, hbits⟩ := htcp hplain
      have htracked' : base.Tracked (w.net.track p.inner.inner.fd) :=
        ⟨by rw [hbits]; exact htracked.ended, by rw [hbits]; exact htracked.shut⟩
      refine ⟨hnet, hfd, conveyed_framed rfl rfl rfl (List.append_nil _).symm htracked'
        (congrArg PipeState.finRcvd hbits) id, ?_⟩
      exact closing_congr (congrArg PipeState.finSent hbits) rfl
  obtain ⟨hnet, hfd, hconveyed, hclosing⟩ := hconveyed
  rw [hnet]
  exact ⟨rfl, hfd, hconveyed.same, hclosing, rfl, rfl, hb.repiped hconveyed⟩

end Channel

end DuplexRelay
