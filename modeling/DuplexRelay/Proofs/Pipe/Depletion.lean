import DuplexRelay.Proofs.Pipe.Extraction
import DuplexRelay.Proofs.Pipe.Ledger
import DuplexRelay.Proofs.Pipe.StackOutlook
import DuplexRelay.Proofs.Socket

/-! Receives come to an end. Where a network announces how many bytes can be read at most, a pipe
runs dry after as many receives as its backlog tells, as long as nothing more arrives. -/

namespace DuplexRelay

open Outlook (LeavesUsable)

/-- A network that keeps to what it announced. A read takes its bytes from those that were
announced, and no call announces more. -/
structure Sockets.AsAnnounced (N : Type) [Sockets N] : Prop where
  taken : ∀ {fd : Fd} {n : Nat} {data : Bytes} {net net' : N},
    Sockets.read fd n net = (.ok data, net') →
    data.length + Sockets.queued fd net' ≤ Sockets.queued fd net
  read : ∀ {fd : Fd} {n : Nat} {net net' : N} {answer}, Sockets.read fd n net = (answer, net') →
    ∀ d, Sockets.queued d net' ≤ Sockets.queued d net
  send : ∀ {fd : Fd} {data : Bytes} {net net' : N} {answer},
    Sockets.send fd data net = (answer, net') →
    ∀ d, Sockets.queued d net' ≤ Sockets.queued d net
  shutdown : ∀ {fd : Fd} {net net' : N} {answer}, Sockets.shutdown fd net = (answer, net') →
    ∀ d, Sockets.queued d net' ≤ Sockets.queued d net
  takeError : ∀ {fd : Fd} {net net' : N} {answer}, Sockets.takeError fd net = (answer, net') →
    ∀ d, Sockets.queued d net' ≤ Sockets.queued d net

namespace SocketPairs

variable {fd d : Fd} {p : SocketPair} {net net' : SocketPairs}

theorem pair?_put_self (fd : Fd) (p : SocketPair) (net : SocketPairs) :
    (net.put fd p).pair? fd = some p := List.lookup_cons_self

theorem lookup_filter_ne (h : d ≠ fd) (table : List (Fd × SocketPair)) :
    (table.filter (·.1 ≠ fd)).lookup d = table.lookup d := by
  induction table with
  | nil => rfl
  | cons entry rest ih =>
    obtain ⟨k, p⟩ := entry
    by_cases hk : k = fd
    · subst hk
      rw [List.filter_cons_of_neg (by simp), ih, List.lookup_cons, beq_false_of_ne h]
    · rw [List.filter_cons_of_pos (by simpa using hk), List.lookup_cons, List.lookup_cons, ih]

theorem pair?_put_of_ne (h : d ≠ fd) (p : SocketPair) (net : SocketPairs) :
    (net.put fd p).pair? d = net.pair? d := by
  unfold pair? put
  rw [List.lookup_cons, beq_false_of_ne h]
  exact lookup_filter_ne h net.table

theorem queued_eq (d : Fd) (net : SocketPairs) :
    Sockets.queued d net = ((net.pair? d).map (·.inbound.size)).getD 0 := rfl

theorem queued_put {q : SocketPair} (hp : net.pair? fd = some p)
    (hq : q.inbound.size ≤ p.inbound.size) (d : Fd) :
    Sockets.queued d (net.put fd q) ≤ Sockets.queued d net := by
  rw [queued_eq, queued_eq]
  by_cases hd : d = fd
  · subst hd
    rw [pair?_put_self, hp]
    exact hq
  · exact Nat.le_of_eq (by rw [pair?_put_of_ne hd])

theorem queued_atNearEnd {α : Type} {f : SocketPair → Except OsError α × SocketPair}
    {answer : Except OsError α} (hf : ∀ p, (f p).2.inbound.size ≤ p.inbound.size)
    (h : atNearEnd fd f net = (answer, net')) (d : Fd) :
    Sockets.queued d net' ≤ Sockets.queued d net := by
  unfold atNearEnd at h
  cases hp : net.pair? fd with
  | none =>
    simp only [hp, Prod.mk.injEq] at h
    exact Nat.le_of_eq (by rw [h.2])
  | some p =>
    simp only [hp] at h
    split at h
    · cases h
      exact queued_put hp (hf p) d
    · simp only [Prod.mk.injEq] at h
      exact Nat.le_of_eq (by rw [h.2])

end SocketPairs

namespace SocketPair

theorem size_pop (n : Nat) (q : ByteQueue) : (q.pop n).1.length + (q.pop n).2.size ≤ q.size := by
  rw [← ByteQueue.length_toList (q.pop n).2, ← ByteQueue.length_toList q, ByteQueue.pop_fst,
    ByteQueue.toList_pop, List.length_take, List.length_drop]
  omega

theorem size_read {n : Nat} {p p' : SocketPair} {data : Bytes} (h : p.read n = (.ok data, p')) :
    data.length + p'.inbound.size ≤ p.inbound.size := by
  unfold read at h
  split at h
  · split at h
    · cases h
    · split at h
      · cases h
        exact Nat.le_of_eq (Nat.zero_add _)
      · cases h
  · cases h
    exact size_pop n p.inbound

theorem size_inbound_read (n : Nat) (p : SocketPair) :
    (p.read n).2.inbound.size ≤ p.inbound.size := by
  unfold read
  split
  · split
    · exact Nat.le_refl _
    · split <;> exact Nat.le_refl _
  · have hpop := size_pop n p.inbound
    dsimp only
    omega

theorem inbound_send (data : Bytes) (p : SocketPair) : (p.send data).2.inbound = p.inbound := by
  unfold send
  dsimp only
  split
  · rfl
  split
  · rfl
  split
  · rfl
  split <;> rfl

end SocketPair

namespace SocketPairs

theorem asAnnounced : Sockets.AsAnnounced SocketPairs where
  taken := by
    intro fd n data net net' h
    have h : atNearEnd fd (·.read n) net = (.ok data, net') := h
    unfold atNearEnd at h
    cases hp : net.pair? fd with
    | none => simp [hp] at h
    | some p =>
      simp only [hp] at h
      split at h
      · simp only [Prod.mk.injEq] at h
        obtain ⟨hdata, rfl⟩ := h
        rw [queued_eq, queued_eq, pair?_put_self, hp]
        exact SocketPair.size_read (Prod.ext hdata rfl)
      · cases h
  read h := queued_atNearEnd (SocketPair.size_inbound_read _) h
  send h := queued_atNearEnd (fun p =>
    Nat.le_of_eq (congrArg ByteQueue.size (SocketPair.inbound_send _ p))) h
  shutdown h := queued_atNearEnd (fun _ => Nat.le_refl _) h
  takeError := by
    intro fd net net' answer h d
    cases hp : net.pair? fd with
    | none =>
      simp only [Sockets.takeError, hp, Prod.mk.injEq] at h
      exact Nat.le_of_eq (by rw [h.2])
    | some p =>
      simp only [Sockets.takeError, hp] at h
      cases h
      have hsame : ({ p with error := none } : SocketPair).inbound.size ≤ p.inbound.size :=
        Nat.le_refl _
      exact queued_put hp hsame d

end SocketPairs

/-- Nowhere there is more to be read than before. -/
def Host.NothingArrives {N C : Type} [Sockets N] (w w' : Host N C) : Prop :=
  ∀ d, Sockets.queued d w'.net ≤ Sockets.queued d w.net

namespace Tcp

variable {N C : Type} [Sockets N] {p p' : Tcp} {w w' : Host N C}

theorem nothingArrives_chained :
    Chained (fun (_ : Tcp) (w : Host N C) (_ : Tcp) w' => w.NothingArrives w') where
  refl _ _ _ := Nat.le_refl _
  trans h h' d := Nat.le_trans (h' d) (h d)

theorem Settled.nothingArrives {bits : PipeState} {net : N}
    (hs : Settled bits p { w with net } p' w')
    (h : ∀ d, Sockets.queued d net ≤ Sockets.queued d w.net) : w.NothingArrives w' := by
  intro d
  rw [hs.net]
  exact h d

theorem below_nothingArrives (hN : Sockets.AsAnnounced N) :
    Pipe.Below (id : Tcp → Tcp) (fun _ (w : Host N C) _ w' => w.NothingArrives w') where
  recv h := by
    cases received h with
    | broken | nothing => exact fun _ => Nat.le_refl _
    | ended _ _ hr hs | data _ _ hr _ hs | refused _ _ hr _ hs | failed _ _ hr _ hs =>
      exact hs.nothingArrives (hN.read hr)
  send h := by
    cases transmitted h with
    | broken => exact fun _ => Nat.le_refl _
    | taken _ _ hr hs | refused _ _ hr _ hs | failed _ _ hr _ hs =>
      exact hs.nothingArrives (hN.send hr)
  sendFin h := by
    cases shutDown_outcome h with
    | broken => exact fun _ => Nat.le_refl _
    | done _ _ hr hs | failed _ _ hr hs => exact hs.nothingArrives (hN.shutdown hr)
  react {_ p _ w _ _} h := by
    have hasked {net : N} (hn : ErrorTaken p.fd w.net net) (d : Fd) :
        Sockets.queued d net ≤ Sockets.queued d w.net := by
      rcases hn with rfl | ⟨e, he⟩
      · exact Nat.le_refl _
      · exact hN.takeError he d
    cases noticed h with
    | broken | waiting => exact fun _ => Nat.le_refl _
    | failed _ hn hs | noted _ hn hs => exact hs.nothingArrives (hasked hn)
  reschedule p w := by
    intro d
    change Sockets.queued d (if p.attached then _ else w : Host N C).net ≤ _
    split <;> exact Nat.le_refl _

end Tcp

/-- A pipe that yields bytes yields some of those that its backlog counts, and what comes of any
other receive is that it is not readable. -/
structure Pipe.Draining {P N C : Type} [Sockets N] [Pipe P (Host N C) C] (sound : P → Prop) :
    Prop where
  lasting : ∀ (p : P) (w : Host N C), 0 < Pipe.backlog p w
  nothingArrives :
    ∀ (p : P) {w w' : Host N C}, w.NothingArrives w' → Pipe.backlog p w' ≤ Pipe.backlog p w
  data : ∀ {n : Nat} {p p' : P} {w w' : Host N C} {chunk : Bytes}, sound p → 0 < n →
    Pipe.recv n p w = .ok (.ok (.data chunk), p', w') →
    chunk ≠ [] ∧ chunk.length + Pipe.backlog p' w' ≤ Pipe.backlog p w
  within : ∀ {n : Nat} {p p' : P} {w w' : Host N C} {chunk : Bytes}, sound p →
    Pipe.recv n p w = .ok (.ok (.data chunk), p', w') → chunk.length ≤ n
  dry : ∀ {n : Nat} {p p' : P} {w w' : Host N C} {result}, sound p →
    Pipe.recv n p w = .ok (result, p', w') → LeavesUsable result →
      (∀ chunk, result ≠ .ok (.data chunk)) →
    (state p').isReadable = false

/-- A receive that leaves the pipe readable takes from what its backlog counts. -/
structure Pipe.Depleting {P N C : Type} [Sockets N] [Pipe P (Host N C) C] (sound : P → Prop) :
    Prop where
  lasting : ∀ {p : P} (w : Host N C), sound p → 0 < Pipe.backlog p w
  nothingArrives : ∀ {p : P} {w w' : Host N C}, sound p → w.NothingArrives w' →
    Pipe.backlog p w' ≤ Pipe.backlog p w
  recv : ∀ {n : Nat} {p p' : P} {w w' : Host N C} {result}, sound p →
    (state p).isReadable = true → 0 < n → Pipe.recv n p w = .ok (result, p', w') →
      LeavesUsable result →
    (state p').isReadable = true → Pipe.backlog p' w' < Pipe.backlog p w

variable {N C : Type} [Sockets N]

theorem Pipe.Draining.depleting {P : Type} [Pipe P (Host N C) C] {sound : P → Prop}
    (h : Pipe.Draining (N := N) (C := C) sound) : Pipe.Depleting (N := N) (C := C) sound where
  lasting w _ := h.lasting _ w
  nothingArrives _ := h.nothingArrives _
  recv := by
    intro n p p' w w' result hs _ hn hr hm hreadable
    by_cases hdata : ∃ chunk, result = .ok (.data chunk)
    · obtain ⟨chunk, rfl⟩ := hdata
      obtain ⟨hsome, htaken⟩ := h.data hs hn hr
      have hlength := List.length_pos_iff.mpr hsome
      omega
    · have hdry := h.dry hs hr hm fun chunk hresult => hdata ⟨chunk, hresult⟩
      exact absurd (hdry.symm.trans hreadable) Bool.false_ne_true

theorem Tcp.draining [LawfulSockets N] (hN : Sockets.AsAnnounced N) :
    Pipe.Draining (N := N) (C := C) (fun p : Tcp => Tcp.outlook.regular p) where
  lasting p w := Nat.succ_pos _
  nothingArrives p _ _ h := Nat.add_le_add_right (h p.fd) 2
  data := by
    intro n p p' w w' chunk _ hn h
    generalize hresult : (Except.ok (.data chunk) : PipeResult Recv) = result at h
    cases received h with
    | nothing _ hzero => omega
    | @data read net _ _ _ _ hr hd hs =>
      cases hresult
      refine ⟨hd, ?_⟩
      have htaken := hN.taken hr
      change chunk.length + (Sockets.queued p'.fd w'.net + 2) ≤ Sockets.queued p.fd w.net + 2
      rw [hs.pipe, hs.net]
      dsimp only
      omega
    | broken | ended | refused | failed => cases hresult
  within _ h := by
    cases received h with
    | nothing => exact Nat.zero_le _
    | data _ _ hr => exact LawfulSockets.read_le hr
  dry := by
    intro n p p' w w' result _ h hm hnone
    cases received h with
    | nothing => exact absurd rfl (hnone [])
    | data => exact absurd rfl (hnone _)
    | broken | failed => cases hm _ rfl
    | ended _ _ _ hs | refused _ _ _ _ hs =>
      rw [hs.pipe]
      rfl

theorem Atomic.draining {P : Type} [Pipe P (Host N C) C] {o : Outlook P}
    (h : Pipe.Draining (N := N) (C := C) o.regular) :
    Pipe.Draining (N := N) (C := C) (fun p : Atomic P => (outlook o).regular p) where
  lasting p := h.lasting p.inner
  nothingArrives p _ _ := h.nothingArrives p.inner
  data := by
    intro n p p' w w' chunk hs hn hrecv
    obtain ⟨⟨_, inner, _⟩, hrecv, heq⟩ := Checked.bind_eq_ok_iff.mp hrecv
    cases heq
    exact h.data hs.inner hn hrecv
  within := by
    intro n p p' w w' chunk hs hrecv
    obtain ⟨⟨_, inner, _⟩, hrecv, heq⟩ := Checked.bind_eq_ok_iff.mp hrecv
    cases heq
    exact h.within hs.inner hrecv
  dry := by
    intro n p p' w w' result hs hrecv hm hnone
    obtain ⟨⟨_, inner, _⟩, hrecv, heq⟩ := Checked.bind_eq_ok_iff.mp hrecv
    cases heq
    rw [state_isReadable]
    exact h.dry hs.inner hrecv hm hnone

namespace Datagram

variable {P : Type} [Pipe P (Host N C) C] {o : Outlook (Atomic P)}

omit [Sockets N] in
theorem backlog_eq (p : Datagram P) (w : Host N C) :
    Pipe.backlog p w = p.assembled.length + 2 * Pipe.backlog p.inner w := by
  have hbuffered : p.buffered = p.assembled.length := by
    unfold buffered assembled
    cases p.assembly <;> rfl
  change p.buffered + _ = _
  rw [hbuffered]

theorem length_rest_lt {limit : Nat} {bytes payload rest : Bytes}
    (h : firstFrame limit bytes = .ok (some (payload, rest))) : rest.length < bytes.length := by
  have hbytes := congrArg List.length (eq_wire_of_firstFrame h).1
  have hframe := List.length_pos_iff.mpr (wire_ne_nil payload)
  rw [List.length_append] at hbytes
  omega

/-- Bytes that are received count for one instead of two, and a datagram that is returned does not
count any more. -/
theorem backlog_lt {room m : Nat} {p p' : Datagram P} {inner : Atomic P} {w w' : Host N C}
    {answer result : PipeResult Recv}
    (hd : Pipe.Draining (N := N) (C := C) o.regular) (hs : o.regular p.inner) (hm : 0 < m)
    (hr : Pipe.recv m p.inner w = .ok (answer, inner, w'))
    (hf : firstFrame (min p.maxSize room) p.assembled = .ok none)
    (hg : Gathers room p.view inner answer result p'.view) (hmild : LeavesUsable result)
    (hreadable : p'.view.shown.isReadable = true)
    (hshown : p'.view.shown.isReadable =
      ((state p'.view.inner).isReadable || complete p'.view.assembled)) :
    Pipe.backlog p' w' < Pipe.backlog p w := by
  rw [hreadable] at hshown
  have hbacklog (v : View P) (hv : p'.view = v) :
      Pipe.backlog p' w' = v.assembled.length + 2 * Pipe.backlog v.inner w' := by
    rw [← hv]
    exact backlog_eq p' w'
  rw [backlog_eq p w]
  have hincomplete := complete_of_firstFrame hf
  generalize p'.view = v at hg hbacklog hshown
  rw [hbacklog v rfl]
  cases hg with
  | violated | cut => cases hmild _ rfl
  | @refused e =>
    have hdry := hd.dry hs hr hmild nofun
    have hshown : true = ((state inner).isReadable || complete p.assembled) := hshown
    rw [hdry, hincomplete] at hshown
    cases hshown
  | ended ha =>
    have hdry := hd.dry hs hr nofun nofun
    have hshown : true = ((state inner).isReadable || complete p.assembled) := hshown
    rw [hdry, hincomplete] at hshown
    cases hshown
  | @incomplete chunk =>
    obtain ⟨hsome, htaken⟩ := hd.data hs hm hr
    have hlength := List.length_pos_iff.mpr hsome
    change (p.assembled ++ chunk).length + _ < _
    rw [List.length_append]
    dsimp only
    omega
  | @completed chunk payload rest hframe =>
    obtain ⟨_, htaken⟩ := hd.data hs hm hr
    have hless := length_rest_lt (front_eq_some_iff.mp hframe)
    change rest.length + _ < _
    change rest.length < (p.assembled ++ chunk).length at hless
    rw [List.length_append] at hless
    dsimp only
    omega

theorem depleting (ho : o.Lawful (N := N) (C := C))
    (hd : Pipe.Draining (N := N) (C := C) o.regular) :
    Pipe.Depleting (N := N) (C := C) (fun p : Datagram P => (outlook o).regular p) where
  lasting {p} w _ := by
    have hlasting := hd.lasting p.inner w
    rw [backlog_eq]
    omega
  nothingArrives {p _ _} _ h := by
    have hebbing := hd.nothingArrives p.inner h
    rw [backlog_eq, backlog_eq]
    omega
  recv := by
    intro room p p' w w' result hs hreadable hn hrecv hm hstill
    have hb : p.broken = false := hs.intact
    have hi := (ho.unbroken hs.inner).1
    have hregular' := ((outlook_lawful ho).recv hs hreadable hrecv hm).regular
    have hshown := View.Regular.isReadable hregular' ho
    rw [state_eq] at hstill
    cases hf : front p.maxSize room p.assembled with
    | error reason =>
      obtain ⟨q, hq⟩ := recv_violated (w := w) hb hi hf
      rw [hq] at hrecv
      cases hrecv
      cases hm _ rfl
    | ok found =>
      cases found with
      | some found =>
        obtain ⟨payload, rest⟩ := found
        obtain ⟨q, hq, hview⟩ := recv_found (w := w) hb hi hf
        rw [hq] at hrecv
        cases hrecv
        have hrest : p'.assembled = rest := congrArg View.assembled hview
        have hinner : p'.inner = p.inner := congrArg View.inner hview
        have hless := length_rest_lt (front_eq_some_iff.mp hf)
        rw [backlog_eq, backlog_eq, hrest, hinner]
        omega
      | none =>
        have hnone : firstFrame (min p.maxSize room) p.assembled = .ok none := by
          rw [firstFrame_eq, hf]
          rfl
        rcases recv_asks (w := w) hb hi hf with ⟨m, hpos, hstuck, hgathers⟩ | ⟨hstuck, _⟩
        · cases hinner : Pipe.recv m p.inner w with
          | error v =>
            rw [hstuck hinner] at hrecv
            cases hrecv
          | ok x =>
            obtain ⟨answer, inner, w₁⟩ := x
            have hfits (chunk : Bytes) (hchunk : answer = .ok (.data chunk)) :
                chunk.length ≤ m := by
              subst hchunk
              exact hd.within hs.inner hinner
            obtain ⟨r, q, hq, hg⟩ := hgathers hinner hfits
            rw [hq] at hrecv
            cases hrecv
            exact backlog_lt hd hs.inner hpos hinner hnone hg hm hstill hshown
        · rw [hstuck] at hrecv
          cases hrecv

end Datagram

namespace Stacked

theorem depleting_link [LawfulSockets N] (hN : Sockets.AsAnnounced N) {layers : List Layer}
    (h : layers = [] ∨ layers = [.datagram]) :
    let _ := shownPipe (B := Tcp) (W := Host N C) layers
    Pipe.Depleting (N := N) (C := C) (fun p => (outlook layers).regular p) := by
  have htcp := Tcp.draining (C := C) hN
  rcases h with rfl | rfl
  · exact htcp.depleting
  · exact Datagram.depleting (P := Tcp) (Atomic.outlook_lawful Tcp.outlook_lawful)
      (Atomic.draining htcp)

end Stacked

namespace Stack

/-- A connection without layers, or with one of datagrams, runs dry. -/
theorem depleting [LawfulSockets N] (hN : Sockets.AsAnnounced N) :
    Pipe.Depleting (N := N) (C := C) (fun s : Stack Tcp => s.IsLink ∧ outlook.regular s) := by
  let _ (layers : List Layer) : Pipe (Stacked Tcp layers) (Host N C) C := Stacked.shownPipe layers
  have hlayers {layers : List Layer} (h : layers = [] ∨ layers = [.datagram]) :=
    Stacked.depleting_link (C := C) hN h
  constructor
  · intro s w hs
    exact (hlayers hs.1).lasting w hs.2
  · intro s w w' hs h
    exact (hlayers hs.1).nothingArrives hs.2 h
  · intro n s s' w w' result hs hreadable hn h hm hstill
    obtain ⟨top, hrecv, rfl⟩ := rewrap_eq_ok h
    exact (hlayers hs.1).recv hs.2 hreadable hn hrecv hm hstill

end Stack

end DuplexRelay
