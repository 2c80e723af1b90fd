import DuplexRelay.Proofs.Pipe.Depletion
import DuplexRelay.Proofs.Pipe.Intake

/-! A connection on which nothing but zero bytes arrive. Each receive of a datagram pipe over it
takes one of them as an empty datagram, and none of them stays behind. -/

namespace DuplexRelay

namespace SocketPairs

variable {fd : Fd} {n k : Nat} {net net' : SocketPairs}

/-- So many zero bytes wait on an open connection, and nothing else. -/
def Flooded (fd : Fd) (n : Nat) (net : SocketPairs) : Prop :=
  ∃ p, net.pair? fd = some p ∧ p.nearOpen = true ∧ p.ended = false ∧ p.error = none ∧
    p.inbound.toList = List.replicate n 0

def Sendable (fd : Fd) (net : SocketPairs) : Prop :=
  ∃ p, net.pair? fd = some p ∧ p.nearOpen = true ∧ p.farOpen = true ∧ p.nearShut = false

theorem Flooded.of_same (h : Flooded fd n net) (hs : net'.pair? fd = net.pair? fd) :
    Flooded fd n net' := by
  obtain ⟨p, hp, hfound⟩ := h
  exact ⟨p, hs.trans hp, hfound⟩

theorem Sendable.of_same (h : Sendable fd net) (hs : net'.pair? fd = net.pair? fd) :
    Sendable fd net' := by
  obtain ⟨p, hp, hfound⟩ := h
  exact ⟨p, hs.trans hp, hfound⟩

theorem Flooded.read {answer : Except OsError Bytes} (h : Flooded fd n net)
    (hr : Sockets.read fd k net = (answer, net')) :
    (n = 0 ∧ answer = .error (.number OsError.eagain) ∨
      0 < n ∧ answer = .ok (List.replicate (min k n) 0)) ∧
      Flooded fd (n - k) net' ∧ ∀ d, d ≠ fd → net'.pair? d = net.pair? d := by
  obtain ⟨p, hp, hopen, hended, herror, hzeros⟩ := h
  replace hr : atNearEnd fd (·.read k) net = (answer, net') := hr
  unfold atNearEnd at hr
  simp only [hp, hopen, if_true] at hr
  by_cases hn : n = 0
  · subst hn
    have hread : p.read k = (.error (.number OsError.eagain), p) := by
      unfold SocketPair.read
      rw [if_pos ((ByteQueue.isEmpty_iff _).mpr hzeros), herror]
      simp [hended]
    rw [hread] at hr
    cases hr
    refine ⟨.inl ⟨rfl, rfl⟩, ⟨p, pair?_put_self fd p net, hopen, hended, herror, ?_⟩, ?_⟩
    · rw [Nat.zero_sub]
      exact hzeros
    · exact fun d hd => pair?_put_of_ne hd p net
  · have hsome : ¬p.inbound.isEmpty = true := by
      rw [ByteQueue.isEmpty_iff, hzeros, List.replicate_eq_nil_iff]
      exact hn
    have hread :
        p.read k = (.ok (p.inbound.pop k).1, { p with inbound := (p.inbound.pop k).2 }) := by
      unfold SocketPair.read
      rw [if_neg hsome]
    rw [hread] at hr
    cases hr
    refine ⟨.inr ⟨by omega, ?_⟩, ⟨_, pair?_put_self fd _ net, hopen, hended, herror, ?_⟩, ?_⟩
    · rw [ByteQueue.pop_fst, hzeros, List.take_replicate]
    · change (p.inbound.pop k).2.toList = _
      rw [ByteQueue.toList_pop, hzeros, List.drop_replicate]
    · exact fun d hd => pair?_put_of_ne hd _ net

theorem Sendable.send {answer : Except OsError Nat} (h : Sendable fd net)
    (hs : Sockets.send fd [] net = (answer, net')) :
    answer = .ok 0 ∧ ∀ d, net'.pair? d = net.pair? d := by
  obtain ⟨p, hp, hnear, hfar, hshut⟩ := h
  replace hs : atNearEnd fd (·.send []) net = (answer, net') := hs
  unfold atNearEnd at hs
  have hsend : p.send [] = (.ok 0, p) := by
    unfold SocketPair.send
    simp [hfar, hshut]
  simp only [hp, hnear, if_true, hsend] at hs
  cases hs
  refine ⟨rfl, fun d => ?_⟩
  by_cases hd : d = fd
  · rw [hd, pair?_put_self, hp]
  · exact pair?_put_of_ne hd p net

end SocketPairs

open SocketPairs (Flooded Sendable)

/-- A socket on which nothing but zero bytes arrive. Those that were read and those that wait are
`total`, and as long as there are any that wait, the socket is known to be readable. -/
structure Logged.OnlyZeros (fd : Fd) (total : Nat) (l : Logged Tcp) (net : SocketPairs) : Prop where
  socket : l.pipe.fd = fd
  intact : l.pipe.bits.broken = false
  waiting : ∃ n, Flooded fd n net ∧ (Logged.ledger.read l).length + n = total ∧
    (l.pipe.bits.readable = false → n = 0)

/-- A socket that takes what it is given. -/
structure Logged.TakesAll (fd : Fd) (l : Logged Tcp) (net : SocketPairs) : Prop where
  socket : l.pipe.fd = fd
  intact : l.pipe.bits.broken = false
  writable : l.pipe.bits.writable = true
  sendable : Sendable fd net

theorem Logged.TakesAll.isWritable {fd : Fd} {l : Logged Tcp} {net : SocketPairs}
    (h : l.TakesAll fd net) : (state l).isWritable = true := by
  change l.pipe.bits.normalized.isWritable = true
  simp [PipeState.normalized, PipeState.isWritable, h.intact, h.writable]

variable {C : Type} {fd : Fd} {total room : Nat} {w w' : Host SocketPairs C}

/-- A read took as many of the zero bytes as there was room for, and all of them if the socket is
not known to be readable any more. -/
theorem Logged.OnlyZeros.read {l : Logged Tcp} {p : Tcp} {answer : PipeResult Recv} {n : Nat}
    {bits : PipeState} {net : SocketPairs} (hfd : l.pipe.fd = fd)
    (hs : Tcp.Settled bits l.pipe { w with net } p w') (hb : bits.broken = false)
    (hnet : Flooded fd (n - room) net)
    (hcount : (Logged.ledger.read l).length + (chunksOf answer).flatten.length + (n - room) = total)
    (hdry : bits.readable = false → n = 0) :
    (l.note (.received answer) p).OnlyZeros fd total w'.net := by
  refine ⟨?_, ?_, n - room, ?_, ?_, ?_⟩
  · exact (congrArg Tcp.fd hs.pipe).trans hfd
  · exact (congrArg (·.bits.broken) hs.pipe).trans hb
  · rw [hs.net]
    exact hnet
  · simpa [Logged.ledger, Logged.note, PipeCall.read] using hcount
  · intro hunreadable
    have hbits : (l.note (.received answer) p).pipe.bits = bits := congrArg Tcp.bits hs.pipe
    rw [hbits] at hunreadable
    have hnone := hdry hunreadable
    omega

theorem Logged.OnlyZeros.recv {l l' : Logged Tcp} {answer : PipeResult Recv}
    (h : l.OnlyZeros fd total w.net) (hr : Pipe.recv room l w = .ok (answer, l', w')) :
    l'.OnlyZeros fd total w'.net ∧ (∀ d, d ≠ fd → w'.net.pair? d = w.net.pair? d) ∧
      (answer = .error .wouldBlock ∨ ∃ k, answer = .ok (.data (List.replicate k 0))) := by
  obtain ⟨n, hflooded, hread, hdry⟩ := h.waiting
  obtain ⟨⟨_, p, _⟩, hrecv, heq⟩ := Checked.map_eq_ok_iff.mp hr
  have hcalls : Logged.ledger.read l' = Logged.ledger.read l ++ (chunksOf answer).flatten := by
    simp [Logged.ledger, Logged.calls_recv hr, PipeCall.read]
  cases heq
  cases Tcp.received hrecv with
  | broken hb => exact absurd (h.intact.symm.trans hb) Bool.false_ne_true
  | nothing =>
    refine ⟨⟨h.socket, h.intact, n, hflooded, ?_, hdry⟩, fun _ _ => rfl, .inr ⟨0, rfl⟩⟩
    rw [hcalls, List.length_append]
    exact hread
  | ended _ hn hnet hs =>
    rw [h.socket] at hnet
    obtain ⟨⟨_, hbad⟩ | ⟨hpos, hdata⟩, _⟩ := hflooded.read hnet
    · cases hbad
    · simp only [Except.ok.injEq] at hdata
      have hlength := congrArg List.length hdata
      rw [List.length_replicate, List.length_nil] at hlength
      omega
  | data _ _ hnet _ hs =>
    rw [h.socket] at hnet
    obtain ⟨⟨_, hbad⟩ | ⟨hpos, hdata⟩, hrest, hothers⟩ := hflooded.read hnet
    · cases hbad
    · cases hdata
      refine ⟨.read h.socket hs h.intact hrest ?_ ?_, ?_, .inr ⟨_, rfl⟩⟩
      · simp only [chunksOf, List.flatten_cons, List.flatten_nil, List.append_nil,
          List.length_replicate]
        omega
      · intro hunreadable
        cases hunreadable
      · rw [hs.net]
        exact hothers
  | refused _ _ hnet _ hs =>
    rw [h.socket] at hnet
    obtain ⟨⟨hnone, _⟩ | ⟨_, hbad⟩, hrest, hothers⟩ := hflooded.read hnet
    · refine ⟨.read h.socket hs h.intact hrest ?_ fun _ => hnone, ?_, .inl rfl⟩
      · simp only [chunksOf, List.flatten_nil, List.length_nil]
        omega
      · rw [hs.net]
        exact hothers
    · cases hbad
  | failed _ _ hnet he =>
    rw [h.socket] at hnet
    obtain ⟨⟨_, herror⟩ | ⟨_, hbad⟩, _⟩ := hflooded.read hnet
    · cases herror
      cases he
    · cases hbad

theorem Logged.TakesAll.send {l l' : Logged Tcp} {answer : PipeResult Nat}
    (h : l.TakesAll fd w.net) (hcall : Pipe.send [] l w = .ok (answer, l', w')) :
    l'.TakesAll fd w'.net ∧ (∀ d, w'.net.pair? d = w.net.pair? d) ∧ answer = .ok 0 := by
  obtain ⟨⟨_, p, _⟩, hsend, heq⟩ := Checked.map_eq_ok_iff.mp hcall
  cases heq
  cases Tcp.transmitted hsend with
  | broken _ hb => exact absurd (h.intact.symm.trans hb) Bool.false_ne_true
  | taken _ _ hnet hs =>
    rw [h.socket] at hnet
    obtain ⟨hzero, hsame⟩ := h.sendable.send hnet
    cases hzero
    rw [hs.net]
    refine ⟨⟨?_, ?_, ?_, h.sendable.of_same (hsame fd)⟩, hsame, rfl⟩
    · exact (congrArg Tcp.fd hs.pipe).trans h.socket
    · exact (congrArg (·.bits.broken) hs.pipe).trans h.intact
    · exact congrArg (·.bits.writable) hs.pipe
  | refused _ _ hnet | failed _ _ hnet =>
    rw [h.socket] at hnet
    cases (h.sendable.send hnet).1

theorem Atomic.onlyZeros_recv {a a' : Atomic (Logged Tcp)} {answer : PipeResult Recv}
    (h : a.inner.OnlyZeros fd total w.net) (hr : Pipe.recv room a w = .ok (answer, a', w')) :
    a'.inner.OnlyZeros fd total w'.net ∧ (∀ d, d ≠ fd → w'.net.pair? d = w.net.pair? d) ∧
      (answer = .error .wouldBlock ∨ ∃ k, answer = .ok (.data (List.replicate k 0))) := by
  obtain ⟨⟨_, l, _⟩, hrecv, heq⟩ := Checked.bind_eq_ok_iff.mp hr
  cases heq
  exact h.recv hrecv

namespace Datagram

/-- Of zero bytes, an empty datagram comes first, if any. -/
theorem firstFrame_zeros {limit m : Nat} {found : Except Unit (Option (Bytes × Bytes))}
    (h : firstFrame limit (List.replicate m 0) = found) :
    found = .ok none ∨ ∃ k, found = .ok (some ([], List.replicate k 0)) := by
  rw [← h]
  cases m with
  | zero => exact .inl rfl
  | succ k =>
    have hwire : wire [] = [0] := by
      rw [wire, List.length_nil, Varint.encode]
      rfl
    have hempty : ([] : Bytes).length ≤ Varint.maxValue := Nat.zero_le _
    have hfirst := firstFrame_wire (Nat.zero_le limit) hempty (List.replicate k 0)
    rw [hwire] at hfirst
    exact .inr ⟨k, hfirst⟩

/-- Nothing but zero bytes arrive, and nothing else waits in the reassembly buffer. -/
structure View.OnlyZeros (fd : Fd) (total : Nat) (v : View (Logged Tcp)) (net : SocketPairs) :
    Prop where
  inner : v.inner.inner.OnlyZeros fd total net
  intact : v.broken = false
  zeros : ∃ k, v.assembled = List.replicate k 0

variable {v v' : View (Logged Tcp)}

theorem View.OnlyZeros.of_same {net net' : SocketPairs} (h : v.OnlyZeros fd total net)
    (hs : net'.pair? fd = net.pair? fd) : v.OnlyZeros fd total net' := by
  obtain ⟨n, hflooded, hrest⟩ := h.inner.waiting
  exact ⟨⟨h.inner.socket, h.inner.intact, n, hflooded.of_same hs, hrest⟩, h.intact, h.zeros⟩

theorem View.OnlyZeros.unbroken {net : SocketPairs} (h : v.OnlyZeros fd total net) :
    (state v.inner).broken = false := by
  rw [← h.inner.intact]
  change (if v.inner.queue.isSome then _ else _ : PipeState).broken = _
  split <;> rfl

/-- Once the socket is not known to be readable, all of the bytes were read. -/
theorem View.OnlyZeros.drained {net : SocketPairs} (h : v.OnlyZeros fd total net)
    (hr : v.shown.isReadable = false) : (Logged.ledger.read v.inner.inner).length = total := by
  rw [View.isReadable_shown h.unbroken h.intact, Bool.or_eq_false_iff,
    Atomic.state_isReadable] at hr
  obtain ⟨n, _, hread, hdry⟩ := h.inner.waiting
  have hbits : v.inner.inner.pipe.bits.readable = false := by
    have hunreadable : (v.inner.inner.pipe.bits.normalized).isReadable = false := hr.1
    simpa [PipeState.normalized, PipeState.isReadable, h.inner.intact] using hunreadable
  have hnone := hdry hbits
  omega

theorem View.OnlyZeros.received {result : PipeResult Recv} (h : v.OnlyZeros fd total w.net)
    (hr : Received room v w result v' w') :
    v'.OnlyZeros fd total w'.net ∧ (∀ d, d ≠ fd → w'.net.pair? d = w.net.pair? d) ∧
      (result = .error .wouldBlock ∨ result = .ok (.data [])) := by
  obtain ⟨k, hzeros⟩ := h.zeros
  cases hr with
  | broken hb =>
    rcases hb with hb | hb
    · exact absurd (h.intact.symm.trans hb) Bool.false_ne_true
    · exact absurd (h.unbroken.symm.trans hb) Bool.false_ne_true
  | found _ _ hf =>
    rw [hzeros] at hf
    rcases firstFrame_zeros hf with hnone | ⟨j, hempty⟩
    · cases hnone
    · cases hempty
      exact ⟨⟨h.inner, h.intact, j, rfl⟩, fun _ _ => rfl, .inr rfl⟩
  | violated _ _ hf =>
    rw [hzeros] at hf
    rcases firstFrame_zeros hf with hnone | ⟨_, hempty⟩
    · cases hnone
    · cases hempty
  | refused _ _ _ hr =>
    obtain ⟨hinner, hothers, hanswer⟩ := Atomic.onlyZeros_recv h.inner hr
    refine ⟨⟨hinner, h.intact, k, hzeros⟩, hothers, .inl ?_⟩
    rcases hanswer with hblocked | ⟨_, hdata⟩
    · cases hblocked
      rfl
    · cases hdata
  | incomplete _ _ _ hr =>
    obtain ⟨hinner, hothers, hanswer⟩ := Atomic.onlyZeros_recv h.inner hr
    rcases hanswer with hblocked | ⟨m, hdata⟩
    · cases hblocked
    · cases hdata
      refine ⟨⟨hinner, h.intact, k + m, ?_⟩, hothers, .inl rfl⟩
      rw [← List.replicate_append_replicate, ← hzeros]
  | completed _ _ _ hr hn =>
    obtain ⟨hinner, hothers, hanswer⟩ := Atomic.onlyZeros_recv h.inner hr
    rcases hanswer with hblocked | ⟨m, hdata⟩
    · cases hblocked
    · cases hdata
      rw [hzeros, List.replicate_append_replicate] at hn
      rcases firstFrame_zeros hn with hnone | ⟨j, hempty⟩
      · cases hnone
      · cases hempty
        exact ⟨⟨hinner, h.intact, j, rfl⟩, hothers, .inr rfl⟩
  | corrupted _ _ _ hr hn =>
    obtain ⟨_, _, hblocked | ⟨m, hdata⟩⟩ := Atomic.onlyZeros_recv h.inner hr
    · cases hblocked
    · cases hdata
      rw [hzeros, List.replicate_append_replicate] at hn
      rcases firstFrame_zeros hn with hnone | ⟨_, hempty⟩
      · cases hnone
      · cases hempty
  | ended _ _ _ hr | cut _ _ _ _ hr =>
    obtain ⟨_, _, hblocked | ⟨_, hdata⟩⟩ := Atomic.onlyZeros_recv h.inner hr
    · cases hblocked
    · cases hdata

end Datagram

end DuplexRelay
