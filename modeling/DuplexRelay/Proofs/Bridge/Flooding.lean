import DuplexRelay.Proofs.Bridge.Contract
import DuplexRelay.Proofs.Bridge.Intake
import DuplexRelay.Proofs.Pipe.ZeroBytes
import DuplexRelay.Proofs.Relay.Settings

/-! Empty datagrams are beyond the budget. A side with framing on which nothing but zero bytes
arrive is read until there is none of them left, however many there were, because each of them is a
datagram that counts nothing. -/

namespace DuplexRelay

open SocketPairs (Flooded Sendable)

variable {C : Type} {fd : Fd} {total room : Nat} {w w' : Host SocketPairs C}

namespace Bridge

open Relay (Link link_eq_ok)

/-- Nothing but zero bytes arrive on the left side, which frames datagrams, and the right side takes
what it is given. -/
structure OnlyZeros (total : Nat) (b : Bridge Audited) (net : SocketPairs) : Prop where
  left : ∃ p : Datagram (Logged Tcp), (b.side .left).pipe.pipe = ⟨[.datagram], p⟩ ∧
    p.view.OnlyZeros 3 total net
  right : ∃ l : Logged Tcp, (b.side .right).pipe.pipe = ⟨[], l⟩ ∧ l.TakesAll 4 net
  budget : 0 < b.budget

variable {b b' : Bridge Audited} {n : Nat}

theorem OnlyZeros.recv {answer : PipeResult Recv} {a : Audited} (h : b.OnlyZeros total w.net)
    (hr : Pipe.recv (b.side .left).recvSize (b.side .left).pipe w = .ok (answer, a, w')) :
    (∃ p : Datagram (Logged Tcp), a.pipe = ⟨[.datagram], p⟩ ∧ p.view.OnlyZeros 3 total w'.net) ∧
      (∃ l : Logged Tcp, (b.side .right).pipe.pipe = ⟨[], l⟩ ∧ l.TakesAll 4 w'.net) ∧
      (answer = .error .wouldBlock ∨ answer = .ok (.data [])) := by
  obtain ⟨p, hp, hswept⟩ := h.left
  obtain ⟨l, hl, htaking⟩ := h.right
  obtain ⟨s, hlink, rfl⟩ := Recorded.recv_eq_ok hr
  rw [hp] at hlink
  obtain ⟨p', hrecv, rfl⟩ := Stack.rewrap_eq_ok hlink
  obtain ⟨hswept', hothers, hanswer⟩ :=
    hswept.received (Datagram.received (P := Logged Tcp) hrecv)
  refine ⟨⟨p', ?_, hswept'⟩, ⟨l, hl, htaking.socket, htaking.intact, htaking.writable, ?_⟩, hanswer⟩
  · rw [Recorded.noteRecv_pipe]
  · exact htaking.sendable.of_same (hothers 4 (by decide))

theorem sent_nothing {answer : PipeResult Nat} {a a' : Audited}
    (h : ∃ l : Logged Tcp, a.pipe = ⟨[], l⟩ ∧ l.TakesAll 4 w.net)
    (hs : Pipe.send [] a w = .ok (answer, a', w')) :
    (∃ l : Logged Tcp, a'.pipe = ⟨[], l⟩ ∧ l.TakesAll 4 w'.net) ∧
      (∀ d, w'.net.pair? d = w.net.pair? d) ∧ answer = .ok 0 := by
  obtain ⟨l, hl, htaking⟩ := h
  obtain ⟨s, hlink, rfl⟩ := Recorded.send_eq_ok hs
  rw [hl] at hlink
  obtain ⟨l', hsend, rfl⟩ := Stack.rewrap_eq_ok hlink
  obtain ⟨htaking', hsame, hanswer⟩ := htaking.send hsend
  refine ⟨⟨l', ?_, htaking'⟩, hsame, hanswer⟩
  rw [Recorded.noteSend_pipe]

theorem OnlyZeros.transferred {result : PipeResult Nat} (h : b.OnlyZeros total w.net)
    (ht : Transferred .left b w result b' w') : b'.OnlyZeros total w'.net ∧ result = .ok 0 := by
  cases ht with
  | dry _ hr =>
    obtain ⟨hleft, hright, _⟩ := h.recv hr
    exact ⟨⟨hleft, hright, h.budget⟩, rfl⟩
  | failed _ hr he =>
    obtain ⟨_, _, hblocked | hempty⟩ := h.recv hr
    · cases hblocked
      exact absurd rfl he
    · cases hempty
  | ended _ hr =>
    obtain ⟨_, _, hblocked | hempty⟩ := h.recv hr
    · cases hblocked
    · cases hempty
  | undeliverable _ hr hs he =>
    obtain ⟨_, hright, hblocked | hempty⟩ := h.recv hr
    · cases hblocked
    · cases hempty
      obtain ⟨_, _, hanswer⟩ := sent_nothing hright hs
      cases hanswer
  | relayed _ hr hs =>
    obtain ⟨⟨p, hp, hswept⟩, hright, hblocked | hempty⟩ := h.recv hr
    · cases hblocked
    · cases hempty
      obtain ⟨hright', hsame, _⟩ := sent_nothing hright hs
      exact ⟨⟨⟨p, hp, hswept.of_same (hsame 3)⟩, hright', h.budget⟩, rfl⟩
  | congested _ hr _ _ hn =>
    obtain ⟨_, _, hblocked | hempty⟩ := h.recv hr
    · cases hblocked
    · cases hempty
      exact absurd hn (Nat.not_lt_zero _)

theorem OnlyZeros.isWritable {net : SocketPairs} (h : b.OnlyZeros total net) :
    (state (b.side .right).pipe).isWritable = true := by
  obtain ⟨l, hl, htaking⟩ := h.right
  change (state (b.side .right).pipe.pipe).isWritable = true
  rw [hl]
  exact htaking.isWritable

/-- Relaying that has not used the budget goes on until all bytes were read. -/
theorem OnlyZeros.relayed {result : PipeResult Unit} (h : b.OnlyZeros total w.net) (hn : n = 0)
    (hr : Relayed .left n b w result b' w') :
    result = .ok () ∧ (b'.side .left).pipe.pipe.bytesRead = total := by
  induction hr with
  | @stopped _ b _ hv =>
    refine ⟨rfl, ?_⟩
    obtain ⟨p, hp, hswept⟩ := h.left
    unfold verdict at hv
    split at hv
    · split at hv <;> cases hv
    rename_i hstill
    have hunreadable : (state (b.side .left).pipe).isReadable = false := by
      simpa [Side.peer, h.isWritable] using hstill
    change (state (b.side .left).pipe.pipe).isReadable = false at hunreadable
    rw [hp] at hunreadable ⊢
    apply hswept.drained
    rw [← Datagram.state_eq]
    exact hunreadable
  | @yielded n b _ hv =>
    -- what was relayed has no bytes, so the budget was not used
    have hbudget := h.budget
    unfold verdict at hv
    split at hv
    · split at hv
      · omega
      · cases hv
    · cases hv
  | failed _ ht =>
    cases (h.transferred (Bridge.transferred ht)).2
  | @more _ k _ _ _ _ _ _ _ _ ht _ ih =>
    obtain ⟨hswept, hk⟩ := h.transferred (Bridge.transferred ht)
    cases hk
    exact ih hswept (by omega)

/-- If the other side can be written to, a side that became readable is relayed from. -/
theorem handle_of_readable {P W C : Type} [Pipe P W C] {b : Bridge P} {s : Side} (w : W)
    (hw : (state (b.side s.peer).pipe).isWritable = true) :
    b.handle s { readable := true } w = b.relay s w := by
  simp [handle, hw]

/-- An activity between sockets that keep to what they announced comes to a result, and so does a
whole life of a bridge. -/
theorem course_eq_ok {N : Type} [Sockets N] [LawfulSockets N] (hN : Sockets.AsAnnounced N)
    {left right : Link} {config : BridgeConfig} {callback : Side → C}
    {activities : List (Activity (Host N C))} {b b₁ : Bridge Link} {w w₁ : Host N C}
    {result : Except Failure Unit} (hl : IsNew left) (hr : IsNew right)
    (hb : between left right config = .ok (.ok b)) (hh : Datagram.Holdable config.bufferSize)
    (hw : w.reactor.registrations.WellFormed) (ha : b.attach callback w = .ok (result, b₁, w₁))
    (hm : ∀ a ∈ activities, a.Spares (sockets left right)) :
    ∃ episodes, course activities b₁ w₁ = .ok episodes := by
  have herases : Pipe.Erases (Host N C) (Logged.pipe : Logged Link → Link) := Logged.erases
  have hlinks := (Stack.link_dependable (N := N) (C := C)).erased herases
  obtain ⟨r, rfl, hproper, hfit⟩ := logged_of_attached hl hr hb hw ha
  rw [course_mapPipes herases]
  cases hrun : course activities r w₁ with
  | ok logged => exact ⟨logged.map (Episode.map Logged.pipe), rfl⟩
  | error v =>
    rcases course_error hlinks hm hproper (fun _ => hfit) hrun with ⟨_, hmore⟩ | ⟨_, hlarge⟩
    · exact absurd hN hmore
    · exact absurd hh hlarge

/-- Before the empty datagrams arrive, both sides can be written to. Of their arrival, nothing but
zero bytes is there to be seen. -/
theorem flooded_start {config : BridgeConfig} (hbudget : 0 < config.maxRelayPerEvent)
    (maxSize n : Nat) :
    ∃ (b b₁ : Bridge Audited) (w w₁ w₂ : Host SocketPairs Side) (pipe : Audited),
      (deframingBridge config maxSize).attach id pairedHost = .ok (.ok (), b, w) ∧
      b.onActivity .right { writable := true } w = .ok (none, b₁, w₁) ∧
      b₁.dead = false ∧ (b₁.side .left).pipe.intake = 0 ∧
      Pipe.react { readable := true } (b₁.side .left).pipe ({ w₁ with
        net := w₁.net.update 3 (·.farWrite (List.replicate n 0)) } : Host SocketPairs Side) =
          .ok ({ readable := true }, pipe, w₂) ∧
      (b₁.setPipe .left pipe).OnlyZeros n w₂.net := by
  refine ⟨_, _, _, _, _, _, rfl, rfl, rfl, rfl, rfl, ?_⟩
  constructor
  · refine ⟨_, rfl, ⟨rfl, rfl, n, ?_, Nat.zero_add n, nofun⟩, rfl, 0, rfl⟩
    exact ⟨_, rfl, rfl, rfl, rfl, ByteQueue.toList_push ..⟩
  · exact ⟨_, rfl, rfl, rfl, rfl, _, rfl, rfl, rfl, rfl⟩
  · exact hbudget

theorem floodedCourse_eq_ok {config : BridgeConfig} {maxSize : Nat}
    (hv : config.validate = .ok ()) (hh : Datagram.Holdable config.bufferSize)
    (hmax : maxSize ≤ Varint.maxValue) (n : Nat) :
    ∃ audited, floodedCourse config maxSize n = .ok audited := by
  have herases := Audited.erases (N := SocketPairs) (C := Side)
  have hl : IsNew (framedSource maxSize) := ⟨3, true, maxSize, .inr (link_eq_ok _ fun _ => hmax)⟩
  have hr : IsNew (.bare (.connected 4)) := ⟨4, false, 0, .inr rfl⟩
  have hnew : between (framedSource maxSize) (.bare (.connected 4)) config =
      .ok (.ok ((deframingBridge config maxSize).mapPipes Audited.link)) := by
    rcases between_cases (framedSource maxSize) (Stack.bare (.connected 4)) hv with
      ⟨made, hmade⟩ | ⟨_, hlarge⟩
    · rw [hmade, between_eq_ok hmade]
      rfl
    · unfold Datagram.Holdable at hh
      omega
  have hspares : ∀ a ∈ flood n,
      a.Spares (sockets (framedSource maxSize) (.bare (.connected 4))) := by
    simp only [flood, List.forall_mem_cons]
    exact ⟨fun _ _ _ => id, fun _ _ _ => id, nofun⟩
  have hattached : ∃ x, (deframingBridge config maxSize).attach id pairedHost = .ok x := ⟨_, rfl⟩
  obtain ⟨⟨result, b, w⟩, ha⟩ := hattached
  have hlinked := attach_mapPipes herases (deframingBridge config maxSize) id pairedHost
  rw [ha] at hlinked
  obtain ⟨episodes, hcourse⟩ := course_eq_ok SocketPairs.asAnnounced hl hr hnew hh
    OrderedMap.wellFormed_empty hlinked hspares
  rw [course_mapPipes herases] at hcourse
  obtain ⟨audited, haudited, _⟩ := Checked.map_eq_ok_iff.mp hcourse
  refine ⟨audited, ?_⟩
  unfold floodedCourse
  rw [ha]
  exact haudited

/-- However many empty datagrams arrive at once, one activity takes all of them off the transport,
whatever the settings are. -/
theorem intake_unbounded {config : BridgeConfig} {maxSize : Nat} (hv : config.validate = .ok ())
    (hh : Datagram.Holdable config.bufferSize) (hmax : maxSize ≤ Varint.maxValue) (n : Nat) :
    ∃ audited, floodedCourse config maxSize n = .ok audited ∧ ∃ e ∈ audited,
      (e.before.side .left).pipe.intake = 0 ∧ n ≤ (e.after.side .left).pipe.intake := by
  have hbudget : 0 < config.maxRelayPerEvent := by
    unfold BridgeConfig.validate BridgeConfig.bufferSize at hv
    split at hv
    · cases hv
    split at hv
    · cases hv
    omega
  obtain ⟨audited, hcourse⟩ := floodedCourse_eq_ok hv hh hmax n
  refine ⟨audited, hcourse, ?_⟩
  obtain ⟨b, b₁, w, w₁, w₂, pipe, ha, hfirst, halive, hnone, hreact, hswept⟩ :=
    flooded_start hbudget maxSize n
  unfold floodedCourse at hcourse
  rw [ha] at hcourse
  simp only [Checked.ok_bind, flood, course, Checked.bind_eq_ok_iff] at hcourse
  obtain ⟨_, hfirst', _, ⟨⟨ending, b₂, w₃⟩, hsecond, _, rfl, rfl⟩, heq⟩ := hcourse
  cases hfirst.symm.trans hfirst'
  cases heq
  refine ⟨_, List.mem_cons_of_mem _ List.mem_cons_self, hnone, ?_⟩
  have hread : (b₂.side .left).pipe.pipe.bytesRead = n := by
    unfold onActivity at hsecond
    rw [if_neg (by simp [halive])] at hsecond
    simp only [Checked.bind_eq_ok_iff] at hsecond
    obtain ⟨_, hreact', ⟨result, b₃, w₄⟩, hhandle, hend⟩ := hsecond
    cases hreact.symm.trans hreact'
    rw [handle_of_readable _ hswept.isWritable] at hhandle
    obtain ⟨rfl, hread⟩ := hswept.relayed rfl (Bridge.relayed hhandle)
    dsimp only at hend
    split at hend
    · cases hend
      exact hread
    · cases hend
      exact hread
  calc n = (b₂.side .left).pipe.pipe.bytesRead := hread.symm
    _ ≤ (b₂.side .left).pipe.intake := Nat.le_add_right _ _

end Bridge

end DuplexRelay
