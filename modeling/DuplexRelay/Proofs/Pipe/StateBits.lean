import DuplexRelay.Proofs.Pipe.LayerBits

/-! What the state bits of a pipe say together, and which of them are final. A direction that was
closed, or that broke down, is never told to be open, however late readiness of the socket arrives
and whatever the layers hold. -/

namespace DuplexRelay

open Pipe (useAll)

/-- The state bits of a pipe agree with each other, and what is final in them is there after
whatever else is done with the pipe. -/
structure Pipe.Steadfast {P C : Type} (W : Type) [Pipe P W C] (p : P) : Prop where
  coherent : (state p).Coherent
  lasting : ∀ {turns : List (PipeTurn W C)} {p' : P} {w w' : W},
    useAll turns p w = .ok (p', w') → (state p).Lasts (state p')

section Layers

variable {N C : Type} [Sockets N] {fd : Fd} {spent : N → Prop} {net : N}

theorem Tcp.steadfast {p : Tcp} (hm : p.TakesNothing) (h : p.Ended fd spent net) :
    Pipe.Steadfast (Host N C) p where
  coherent := coherent hm h
  lasting hrun := (lasts_kept (state p)).useAll_forall (.refl _) hrun

theorem Atomic.steadfast {p : Atomic Tcp} (hm : p.inner.TakesNothing)
    (h : p.inner.Ended fd spent net) : Pipe.Steadfast (Host N C) p where
  coherent := coherent (Tcp.coherent hm h)
  lasting hrun :=
    lasts ((Tcp.lasts_kept (state p.inner)).atomic.useAll_forall (.refl _) hrun)

theorem Datagram.steadfast {p : Datagram Tcp} (hm : p.inner.inner.TakesNothing)
    (h : p.inner.inner.Ended fd spent net)
    (he : p.Emptied fun a => a.inner.bits.finRcvd = true) :
    Pipe.Steadfast (Host N C) p ∧ ((state p).finRcvd = true → p.hasComplete = false) := by
  have hnone : (state p.inner).finRcvd = true → p.hasComplete = false := by
    intro hf
    rw [Atomic.state_finRcvd] at hf
    rw [hasComplete_eq, he hf]
    exact complete_nil
  refine ⟨⟨coherent (Atomic.coherent (Tcp.coherent hm h)) hnone, ?_⟩, hnone⟩
  intro turns p' w w' hrun
  have hinner : (state p.inner).Lasts (state p'.inner) :=
    Atomic.lasts
      ((Tcp.lasts_kept (state p.inner.inner)).atomic.datagram.useAll_forall (.refl _) hrun)
  refine ⟨hinner.ready, ?_, hinner.finSent, hinner.finRcvd⟩
  -- the framing can be violated while the pipe below is sound
  exact fun hb => (latching (Atomic.latching Tcp.latching)).final hb hrun

end Layers

/-- However a pipe over a socket is used since it was new, its state bits agree with each other, and
what is final in them stays. It is required of the socket that it yields nothing after the end of
its stream. -/
theorem state_bits_steadfast {N C : Type} [Sockets N] {fd : Fd} {spent : N → Prop} {start : Tcp}
    {turns : List (PipeTurn (Host N C) C)} {w w' : Host N C} (hover : Sockets.Final fd spent)
    (hm : ∀ turn ∈ turns, ∀ v : Host N C, spent v.net → spent (turn.meanwhile v).net)
    (hstart : start = .connecting fd ∨ start = .connected fd) :
    (∀ p : Tcp, useAll turns start w = .ok (p, w') → Pipe.Steadfast (Host N C) p) ∧
    (∀ p : Atomic Tcp, useAll turns { inner := start } w = .ok (p, w') →
      Pipe.Steadfast (Host N C) p ∧ (p.finWanted = true → 0 < p.queued)) ∧
    ∀ (maxSize : Nat) (new p : Datagram Tcp), Datagram.wrap start maxSize = .ok new →
      useAll turns new w = .ok (p, w') →
      Pipe.Steadfast (Host N C) p ∧ ((state p).finRcvd = true → p.hasComplete = false) ∧
        (p.inner.finWanted = true → 0 < p.inner.queued) := by
  have hnew : start.TakesNothing ∧ start.Ended fd spent w.net := by
    rcases hstart with rfl | rfl
    · exact ⟨nofun, rfl, nofun, nofun⟩
    · exact ⟨nofun, rfl, nofun, nofun⟩
  have hkept := (Tcp.takesNothing_kept (N := N) (C := C)).and (Tcp.ended_kept hover)
  refine ⟨?_, ?_, ?_⟩
  · intro p hrun
    obtain ⟨hmute, hended⟩ := hkept.useAll (Pipe.accompanied_of_forall (fun turn hturn p v h =>
      ⟨h.1, h.2.meanwhile (hm turn hturn v)⟩) _ _) hnew hrun
    exact Tcp.steadfast hmute hended
  · intro p hrun
    obtain ⟨⟨hmute, hended⟩, htidy⟩ := (hkept.atomic.and Atomic.queueConsistent_kept).useAll
      (Pipe.accompanied_of_forall (fun turn hturn p v h =>
        ⟨⟨h.1.1, h.1.2.meanwhile (hm turn hturn v)⟩, h.2⟩) _ _)
          ⟨hnew, Atomic.queueConsistent_fresh _⟩ hrun
    exact ⟨Atomic.steadfast hmute hended, htidy.queued_pos⟩
  · intro maxSize new p hwrap hrun
    obtain ⟨_, rfl⟩ := Datagram.eq_of_wrap hwrap
    have hemptied := Datagram.emptied_kept hkept.atomic (Atomic.notesEnd Tcp.notesEnd) <| by
      intro n q q' v v' chunk h hf hrecv
      obtain ⟨⟨_, inner, _⟩, hrecv, heq⟩ := Checked.bind_eq_ok_iff.mp hrecv
      cases heq
      exact h.2.silent hover hf hrecv
    obtain ⟨⟨⟨hmute, hended⟩, hheld⟩, htidy⟩ :=
      (hemptied.and Atomic.queueConsistent_kept.datagram).useAll
        (Pipe.accompanied_of_forall (fun turn hturn p v h =>
          ⟨⟨⟨h.1.1.1, h.1.1.2.meanwhile (hm turn hturn v)⟩, h.1.2⟩, h.2⟩) _ _)
        ⟨⟨hnew, fun _ => rfl⟩, Atomic.queueConsistent_fresh _⟩ hrun
    obtain ⟨hsteady, hnone⟩ := Datagram.steadfast hmute hended hheld
    exact ⟨hsteady, hnone, htidy.queued_pos⟩

/-- Something happens at the far end of the connection with descriptor 3. -/
def farSide (f : SocketPair → SocketPair) (w : Host SocketPairs Side) : Host SocketPairs Side :=
  { w with net := w.net.update 3 f }

/-- A datagram and the end of the stream come in, and then late readiness. -/
def lateReadiness : List (PipeTurn (Host SocketPairs Side) Side) :=
  [{ meanwhile := id, use := .attach .left },
    { meanwhile := farSide (·.farWrite [1, 7]), use := .recv 16 },
    { meanwhile := farSide (·.farFin), use := .recv 16 },
    { meanwhile := id, use := .sendFin },
    { meanwhile := farSide (·.farWrite [1, 8]),
      use := .react { readable := true, writable := true } }]

theorem readOut_lateReadiness :
    ∀ turn ∈ lateReadiness, ∀ w : Host SocketPairs Side,
      SocketPairs.ReadOut 3 w.net → SocketPairs.ReadOut 3 (turn.meanwhile w).net := by
  intro turn hturn w hover
  simp only [lateReadiness, List.mem_cons, List.not_mem_nil, or_false] at hturn
  rcases hturn with rfl | rfl | rfl | rfl | rfl
  · exact hover
  · exact SocketPairs.readOut_update (SocketPairs.drained_farWrite _) hover
  · exact SocketPairs.readOut_update (fun p hp => ⟨hp.1, rfl⟩) hover
  · exact hover
  · exact SocketPairs.readOut_update (SocketPairs.drained_farWrite _) hover

theorem lateReadiness_outcome :
    (useAll lateReadiness { inner := { inner := .connected 3 }, maxSize := 2 }
      Bridge.pairedHost).toOption.map (fun x : Datagram Tcp × _ =>
        ((state x.1).finRcvd, (state x.1).finSent)) = some (true, true) := by
  decide +kernel

theorem state_bits_steadfast_late :
    ∃ (p : Datagram Tcp) (w : Host SocketPairs Side),
      useAll lateReadiness { inner := { inner := .connected 3 }, maxSize := 2 } Bridge.pairedHost =
        .ok (p, w) ∧
      (state p).finRcvd = true ∧ (state p).readable = false ∧ p.hasComplete = false ∧
      (state p).finSent = true ∧ (state p).writable = false ∧
      ∀ (more : List (PipeTurn (Host SocketPairs Side) Side)) (p' : Datagram Tcp)
        (w' : Host SocketPairs Side), useAll more p w = .ok (p', w') →
        (state p').finRcvd = true ∧ (state p').finSent = true := by
  obtain ⟨⟨p, w⟩, hrun, houtcome⟩ := Checked.toOption_map_eq_some_iff.mp lateReadiness_outcome
  obtain ⟨hrcvd, hsent⟩ := Prod.mk.inj houtcome
  obtain ⟨hsteady, hnone, _⟩ := (state_bits_steadfast (SocketPairs.final 3) readOut_lateReadiness
    (.inr rfl)).2.2 2 _ p rfl hrun
  refine ⟨p, w, hrun, hrcvd, hsteady.coherent.finRcvd hrcvd, hnone hrcvd, hsent,
    hsteady.coherent.finSent hsent, ?_⟩
  intro more p' w' hmore
  have hlasts := hsteady.lasting hmore
  exact ⟨hlasts.finRcvd hrcvd, hlasts.finSent hsent⟩

end DuplexRelay
