import DuplexRelay.Pipe.Stack
import DuplexRelay.Relay.Run
import DuplexRelay.Proofs.Bridge.Exactness
import DuplexRelay.Proofs.Pipe.Atomic
import DuplexRelay.Proofs.Pipe.Datagram
import DuplexRelay.Proofs.Pipe.Tcp
import DuplexRelay.Proofs.Socket

/-! Byte exactness of bridges over sockets, whatever layers are on the pipes. -/

namespace DuplexRelay

theorem Tcp.sendsWithin {N C : Type} [Sockets N] [LawfulSockets N] :
    SendsWithin Tcp (Host N C) := by
  intro data p p' w w' n h
  cases Tcp.transmitted h with
  | taken hf hb hr hs => exact LawfulSockets.send_le hr

theorem Atomic.sendsWithin {P W C : Type} [Pipe P W C] : SendsWithin (Atomic P) W := by
  intro data p p' w w' n h
  cases Atomic.sentWhole h with
  | all => exact Nat.le_refl _
  | part => exact Nat.le_refl _

theorem Datagram.sendsWithin {P W C : Type} [Pipe P W C] : SendsWithin (Datagram P) W := by
  intro data p p' w w' n h
  generalize hresult : (Except.ok n : PipeResult Nat) = result at h
  cases Datagram.sent h with
  | broken => cases hresult
  | excessive => cases hresult
  | waiting => cases hresult
  | unframed => cases hresult
  | @passed framed r inner w' hb hs hw hf hr =>
    cases r with
    | error e => cases hresult
    | ok k =>
      cases hresult
      exact Nat.le_refl _

/-- Only a pipe without layers passes on what its transport says. -/
theorem Stack.sendsWithin {B W C : Type} [Pipe B W C] (hb : SendsWithin B W) :
    SendsWithin (Stack B) W := by
  intro data p p' w w' n h
  obtain ⟨layers, top⟩ := p
  replace h : Stack.rewrap layers ((Stacked.pipe layers).send data top w) =
    .ok (.ok n, p', w') := h
  simp only [Stack.rewrap, Checked.bind_eq_ok_iff] at h
  obtain ⟨⟨r, top', w₁⟩, hs, h⟩ := h
  cases h
  match layers with
  | [] => exact hb hs
  | .atomic :: rest =>
    let _ := Stacked.pipe (B := B) (W := W) rest
    exact Atomic.sendsWithin (P := Stacked B rest) hs
  | .datagram :: rest =>
    let _ := Stacked.pipe (B := B) (W := W) rest
    exact Datagram.sendsWithin (P := Stacked B rest) hs

namespace Bridge

variable {P W C : Type} [Pipe P W C]

theorem exact_of_between {left right : P} {config : BridgeConfig} {b : Bridge (Recorded P)}
    (h : between (Recorded.fresh left) (.fresh right) config = .ok (.ok b)) : Exact b := by
  rw [between_eq_ok h]
  refine exact_of_balanced rfl ?_ ?_
  · intro d
    cases d <;> rfl
  · intro s
    cases s <;> exact ⟨rfl, rfl⟩

theorem congestions_of_attached {b b' : Bridge P} {callback : Side → C} {w w' : W}
    {result : Except Failure Unit} (h : Attached callback b w result b' w') (s : Side) :
    (b'.side s).traffic.congestions = (b.side s).traffic.congestions := by
  cases h <;> cases s <;> rfl

theorem undergo_mapPipes {Q : Type} [Pipe Q W C] {f : Q → P} (hf : Pipe.Erases W f)
    (activities : List (Activity W)) (b : Bridge Q) (w : W) :
    undergo activities (b.mapPipes f) w =
      (undergo activities b w).map fun x => (x.1.mapPipes f, x.2) := by
  induction activities generalizing b w with
  | nil => rfl
  | cons a rest ih =>
    unfold undergo
    rw [onActivity_mapPipes hf, Checked.bind_map, Checked.map_bind]
    refine bind_congr ?_
    rintro ⟨ending, b', w'⟩
    exact ih b' w'

/-- Whatever the sockets do, and whenever a bridge over them is told of readiness, in each direction
it gave one side exactly what it took from the other, as far as it is not still queued. The records
are those of a run over recorded pipes, which is the same run. Once the bridge is dead, what it gave
is still a prefix of what it took. -/
theorem links_relay_exactly {N : Type} [Sockets N] [LawfulSockets N] {left right : Relay.Link}
    {config : BridgeConfig} {callback : Side → C} {activities : List (Activity (Host N C))}
    {b b₁ b₂ : Bridge Relay.Link} {w w₁ w₂ : Host N C} {result : Except Failure Unit}
    (hb : between left right config = .ok (.ok b))
    (ha : b.attach callback w = .ok (result, b₁, w₁))
    (hu : undergo activities b₁ w₁ = .ok (b₂, w₂)) :
    ∃ r r₁ r₂ : Bridge (Recorded Relay.Link),
      between (Recorded.fresh left) (.fresh right) config = .ok (.ok r) ∧
      r.attach callback w = .ok (result, r₁, w₁) ∧
      undergo activities r₁ w₁ = .ok (r₂, w₂) ∧ r₂.mapPipes Recorded.pipe = b₂ ∧
      (∃ states, Path r₁ w₁ states r₂ w₂) ∧
      ∀ src : Side,
        (b₂.dead = false →
          r₂.acceptedBy src.peer ++ (b₂.side src.peer).queued = r₂.receivedFrom src) ∧
        r₂.acceptedBy src.peer <+: r₂.receivedFrom src ∧
        (b₂.stats.side src).traffic.received = (r₂.receivedFrom src).length ∧
        (b₂.stats.side src.peer).traffic.sent = (r₂.acceptedBy src.peer).length ∧
        ∀ states, Path r₁ w₁ states r₂ w₂ →
          (b₂.stats.side src.peer).traffic.congestions = queueings src.peer states := by
  obtain ⟨r, hr, rfl⟩ := between_mapPipes Recorded.pipe (.fresh left) (.fresh right) hb
  have herases : Pipe.Erases (Host N C) (Recorded.pipe : Recorded Relay.Link → Relay.Link) :=
    Recorded.erases
  rw [attach_mapPipes herases] at ha
  obtain ⟨⟨_, r₁, _⟩, hattach, heq⟩ := Checked.map_eq_ok_iff.mp ha
  simp only [Prod.mk.injEq] at heq
  obtain ⟨rfl, rfl, rfl⟩ := heq
  rw [undergo_mapPipes herases] at hu
  obtain ⟨⟨r₂, _⟩, hundergo, heq⟩ := Checked.map_eq_ok_iff.mp hu
  simp only [Prod.mk.injEq] at heq
  obtain ⟨rfl, rfl⟩ := heq
  have hlawful : SendsWithin Relay.Link (Host N C) := Stack.sendsWithin Tcp.sendsWithin
  have halive : r.dead = false := by rw [between_eq_ok hr]
  have hstart := exact_of_attached (attached hattach) halive (exact_of_between hr)
  obtain ⟨states, hpath⟩ := reaches_of_undergo hundergo
  have hend := exact_of_path hlawful hpath hstart
  refine ⟨r, r₁, r₂, hr, hattach, hundergo, rfl, ⟨states, hpath⟩, ?_⟩
  intro src
  rw [stats_mapPipes herases, hend.shown, hend.shown]
  refine ⟨?_, ?_, (hend.counted src).1, (hend.counted src.peer).2, ?_⟩
  · intro hd
    have hbalanced := hend.balanced hd src.peer
    rw [Side.peer_peer] at hbalanced
    rw [← hbalanced, side_mapPipes]
    rfl
  · have hordered := hend.ordered src.peer
    rwa [Side.peer_peer] at hordered
  · intro states hpath
    have hnew : (r.side src.peer).traffic.congestions = 0 := by
      rw [between_eq_ok hr]
      cases src <;> rfl
    rw [congestions_of_path hpath, congestions_of_attached (attached hattach), hnew, Nat.zero_add]

def pairedHost : Host SocketPairs Side where
  net := (SocketPairs.connect 4 {}).connect 3
  reactor := {}

def pairedBridge : Bridge Relay.Link where
  left := { pipe := .bare (.connected 3), recvSize := 8192 }
  right := { pipe := .bare (.connected 4), recvSize := 8192 }
  budget := 65536

/-- Three bytes arrive while the way out of the other socket is full, which is emptied later. -/
def congestedActivities : List (Activity (Host SocketPairs Side)) :=
  [ { side := .right, events := { writable := true }, meanwhile := id },
    { side := .left, events := { readable := true },
      meanwhile := fun w => { w with
        net := (w.net.update 3 (·.farWrite [1, 2, 3])).update 4 (·.fill) } },
    { side := .right, events := { writable := true },
      meanwhile := fun w => { w with net := (w.net.farRead 4).2 } } ]

def congestedRun : Checked (Bridge Relay.Link × Host SocketPairs Side) := do
  let (_, b, w) ← pairedBridge.attach id pairedHost
  undergo congestedActivities b w

theorem congestedRun_figures :
    (congestedRun.toOption.any fun x => !x.1.dead &&
      (x.1.stats.side .left).traffic = { received := 3 } &&
      (x.1.stats.side .right).traffic = { sent := 3, congestions := 1 }) = true := by
  decide +kernel

theorem links_relay_exactly_congested :
    between (.bare (.connected 3)) (.bare (.connected 4)) {} = .ok (.ok pairedBridge) ∧
    ∃ (b : Bridge Relay.Link) (w : Host SocketPairs Side), congestedRun = .ok (b, w) ∧
      ∃ r : Bridge (Recorded Relay.Link), r.mapPipes Recorded.pipe = b ∧
        (r.receivedFrom .left).length = 3 ∧
        r.acceptedBy .right ++ (b.side .right).queued = r.receivedFrom .left := by
  have hnew : between (.bare (.connected 3)) (.bare (.connected 4)) {} = .ok (.ok pairedBridge) :=
    rfl
  refine ⟨hnew, ?_⟩
  have hfigures := congestedRun_figures
  cases hrun : congestedRun with
  | error v => simp [hrun, Except.toOption] at hfigures
  | ok x =>
    obtain ⟨b, w⟩ := x
    simp only [hrun, Except.toOption, Option.any_some, Bool.and_eq_true, Bool.not_eq_true',
      decide_eq_true_eq] at hfigures
    obtain ⟨⟨halive, hleft⟩, _⟩ := hfigures
    refine ⟨b, w, rfl, ?_⟩
    simp only [congestedRun, Checked.bind_eq_ok_iff] at hrun
    obtain ⟨⟨result, b₁, w₁⟩, ha, hu⟩ := hrun
    obtain ⟨_, _, r₂, _, _, _, hmap, _, hdirection⟩ :=
      links_relay_exactly hnew ha hu
    obtain ⟨hall, _, hreceived, _, _⟩ := hdirection .left
    refine ⟨r₂, hmap, ?_, hall halive⟩
    rw [← hreceived, hleft]

end Bridge

end DuplexRelay
