import DuplexRelay.Proofs.Bridge.Lifecycle
import DuplexRelay.Proofs.Bridge.Waking

/-! What stays true of a bridge as long as it does not fail. An activity is a notice of readiness
followed by a flush and transfers, so it is enough that each of these upholds it. -/

namespace DuplexRelay

open Outlook (LeavesUsable)

/-- Every operation that leaves a pipe of use upholds what is said of the pipe. -/
structure Pipe.Upholds {P C : Type} (W : Type) [Pipe P W C] (K : P → Prop) : Prop where
  recv : ∀ {n : Nat} {p p' : P} {w w' : W} {result}, K p →
    Pipe.recv n p w = .ok (result, p', w') → LeavesUsable result → K p'
  send : ∀ {data : Bytes} {p p' : P} {w w' : W} {result}, K p →
    Pipe.send data p w = .ok (result, p', w') → LeavesUsable result → K p'
  sendFin : ∀ {p p' : P} {w w' : W} {status}, K p →
    Pipe.sendFin p w = .ok (.ok status, p', w') → K p'
  react : ∀ {events : SocketEvents} {p p' : P} {w w' : W} {report}, K p →
    Pipe.react events p w = .ok (report, p', w') → report.broken = false → K p'

namespace Bridge

variable {P W C : Type} [Pipe P W C] {J : Bridge P → Prop} {Due : Side → Bridge P → Prop}
  {b b' : Bridge P} {w w' : W}

/-- The parts of an activity uphold what is said of the bridge, unless they fail. A side is due for
a flush by what a notice told. -/
structure Sustained (W : Type) [Pipe P W C] (J : Bridge P → Prop) (Due : Side → Bridge P → Prop) :
    Prop where
  noticed : ∀ {b : Bridge P} {s : Side} {events : SocketEvents} {report pipe} {w w' : W}, J b →
    Pipe.react events (b.side s).pipe w = .ok (report, pipe, w') → report.broken = false →
    J (b.setSide s { b.side s with pipe }) ∧
      (report.writable = true → Due s (b.setSide s { b.side s with pipe }))
  flushed : ∀ {b b' : Bridge P} {dst : Side} {w w' : W}, J b → Due dst b →
    Flushed dst b w (.ok ()) b' w' → J b'
  transferred : ∀ {b b' : Bridge P} {src : Side} {n : Nat} {w w' : W}, J b → CanRelay src b →
    Transferred src b w (.ok n) b' w' → J b'
  died : ∀ {b : Bridge P}, J b → J b.die

namespace Sustained

theorem relayed (h : Sustained W J Due) {src : Side} {n : Nat} {result : PipeResult Unit}
    (hb : J b) (hr : Relayed src n b w result b' w') (hok : result = .ok ()) : J b' := by
  induction hr with
  | stopped | yielded => exact hb
  | failed => cases hok
  | more hv ht _ ih =>
    exact ih (h.transferred hb (canRelay_of_verdict hv) (Bridge.transferred ht)) hok

theorem writePhase (h : Sustained W J Due) {s : Side} {report : PipeEvents}
    {result : PipeResult Unit} (hb : J b) (hdue : report.writable = true → Due s b)
    (hw : WritePhase s report b w result b' w') (hok : result = .ok ()) : J b' := by
  cases hw with
  | skipped => exact hb
  | failed => cases hok
  | full hwrite hf => exact h.flushed hb (hdue hwrite) (Bridge.flushed hf)
  | relayed hwrite hf _ hr =>
    have hflush := h.flushed hb (hdue hwrite) (Bridge.flushed hf)
    exact h.relayed hflush hr hok

theorem handled (h : Sustained W J Due) {s : Side} {report : PipeEvents} {result : PipeResult Unit}
    (hb : report.broken = false → J b ∧ (report.writable = true → Due s b))
    (hh : Handled s report b w result b' w') (hok : result = .ok ()) : J b' := by
  cases hh with
  | broken => cases hok
  | failed => cases hok
  | done hbroken hw hr =>
    obtain ⟨hb, hdue⟩ := hb hbroken
    have hwrite := h.writePhase hb hdue hw rfl
    cases hr with
    | skipped => exact hwrite
    | relayed _ _ hrel => exact h.relayed hwrite hrel hok

/-- Only a failure makes an end of what is upheld. -/
theorem acted (h : Sustained W J Due) {s : Side} {events : SocketEvents} {ending : Option Bool}
    (hb : b.dead = true ∨ J b) (ha : Acted s events b w ending b' w') :
    (b'.dead = true ∨ J b') ∧ (b'.dead = false ∨ ending = some true → J b') := by
  have hgood : ∀ {report : PipeEvents} {pipe : P} {w₁ : W} {b' : Bridge P}, b.dead = false →
      Pipe.react events (b.side s).pipe w = .ok (report, pipe, w₁) →
      Handled s report (b.setSide s { b.side s with pipe }) w₁ (.ok ()) b' w' → J b' := by
    intro report pipe w₁ b' hd hr hh
    have hlive := hb.resolve_left (by simp [hd])
    exact h.handled (fun hbroken => h.noticed hlive hr hbroken) hh rfl
  cases ha with
  | ignored hd => exact ⟨hb, by simp [hd]⟩
  | failed => exact ⟨.inl rfl, by simp [die]⟩
  | closed hd hr hh =>
    have hlast := h.died (hgood hd hr hh)
    exact ⟨.inr hlast, fun _ => hlast⟩
  | lives hd hr hh => exact ⟨.inr (hgood hd hr hh), fun _ => hgood hd hr hh⟩

theorem course (h : Sustained W J Due) {activities : List (Activity W)} {all : List (Episode P W)}
    (hb : b.dead = true ∨ J b) (hc : course activities b w = .ok all) :
    ∀ e ∈ all, e.after.dead = false ∨ e.ending = some true → J e.after := by
  induction activities generalizing b w all with
  | nil =>
    cases hc
    exact fun e he => absurd he List.not_mem_nil
  | cons a rest ih =>
    unfold Bridge.course at hc
    simp only [Checked.bind_eq_ok_iff] at hc
    obtain ⟨⟨ending, b', w'⟩, hact, later, hlater, heq⟩ := hc
    cases heq
    obtain ⟨hnext, hnow⟩ := h.acted hb (Bridge.acted hact)
    intro e he
    rcases List.mem_cons.mp he with rfl | he
    · exact hnow
    · exact ih hnext hlater e he

end Sustained

/-- What holds of each pipe by itself needs to be upheld by the pipes only. -/
theorem sustained_of_pipes {K : P → Prop} (h : Pipe.Upholds W K) :
    Sustained W (fun b : Bridge P => ∀ s, K (b.side s).pipe) fun _ _ => True := by
  have hput : ∀ {b : Bridge P} {d : Side} {new : BridgeSide P}, (∀ s, K (b.side s).pipe) →
      K new.pipe → ∀ s, K ((b.setSide d new).side s).pipe := by
    intro b d new hb hnew
    refine Side.forall_of d ?_ ?_
    · rwa [side_setSide]
    · rw [side_setSide_peer]
      exact hb d.peer
  constructor
  · intro b s events report pipe w w' hb hr hbroken
    exact ⟨hput hb (h.react (hb s) hr hbroken), fun _ => trivial⟩
  · intro b b' dst w w' hb _ hf
    generalize hresult : (Except.ok () : PipeResult Unit) = result at hf
    cases hf with
    | idle => exact hb
    | failed => cases hresult
    | refused _ hs => exact hput hb (h.send (hb dst) hs (by rintro e ⟨⟩; rfl))
    | partly _ hs | done _ hs => exact hput hb (h.send (hb dst) hs nofun)
    | @closed _ _ _ _ _ _ answer _ hs _ _ _ hc =>
      cases answer with
      | error e => cases hresult
      | ok status => exact hput hb (h.sendFin (h.send (hb dst) hs nofun) hc)
  · intro b b' src n w w' hb _ ht
    generalize hresult : (Except.ok n : PipeResult Nat) = result at ht
    cases ht with
    | failed | undeliverable => cases hresult
    | dry _ hr => exact hput hb (h.recv (hb src) hr (by rintro e ⟨⟩; rfl))
    | @ended _ _ _ _ answer _ hr hc =>
      cases answer with
      | error e => cases hresult
      | ok status => exact hput (hput hb (h.recv (hb src) hr nofun)) (h.sendFin (hb src.peer) hc)
    | relayed _ hr hs ht | congested _ hr hs ht =>
      have hread := h.recv (hb src) hr nofun
      exact hput (hput hb hread) (h.send (hb src.peer) hs (leavesUsable_of_took ht))
  · intro b hb s
    cases s
    · exact hb .left
    · exact hb .right

end Bridge

end DuplexRelay
