import DuplexRelay.Proofs.Bridge.Scenes

/-! No wake-up is lost. Between two passes each side of a bridge waits for whatever it does not
know, and a direction in which something can be relayed at once is told again. -/

namespace DuplexRelay

namespace Bridge

open Relay (Link)

section Scenes

variable {N O D : Type} [Sockets N]
variable {foreign : D → SocketEvents → Reactor (Side ⊕ D) → Scene N O →
  Checked (Reactor (Side ⊕ D) × Scene N O)}

theorem obeys_invoke (hf : OthersOnly foreign) : Reactor.Obeys (invoke foreign) := by
  intro callback events r sc r' sc' h
  have hasked : r.Asked (fun _ => True) r' := by
    cases callback with
    | inr d => exact asked_othersStep (hf h)
    | inl s =>
      unfold invoke at h
      cases hb : sc.bridge with
      | none =>
        simp only [hb] at h
        cases h
        exact .refl _ _
      | some b =>
        simp only [hb] at h
        obtain ⟨⟨ending, b', host⟩, hact, heq⟩ := Checked.bind_eq_ok_iff.mp h
        cases heq
        exact worldRelation_asked.acted (acted hact)
  obtain ⟨requests, _, hperform⟩ := hasked
  exact ⟨requests, hperform⟩

theorem outlook_advanced {C : Type} :
    Pipe.Below (W := Host N C) Stack.outlook.base Tcp.Advanced := by
  rw [show Stack.outlook.base = Stack.base from funext Stack.outlook_base]
  exact Tcp.links_advanced

/-- A bridge that is called for one of its sides waits for nothing in vain thereafter, as long as it
lives. -/
theorem unstalled_called {r : Reactor (Side ⊕ D)} {b b' : Bridge Link} {net : N}
    {w' : Host N (Side ⊕ D)} {due : Reactor.Due (Side ⊕ D)} {s : Side} {ending : Option Bool}
    (hr : r.Sound none) (hdue : r.nextDue? none = some due) (hs : due.callback = .inl s)
    (hw : Unstalled Stack.outlook b r) (howned : RegisteredToSides b r) (hd : b'.dead = false)
    (h : Acted s due.events b { net, reactor := r.takeDue due.id } ending b' w') :
    Unstalled Stack.outlook b' w'.reactor ∧ RegisteredOrRunning due.callback b' w'.reactor := by
  have htaken : ∀ {fd reg}, r.registration? fd = some reg →
      ∃ reg', (r.takeDue due.id).registration? fd = some reg' ∧ reg'.interest = reg.interest ∧
        reg'.forced = reg.forced ∧ (reg' = reg ∨
          reg.callback = some due.callback ∧ reg.pending = due.events ∧ reg'.callback = none) := by
    intro fd reg hreg
    rcases Reactor.registration?_takeDue hr.wf hdue hreg with hsame | ⟨hc, hp, htaken⟩
    · exact ⟨reg, hsame, rfl, rfl, .inl rfl⟩
    · exact ⟨_, htaken, rfl, rfl, .inr ⟨hc, hp, rfl⟩⟩
  have hwork : PipesAtWork Stack.outlook b (r.takeDue due.id) := by
    refine ⟨(Reactor.sound_takeDue hr due.id).wf, hw.atWork.undisposed, hw.atWork.apart,
      hw.atWork.regular, ?_, hw.atWork.unclosed⟩
    intro s
    have hold := hw.atWork.waiting s
    refine ⟨hold.attached, hold.interest, ?_⟩
    obtain ⟨reg, hreg, hinterest⟩ := Option.map_eq_some_iff.mp hold.registered
    obtain ⟨reg', hreg', hsame, _⟩ := htaken hreg
    exact Option.map_eq_some_iff.mpr ⟨reg', hreg', hsame.trans hinterest⟩
  -- a side whose events were taken out is told of them now
  have hk : ∀ src, CanRelay src b → src = s ∧ due.events.readable = true ∨
      (r.takeDue due.id).WillBeTold (b.fdOf Stack.outlook src) := by
    intro src hh
    obtain ⟨reg, hreg, htell⟩ := hw.willBeTold src hh
    obtain ⟨reg', hreg', _, hforced, hsame | ⟨hc, hp, _⟩⟩ := htaken hreg
    · exact .inr ⟨reg', hreg', hsame ▸ htell⟩
    · rcases htell with hf | hpending
      · exact .inr ⟨reg', hreg', .inl (hforced ▸ hf)⟩
      · obtain ⟨own, hown, hcallback⟩ := howned src
        rw [hreg] at hown
        cases hown
        rw [hc, hs] at hcallback
        cases hcallback
        exact .inl ⟨rfl, hp ▸ hpending⟩
  have halive := h.alive hd
  let w : Host N (Side ⊕ D) := { net, reactor := r.takeDue due.id }
  rcases unstalled_acted (w := w) Stack.outlook_lawful outlook_advanced hwork hw.full hk halive h
    with hdead | ⟨hwatched, hfd, hretained⟩
  · exact absurd (hd.symm.trans hdead) Bool.false_ne_true
  · refine ⟨hwatched, ?_⟩
    intro src
    obtain ⟨reg, hreg, hcallback⟩ := howned src
    obtain ⟨reg₁, hreg₁, _, _, hc⟩ := htaken hreg
    obtain ⟨reg', hreg', hkept⟩ := hretained src reg₁ hreg₁
    rw [hfd]
    refine ⟨reg', hreg', ?_⟩
    rw [hkept.callback]
    rcases hc with rfl | ⟨hc, _, hnone⟩
    · rw [hcallback, Option.some_or]
    · rw [hnone, Option.none_or, ← hc, hcallback]

theorem keeps_sceneUnstalled (hf : OthersOnly foreign) :
    Reactor.KeptByCalls (invoke foreign) SceneUnstalled := by
  refine ⟨fun {r sc} h => ?_, fun {due r sc r' sc'} hr hb h hdue hinvoke => ?_⟩
  · intro b hbridge hd hp
    have hsame : SceneUnstalled r.untouched sc := sceneUnstalled_same (r := r) rfl hp .inl h
    exact hsame b hbridge hd hp
  obtain ⟨requests, hrequests⟩ := obeys_invoke hf hinvoke
  have htaken := Reactor.sound_takeDue hr due.id
  have hbusy : (r.takeDue due.id).Busy := hb
  obtain ⟨hsound, hbusy', _⟩ := Reactor.performedAll htaken hbusy hrequests
  have hrunning : ∀ {r₁ : Reactor (Side ⊕ D)}, r₁.Busy → r₁.phase ≠ .disposed := by
    rintro r₁ (hp | hp) <;> simp [hp]
  intro b' hb' hd' _
  -- the callback that ran is the only one that is missing
  suffices hpart : Unstalled Stack.outlook b' r' ∧ RegisteredOrRunning due.callback b' r' by
    obtain ⟨hwatched, howned⟩ := sceneUnstalled_putBack hsound hpart.1 hpart.2
    refine ⟨hwatched, howned, fun hphase => ?_⟩
    have hphase : r'.phase = .idle := hphase
    rcases hbusy' with hp | hp <;> simp [hphase] at hp
  cases hcallback : due.callback with
  | inl s =>
    rw [hcallback] at hinvoke
    unfold invoke at hinvoke
    cases hbridge : sc.bridge with
    | none =>
      simp only [hbridge] at hinvoke
      cases hinvoke
      exact absurd (hbridge.symm.trans hb') (by simp)
    | some b =>
      simp only [hbridge] at hinvoke
      obtain ⟨⟨ending, b₁, host⟩, hact, heq⟩ := Checked.bind_eq_ok_iff.mp hinvoke
      cases heq
      cases hb'
      have hacted := acted hact
      have halive := hacted.alive hd'
      obtain ⟨hw, howned, _⟩ := h b hbridge halive (hrunning hb)
      rw [← hcallback]
      exact unstalled_called hr hdue hcallback hw howned hd' hacted
  | inr d =>
    rw [hcallback] at hinvoke
    have hother : SceneUnstalled (r.takeDue due.id) sc := by
      intro b hbridge hd hp
      obtain ⟨hw, howned, _⟩ := h b hbridge hd hp
      have hsame : ∀ s reg, r.registration? (b.fdOf Stack.outlook s) = some reg →
          (r.takeDue due.id).registration? (b.fdOf Stack.outlook s) = some reg := by
        intro s reg hreg
        rcases Reactor.registration?_takeDue hr.wf hdue hreg with hsame | ⟨hc, _⟩
        · exact hsame
        · obtain ⟨own, hown, hcallbacks⟩ := howned s
          rw [hreg] at hown
          cases hown
          rw [hc, hcallback] at hcallbacks
          cases hcallbacks
      refine ⟨hw.carried htaken.wf hp ?_, ?_, ?_⟩
      · intro s reg hreg
        exact ⟨reg, hsame s reg hreg, rfl, fun htell => htell⟩
      · intro s
        obtain ⟨reg, hreg, hcallbacks⟩ := howned s
        exact ⟨reg, hsame s reg hreg, hcallbacks⟩
      · intro hphase
        have hphase : r.phase = .idle := hphase
        rcases hb with hb | hb <;> simp [hphase] at hb
    obtain ⟨hw, howned, _⟩ :=
      sceneUnstalled_othersStep (hf hinvoke) htaken.wf hother b' hb' hd' (hrunning hbusy')
    exact ⟨hw, howned.registeredOrRunning _⟩

/-- Between passes nothing runs, and a live bridge waits for nothing in vain. -/
theorem ReachedWith.unstalled (hf : OthersOnly foreign) {r : Reactor (Side ⊕ D)} {sc : Scene N O}
    (h : ReachedWith foreign r sc) : r.Resting ∧ SceneUnstalled r sc := by
  induction h with
  | start hnone =>
    refine ⟨Reactor.Reached.new.resting, ?_⟩
    intro b hb
    rw [hnone] at hb
    cases hb
  | around _ ha ih =>
    obtain ⟨hr, hunstalled⟩ := ih
    refine ⟨?_, sceneUnstalled_othersStep ha hr.sound.wf hunstalled⟩
    exact (asked_othersStep ha).keeps hr fun _ hr h => Reactor.resting_performed hr h
  | @passed r r' sc sc' result poll _ hm ih =>
    obtain ⟨hr, hunstalled⟩ := ih
    refine ⟨Reactor.resting_monitor (obeys_invoke hf) hr hm, ?_⟩
    cases Reactor.monitored hm with
    | refused | failed | quiet => exact hunstalled
    | @idle ready hp hs hn =>
      -- nothing was to be told, so nothing changed but what the snapshot noted
      have hcount := Reactor.outstanding_eq (Reactor.sound_snapshot hr.sound ready)
      refine sceneUnstalled_same (r := (r.snapshot ready).begun) rfl (by simp [Reactor.begun])
        (fun _ => .inr ?_) (sceneUnstalled_snapshot ready hp hunstalled)
      exact List.eq_nil_of_length_eq_zero (hcount.symm.trans hn)
    | @passed ready n r₁ _ hp hs hd =>
      have hcount : (r.snapshot ready).begun.undelivered.length ≤
          (r.snapshot ready).outstanding :=
        Nat.le_of_eq (Reactor.outstanding_eq (Reactor.sound_snapshot hr.sound ready)).symm
      have hobeys : Reactor.Obeys (invoke foreign) := obeys_invoke hf
      have hkeeps : Reactor.KeptByCalls (invoke foreign) SceneUnstalled := keeps_sceneUnstalled hf
      obtain ⟨_, hbusy, hkept, hdone⟩ := Reactor.dispatch_keeps hobeys hkeeps
        (Reactor.sound_begun hr.sound) (.inl rfl) (sceneUnstalled_snapshot ready hp hunstalled)
        (Reactor.nothingDueUpTo_none _) hcount hd
      -- with a reactor that was discarded a bridge waits for nothing
      unfold Reactor.endPass
      split
      · exact fun b hb hd hdisposed => absurd rfl hdisposed
      · rename_i hphase
        have hrunning : r₁.phase ≠ .disposed := by
          rcases hbusy with hp | hp <;> simp [hp]
        exact sceneUnstalled_same (r := r₁) rfl hrunning
          (fun _ => .inr (hdone.resolve_left hphase)) hkept

/-- Between two passes no wake-up is lost, in neither direction of a live bridge: what can be
relayed at once is told again, and where something can not be received or not be given, the
registration of that side waits for the change, unless that way was closed. -/
theorem no_stall (hf : OthersOnly foreign) {r : Reactor (Side ⊕ D)} {sc : Scene N O}
    {b : Bridge Link} (h : ReachedWith foreign r sc) (hp : r.phase ≠ .disposed)
    (hb : sc.bridge = some b) (hd : b.dead = false) (src : Side) : Armed b r src := by
  obtain ⟨hr, hunstalled⟩ := h.unstalled hf
  have hidle : r.phase = .idle := hr.still.resolve_right hp
  obtain ⟨hw, howned, htold⟩ := hunstalled b hb hd hp
  have hlaws := Stack.outlook_lawful (N := N) (C := Side ⊕ D)
  have hregistered : ∀ s : Side, r.interest? (b.side s).pipe.base.fd =
      some (Tcp.wanted (b.side s).pipe.base.bits) := by
    intro s
    rw [← Stack.outlook_base]
    exact (hw.atWork.waiting s).registered
  have hsound : ∀ s : Side, (b.side s).pipe.base.bits.broken = false := by
    intro s
    rw [← Stack.outlook_base]
    exact (hlaws.unbroken (hw.atWork.regular s)).2
  -- a side that takes nothing waits for writability
  have hfull : ∀ s : Side, (state (b.side s).pipe).isWritable = false →
      (state (b.side s).pipe).finSent = true ∨ ∃ interest,
        r.interest? (b.side s).pipe.base.fd = some interest ∧ interest.writable = true := by
    intro s hwrite
    have hbits := hlaws.full (hw.atWork.regular s) hwrite
    have hfin := hlaws.finSent (b.side s).pipe
    rw [Stack.outlook_base] at hbits hfin
    cases hs : (b.side s).pipe.base.bits.finSent with
    | true => exact .inl (hfin.trans hs)
    | false =>
      refine .inr ⟨_, hregistered s, ?_⟩
      unfold Tcp.wanted
      cases (b.side s).pipe.base.bits.ready <;> simp [hsound s, hbits, hs]
  refine ⟨?_, ?_, hfull src.peer, ?_⟩
  · intro hread hwrite
    obtain ⟨reg, hreg, htell⟩ := hw.willBeTold src ⟨hread, hwrite⟩
    have hpending := htold hidle src reg hreg
    rw [hpending] at htell
    rw [fdOf_eq] at hreg
    exact ⟨reg, hreg, htell.resolve_right (by decide)⟩
  · intro hread
    have hbits := hlaws.dry (hw.atWork.regular src) hread
    have hfin := hlaws.finRcvd (b.side src).pipe
    have hready := hlaws.ready (b.side src).pipe
    rw [Stack.outlook_base] at hbits hfin hready
    cases hf : (b.side src).pipe.base.bits.finRcvd with
    | true => exact .inl (hfin.trans hf)
    | false =>
      refine .inr ⟨_, hregistered src, ?_⟩
      unfold Tcp.wanted
      rw [hready]
      cases (b.side src).pipe.base.bits.ready <;> simp [hsound src, hbits, hf]
  · intro hheld
    have hshut : (state (b.side src.peer).pipe).isWritable = false ∧
        (state (b.side src.peer).pipe).finSent = false := by
      rcases hheld with hpending | hholding
      · refine ⟨hw.full src.peer hpending, ?_⟩
        cases hs : (state (b.side src.peer).pipe).finSent with
        | false => rfl
        | true => exact absurd (hlaws.closing hs) (hw.atWork.unclosed src.peer hpending)
      · exact hlaws.held (hw.atWork.regular src.peer) hholding
    rcases hfull src.peer hshut.1 with hs | hwaiting
    · exact absurd (hshut.2.symm.trans hs) Bool.false_ne_true
    · exact hwaiting

end Scenes

def nobody : Empty → SocketEvents → Reactor (Side ⊕ Empty) → Scene SocketPairs Unit →
    Checked (Reactor (Side ⊕ Empty) × Scene SocketPairs Unit) := nofun

theorem othersOnly_nobody : OthersOnly nobody := fun {d} => nomatch d

/-- The first socket is readable, and the second one can be written to. -/
def bothReady (_ : List Fd) : Except OsError (Fd → SocketEvents) :=
  .ok fun fd => if fd = 3 then { readable := true } else { writable := true }

def unbridged : Scene SocketPairs Unit where
  net := pairedHost.net
  others := ()

/-- A pass over a new bridge that finds three bytes on one side, and the way out of the other side
full. -/
def congestedPass : Checked (Reactor (Side ⊕ Empty) × Scene SocketPairs Unit) := do
  let start : Host SocketPairs (Side ⊕ Empty) := { net := unbridged.net, reactor := {} }
  let (_, b, host) ← pairedBridge.attach Sum.inl start
  let net := (host.net.update 3 (·.farWrite [1, 2, 3])).update 4 (·.fill)
  let (_, r, sc) ← host.reactor.monitor bothReady (invoke nobody)
    { net, bridge := some b, others := () }
  return (r, sc)

theorem congestedPass_figures :
    (congestedPass.toOption.any fun x => x.1.phase ≠ .disposed && x.2.bridge.any fun b =>
      !b.dead && (b.side .right).pending.isSome) = true := by
  decide +kernel

theorem reachedWith_congestedPass {r : Reactor (Side ⊕ Empty)} {sc : Scene SocketPairs Unit}
    (h : congestedPass = .ok (r, sc)) : ReachedWith nobody r sc := by
  simp only [congestedPass, Checked.bind_eq_ok_iff] at h
  obtain ⟨⟨result, b, host⟩, hattach, ⟨n, r', sc'⟩, hm, heq⟩ := h
  cases heq
  have hnew : between (.bare (.connected 3)) (.bare (.connected 4)) {} = .ok (.ok pairedBridge) :=
    rfl
  have hdone : result = .ok () := by
    cases hattach
    rfl
  subst hdone
  refine .passed bothReady (.around (.start rfl) (.joined (rfl : unbridged.bridge = none)
    ⟨3, false, 0, .inr rfl⟩ ⟨4, false, 0, .inr rfl⟩ hnew hattach ?_)) hm
  exact .elsewhere _ () (.refl _ _)

theorem no_stall_congested :
    ∃ (r : Reactor (Side ⊕ Empty)) (sc : Scene SocketPairs Unit) (b : Bridge Link),
      congestedPass = .ok (r, sc) ∧ ReachedWith nobody r sc ∧ r.phase ≠ .disposed ∧
        sc.bridge = some b ∧ b.dead = false ∧ (b.side .right).pending ≠ none ∧
        Armed b r .left := by
  have hfigures := congestedPass_figures
  cases hrun : congestedPass with
  | error v => simp [hrun, Except.toOption] at hfigures
  | ok x =>
    obtain ⟨r, sc⟩ := x
    simp only [hrun, Except.toOption, Option.any_some, Bool.and_eq_true, decide_eq_true_eq,
      Option.any_eq_true, Bool.not_eq_true', Option.isSome_iff_ne_none] at hfigures
    obtain ⟨hp, b, hb, hd, hpending⟩ := hfigures
    have hattended := reachedWith_congestedPass hrun
    exact ⟨r, sc, b, rfl, hattended, hp, hb, hd, hpending,
      no_stall othersOnly_nobody hattended hp hb hd .left⟩

end Bridge

end DuplexRelay
