import DuplexRelay.Proofs.Pipe.Atomic
import DuplexRelay.Proofs.Pipe.Outlook

/-! The laws of an atomic pipe, given those of the pipe below it. -/

namespace DuplexRelay

open Outlook (LeavesUsable)

namespace Atomic

variable {P N C : Type} [HasPipeState P]

theorem state_ready (p : Atomic P) : (state p).ready = (state p.inner).ready := by
  change (if p.queue.isSome then _ else _ : PipeState).ready = _
  split <;> rfl

theorem state_broken (p : Atomic P) : (state p).broken = (state p.inner).broken := by
  change (if p.queue.isSome then _ else _ : PipeState).broken = _
  split <;> rfl

theorem state_finSent (p : Atomic P) : (state p).finSent = (state p.inner).finSent := by
  change (if p.queue.isSome then _ else _ : PipeState).finSent = _
  split <;> rfl

theorem state_finRcvd (p : Atomic P) : (state p).finRcvd = (state p.inner).finRcvd := by
  change (if p.queue.isSome then _ else _ : PipeState).finRcvd = _
  split <;> rfl

theorem state_isReadable (p : Atomic P) : (state p).isReadable = (state p.inner).isReadable := by
  change (if p.queue.isSome then _ else _ : PipeState).isReadable = _
  split <;> rfl

theorem state_isWritable_of_queue {p : Atomic P} (h : p.queue ≠ none) :
    (state p).isWritable = false := by
  change (if p.queue.isSome then _ else _ : PipeState).isWritable = _
  rw [if_pos (Option.isSome_iff_ne_none.mpr h)]
  rfl

theorem state_isWritable {p : Atomic P} (h : p.queue = none) :
    (state p).isWritable = (state p.inner).isWritable := by
  change (if p.queue.isSome then _ else _ : PipeState).isWritable = _
  rw [if_neg (by simp [h])]

/-- Nothing is wrong with the pipe below, and it is full while something is queued. -/
structure Regular (o : Outlook P) (p : Atomic P) : Prop where
  inner : o.regular p.inner
  full : p.queue ≠ none → (state p.inner).isWritable = false
  unclosed : p.queue ≠ none → ¬o.closing p.inner
  wanted : p.finWanted = true → p.queue ≠ none

/-- What is known of an atomic pipe. -/
def outlook (o : Outlook P) : Outlook (Atomic P) where
  base p := o.base p.inner
  regular := Regular o
  closing p := p.finWanted = true ∨ o.closing p.inner
  holding p := p.queue ≠ none ∨ o.holding p.inner

variable {o : Outlook P} {p p' : Atomic P}

/-- While nothing is queued, the pipe is as the one below it. -/
theorem regular_of_idle (hq : p.queue = none) (hf : p.finWanted = false)
    (h : o.regular p.inner) : Regular o p :=
  ⟨h, fun hn => absurd hq hn, fun hn => absurd hq hn, fun hw => by simp [hf] at hw⟩

theorem queue_of_isWritable (h : (state p).isWritable = true) : p.queue = none := by
  cases hq : p.queue with
  | none => rfl
  | some queue =>
    rw [state_isWritable_of_queue (by simp [hq])] at h
    cases h

theorem sameIncoming (h : Outlook.SameIncoming p.inner p'.inner) :
    Outlook.SameIncoming p p' := by
  refine ⟨?_, ?_, ?_⟩
  · rw [state_isReadable, state_isReadable]
    exact h.readable
  · rw [state_ready, state_ready]
    exact h.ready
  · rw [state_finRcvd, state_finRcvd]
    exact h.finRcvd

/-- What offering the queue to the pipe below does, where that pipe is writable. -/
structure Offered (o : Outlook P) (events : PipeEvents) (p : Atomic P) (report : PipeEvents)
    (p' : Atomic P) : Prop where
  inner : o.regular p'.inner
  incoming : Outlook.SameIncoming p.inner p'.inner
  closing : o.closing p'.inner ↔ o.closing p.inner
  wanted : p'.finWanted = p.finWanted
  queue : p'.queue ≠ none → p.queue ≠ none
  full : p'.queue ≠ none → (state p'.inner).isWritable = false
  broken : events.broken = false
  readable : report.readable = events.readable
  writable : report.writable = (events.writable && (state p').isWritable)

theorem noticed_of_offered {events : SocketEvents} {report₀ report : PipeEvents} {inner : P}
    (hi : o.Noticed events p.inner report₀ inner) (hr : Regular o p')
    (hc : (outlook o).closing p' ↔ (outlook o).closing p)
    (hin : Outlook.SameIncoming inner p'.inner) (hread : report.readable = report₀.readable)
    (hwrite : report.writable = (state p').isWritable) :
    (outlook o).Noticed events p report p' := by
  refine ⟨hr, hc, ?_, ?_, ?_, ?_, ?_, ?_⟩
  · rw [state_ready, state_ready, hin.ready]
    exact hi.ready
  · rw [state_finRcvd, state_finRcvd, hin.finRcvd]
    exact hi.finRcvd
  · rw [state_isReadable, state_isReadable, hin.readable, hread]
    exact hi.readable
  · intro hw
    exact .inr (hwrite.trans hw)
  · intro hw
    exact hwrite.symm.trans hw
  · rw [state_ready, state_finRcvd, hin.ready, hin.finRcvd, hread]
    exact hi.told

/-- What the pipe below reports is passed on if there is nothing to be flushed, or no way to
flush. -/
theorem noticed_of_passed {events : SocketEvents} {report : PipeEvents} {inner : P}
    (hi : o.Noticed events p.inner report inner) (hr : Regular o p)
    (hidle : report.writable = true → p.queue = none ∧ p.finWanted = false) :
    (outlook o).Noticed events p report { p with inner } := by
  have hwritable : p.queue ≠ none → (state inner).isWritable = false := by
    intro hq
    cases hw : (state inner).isWritable with
    | false => rfl
    | true =>
      rcases hi.writable hw with hold | hreport
      · rw [hr.full hq] at hold
        cases hold
      · exact absurd (hidle hreport).1 hq
  refine ⟨⟨hi.regular, hwritable, ?_, hr.wanted⟩, or_congr Iff.rfl hi.closing, ?_, ?_, ?_, ?_,
    ?_, ?_⟩
  · intro hq hc
    exact hr.unclosed hq (hi.closing.mp hc)
  · rw [state_ready, state_ready]
    exact hi.ready
  · rw [state_finRcvd, state_finRcvd]
    exact hi.finRcvd
  · rw [state_isReadable, state_isReadable]
    exact hi.readable
  · intro hw
    have hq : ({ p with inner } : Atomic P).queue = none := queue_of_isWritable hw
    rw [state_isWritable (p := { p with inner }) hq] at hw
    rw [state_isWritable (p := p) hq]
    exact hi.writable hw
  · intro hreport
    rw [state_isWritable (p := { p with inner }) (hidle hreport).1]
    exact hi.reported hreport
  · rw [state_ready, state_finRcvd]
    exact hi.told

end Atomic

namespace Atomic

variable {P N C : Type} [Sockets N] [Pipe P (Host N C) C] {o : Outlook P} {p p' : Atomic P}
  {w w' : Host N C}

theorem outlook_received (ho : o.Lawful (N := N) (C := C)) {n : Nat} {result : PipeResult Recv}
    (hr : Regular o p) (hp : (state p).isReadable = true)
    (h : Pipe.recv n p w = .ok (result, p', w')) (hm : LeavesUsable result) :
    (outlook o).Received p result p' := by
  obtain ⟨⟨_, inner, _⟩, hrecv, h⟩ := Checked.bind_eq_ok_iff.mp h
  cases h
  rw [state_isReadable] at hp
  have hi := ho.recv hr.inner hp hrecv hm
  refine ⟨⟨hi.regular, ?_, ?_, hr.wanted⟩, ?_, ?_, ?_, ?_⟩
  · intro hq
    exact hi.writable.trans (hr.full hq)
  · intro hq hc
    exact hr.unclosed hq (hi.closing.mp hc)
  · by_cases hq : p.queue = none
    · rw [state_isWritable (p := p) hq, state_isWritable (p := { p with inner }) hq]
      exact hi.writable
    · rw [state_isWritable_of_queue (p := p) hq,
        state_isWritable_of_queue (p := { p with inner }) hq]
  · rw [state_ready, state_ready]
    exact hi.ready
  · rw [state_finRcvd]
    exact hi.ended
  · exact or_congr Iff.rfl hi.closing

theorem outlook_sent (ho : o.Lawful (N := N) (C := C)) {data : Bytes} {result : PipeResult Nat}
    (hr : Regular o p) (hw : (state p).isWritable = true)
    (h : Pipe.send data p w = .ok (result, p', w')) (hm : LeavesUsable result) :
    (outlook o).Sent data.length p result p' := by
  have hq := queue_of_isWritable hw
  rw [state_isWritable hq] at hw
  cases sentWhole h with
  | waiting _ hn => exact absurd hq hn
  | @refused e inner w' hf _ hs =>
    have hi := ho.send hr.inner hw hs hm
    refine ⟨regular_of_idle hq hf hi.regular, sameIncoming hi.incoming, ?_, ?_⟩
    · exact or_congr Iff.rfl hi.closing
    · rw [state_isWritable (p := { p with inner }) hq]
      exact hi.full
  | @all n inner w' hf _ hs hn =>
    have hi := ho.send hr.inner hw hs (fun e he => by cases he)
    refine ⟨regular_of_idle hq hf hi.regular, sameIncoming hi.incoming, ?_, ?_⟩
    · exact or_congr Iff.rfl hi.closing
    · intro hless
      exact absurd (hless _ rfl) (Nat.lt_irrefl _)
  | @part n inner w' hf _ hs hn =>
    have hi := ho.send hr.inner hw hs (fun e he => by cases he)
    have hfull : (state inner).isWritable = false := by
      refine hi.full fun k hk => ?_
      cases hk
      exact hn
    refine ⟨⟨hi.regular, fun _ => hfull, fun _ hc => ?_, fun h => by simp [hf] at h⟩,
      sameIncoming hi.incoming, ?_, ?_⟩
    · have hopen := ho.shut hr.inner (hi.closing.mp hc)
      rw [hw] at hopen
      cases hopen
    · exact or_congr Iff.rfl hi.closing
    · intro _
      exact state_isWritable_of_queue (by simp)

theorem outlook_closed (ho : o.Lawful (N := N) (C := C)) {result : PipeResult FinStatus}
    (hr : Regular o p) (h : Pipe.sendFin p w = .ok (result, p', w')) (hm : LeavesUsable result) :
    (∃ status, result = .ok status) ∧ (outlook o).Closed p p' := by
  cases closedBehind h with
  | waiting hf hq =>
    exact ⟨⟨_, rfl⟩, ⟨hr.inner, hr.full, hr.unclosed, fun _ => hq⟩, ⟨rfl, rfl, rfl⟩, .inl rfl,
      state_isWritable_of_queue hq⟩
  | @passed _ inner _ hf hq hc =>
    obtain ⟨hdone, hi⟩ := ho.sendFin hr.inner hc hm
    refine ⟨hdone, regular_of_idle hq hf hi.regular, sameIncoming hi.incoming, .inr hi.closing, ?_⟩
    rw [state_isWritable (p := { p with inner }) hq]
    exact hi.full

theorem offered (ho : o.Lawful (N := N) (C := C)) {events report : PipeEvents}
    (hr : o.regular p.inner) (hw : (state p.inner).isWritable = true)
    (h : QueueFlushed events p w report p' w') (hb : report.broken = false) :
    Offered o events p report p' := by
  cases h with
  | idle hq =>
    refine ⟨hr, ⟨rfl, rfl, rfl⟩, Iff.rfl, rfl, id, fun hn => absurd hq hn, hb, rfl, ?_⟩
    rw [state_isWritable hq, hw, Bool.and_true]
  | @refused queue e inner _ hq hs =>
    simp only [Bool.or_eq_false_iff] at hb
    have hi := ho.send hr hw hs (fun e' he => by cases he; exact hb.2)
    have hfull : (state inner).isWritable = false := hi.full fun n hn => by cases hn
    refine ⟨hi.regular, hi.incoming, hi.closing, rfl, fun _ => by simp [hq],
      fun _ => hfull, hb.1, rfl, ?_⟩
    rw [state_isWritable_of_queue (by simp), Bool.and_false]
  | @part queue rest n inner _ hq hs hn =>
    have hi := ho.send hr hw hs (fun e he => by cases he)
    have hfull : (state inner).isWritable = false := by
      refine hi.full fun k hk => ?_
      cases hk
      exact hn
    refine ⟨hi.regular, hi.incoming, hi.closing, rfl, fun _ => by simp [hq],
      fun _ => hfull, hb, rfl, ?_⟩
    rw [state_isWritable_of_queue (by simp), Bool.and_false]
  | @all queue n inner _ hq hs hn =>
    have hi := ho.send hr hw hs (fun e he => by cases he)
    refine ⟨hi.regular, hi.incoming, hi.closing, rfl, fun h => absurd rfl h,
      fun h => absurd rfl h, hb, rfl, ?_⟩
    rw [state_isWritable (p := { p with inner, queue := none }) rfl]

theorem outlook_noticed (ho : o.Lawful (N := N) (C := C)) {events : SocketEvents}
    {report : PipeEvents} (hr : Regular o p) (h : Pipe.react events p w = .ok (report, p', w'))
    (hb : report.broken = false) : (outlook o).Noticed events p report p' := by
  cases reacted h with
  | passed hreact hidle => exact noticed_of_passed (ho.react hr.inner hreact hb) hr hidle
  | @flushing report₀ report₁ _ inner p₁ _ w₁ w₂ _ hreact hreported hq hf =>
    -- the queue is offered, and behind it the way out is closed
    have hb₁ : report₁.broken = false := by
      cases hf with
      | skipped => exact hb
      | @closed result => rcases result with e | (_ | _) <;> simp_all [closingReport]
    have hb₀ : report₀.broken = false := by
      cases hq with
      | idle | part | all => exact hb₁
      | refused => simp_all
    have hi := ho.react hr.inner hreact hb₀
    have ho₁ := offered ho (p := { p with inner }) hi.regular (hi.reported hreported) hq hb₁
    cases hf with
    | skipped hidle =>
      refine noticed_of_offered hi ⟨ho₁.inner, ho₁.full, ?_, ?_⟩ ?_ ho₁.incoming ho₁.readable ?_
      · intro hqueue hc
        exact hr.unclosed (ho₁.queue hqueue) (hi.closing.mp (ho₁.closing.mp hc))
      · intro hwanted hqueue
        rw [hidle hqueue] at hwanted
        cases hwanted
      · exact or_congr (by rw [ho₁.wanted]) (ho₁.closing.trans hi.closing)
      · rw [ho₁.writable, hreported, Bool.true_and]
    | @closed result inner' _ hqueue hwanted hc =>
      have hmild : LeavesUsable result := by
        rintro e rfl
        simp only [closingReport, Bool.or_eq_false_iff] at hb
        exact hb.2
      obtain ⟨⟨status, rfl⟩, hi'⟩ := ho.sendFin ho₁.inner hc hmild
      have hfull : (state ({ p₁ with inner := inner', finWanted := false } : Atomic P)).isWritable =
          false := by
        rw [state_isWritable (p := { p₁ with inner := inner', finWanted := false }) hqueue]
        exact hi'.full
      refine noticed_of_offered hi (regular_of_idle hqueue rfl hi'.regular) ?_ ?_ ?_ ?_
      · have hold : p.finWanted = true := ho₁.wanted.symm.trans hwanted
        exact iff_of_true (.inr hi'.closing) (.inl hold)
      · exact ⟨hi'.incoming.readable.trans ho₁.incoming.readable,
          hi'.incoming.ready.trans ho₁.incoming.ready,
          hi'.incoming.finRcvd.trans ho₁.incoming.finRcvd⟩
      · rw [← ho₁.readable]
        cases status <;> rfl
      · rw [hfull]
        cases status <;> rfl

theorem outlook_attached (ho : o.Lawful (N := N) (C := C)) {callback : C}
    {result : Except Failure Unit} (h : Pipe.attach callback p w = .ok (result, p', w')) :
    (outlook o).Registered p p' ∧
      Pipe.attach callback (o.base p.inner) w = .ok (result, o.base p'.inner, w') := by
  obtain ⟨⟨_, inner, _⟩, hattach, h⟩ := Checked.bind_eq_ok_iff.mp h
  cases h
  obtain ⟨hi, hbase⟩ := ho.attach hattach
  refine ⟨⟨?_, ?_, ?_⟩, hbase⟩
  · change (if p.queue.isSome then { state inner with writable := false } else state inner) = _
    rw [hi.shown]
    rfl
  · intro h
    refine ⟨hi.regular h.inner, ?_, ?_, h.wanted⟩
    · rw [hi.shown]
      exact h.full
    · intro hq hc
      exact h.unclosed hq (hi.closing hc)
  · exact Or.imp id hi.closing

theorem outlook_lawful (ho : o.Lawful (N := N) (C := C)) :
    (outlook o).Lawful (N := N) (C := C) where
  ready p := (state_ready p).trans (ho.ready p.inner)
  finSent p := (state_finSent p).trans (ho.finSent p.inner)
  finRcvd p := (state_finRcvd p).trans (ho.finRcvd p.inner)
  unbroken h := by
    rw [state_broken]
    exact ho.unbroken h.inner
  dry h hd := by
    rw [state_isReadable] at hd
    exact ho.dry h.inner hd
  full := by
    intro p h hf
    by_cases hq : p.queue = none
    · rw [state_isWritable hq] at hf
      exact ho.full h.inner hf
    · exact ho.full h.inner (h.full hq)
  flowing h hp := by
    rw [state_isReadable] at hp
    rw [state_ready, state_finRcvd]
    exact ho.flowing h.inner hp
  shut := by
    intro p h hc
    by_cases hq : p.queue = none
    · rcases hc with hw | hc
      · exact absurd hq (h.wanted hw)
      · rw [state_isWritable hq]
        exact ho.shut h.inner hc
    · exact state_isWritable_of_queue hq
  closing h := by
    rw [state_finSent] at h
    exact .inr (ho.closing h)
  held := by
    intro p h hh
    rw [state_finSent]
    by_cases hq : p.queue = none
    · rcases hh with hn | hh
      · exact absurd hq hn
      · rw [state_isWritable hq]
        exact ho.held h.inner hh
    · refine ⟨state_isWritable_of_queue hq, ?_⟩
      cases hs : (state p.inner).finSent with
      | false => rfl
      | true => exact absurd (ho.closing hs) (h.unclosed hq)
  attach := outlook_attached ho
  recv := outlook_received ho
  send := outlook_sent ho
  sendFin := outlook_closed ho
  react := outlook_noticed ho
  reschedule p w := ho.reschedule p.inner w

end Atomic

end DuplexRelay
