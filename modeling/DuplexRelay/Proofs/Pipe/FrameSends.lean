import DuplexRelay.Proofs.Pipe.AtomicOutlook
import DuplexRelay.Proofs.Pipe.WholeSends

/-! The datagrams that were accepted against the bytes that the pipe at the bottom took. Whatever is
asked of the pipe, the frames of the former are the latter with the queue behind them. -/

namespace DuplexRelay

namespace PipeCall

/-- The datagram of a send that succeeded. -/
def accepted : PipeCall → Option Bytes
  | sent data (.ok _) => some data
  | _ => none

end PipeCall

/-- The datagrams of the sends that succeeded, the first one first. -/
def Logged.payloads {P : Type} (l : Logged P) : List Bytes := l.calls.filterMap PipeCall.accepted

theorem Logged.payloads_note {P : Type} (l : Logged P) (call : PipeCall) (pipe : P) :
    (l.note call pipe).payloads = l.payloads ++ call.accepted.toList := by
  unfold payloads note
  rw [List.filterMap_append]
  cases h : call.accepted with
  | none => simp [h]
  | some data => simp [h]

namespace Atomic

variable {P W C : Type} [Pipe P W C]

/-- Nothing was added to the stream, and at most the queue became shorter at its front. -/
structure Flowed (p p' : Atomic (Logged P)) : Prop where
  stream : p'.stream = p.stream
  queue : p'.queue ≠ none → p.queue ≠ none ∧ p'.unsent <:+ p.unsent

variable {p p₁ p' : Atomic (Logged P)} {w w' : W}

omit [Pipe P W C] in
theorem Flowed.refl (p : Atomic (Logged P)) : p.Flowed p :=
  ⟨rfl, fun hq => ⟨hq, List.suffix_refl _⟩⟩

omit [Pipe P W C] in
theorem Flowed.trans (h : p.Flowed p₁) (h' : p₁.Flowed p') : p.Flowed p' := by
  refine ⟨h'.stream.trans h.stream, fun hq => ?_⟩
  obtain ⟨hq₁, hsuffix'⟩ := h'.queue hq
  obtain ⟨hq₀, hsuffix⟩ := h.queue hq₁
  exact ⟨hq₀, hsuffix'.trans hsuffix⟩

omit [Pipe P W C] in
theorem flowed_of_inner {inner : Logged P} (h : inner.written = p.inner.written) :
    p.Flowed { p with inner } :=
  ⟨stream_of_inner h, fun hq => ⟨hq, List.suffix_refl _⟩⟩

theorem flowed_attached {callback : C} {result : Except Failure Unit}
    (h : Pipe.attach callback p w = .ok (result, p', w')) : p.Flowed p' := by
  obtain ⟨⟨_, inner, _⟩, hattach, heq⟩ := Checked.bind_eq_ok_iff.mp h
  cases heq
  apply flowed_of_inner
  rw [Logged.written_of_calls (Logged.calls_attach hattach)]
  exact List.append_nil _

theorem flowed_received {n : Nat} {result : PipeResult Recv}
    (h : Pipe.recv n p w = .ok (result, p', w')) : p.Flowed p' := by
  obtain ⟨⟨_, inner, _⟩, hrecv, heq⟩ := Checked.bind_eq_ok_iff.mp h
  cases heq
  exact flowed_of_inner (Logged.written_recv hrecv)

theorem flowed_refused {data : Bytes} {e : PipeError}
    (h : Pipe.send data p w = .ok (.error e, p', w')) : p.Flowed p' := by
  obtain ⟨hwritten, hqueue⟩ := failed_sentWhole (sentWhole h)
  have hunsent : p'.unsent = p.unsent := by rw [unsent, unsent, hqueue]
  refine ⟨?_, fun hq => ⟨hqueue ▸ hq, by rw [hunsent]⟩⟩
  rw [stream, stream, hwritten, hunsent]

theorem flowed_closedBehind {result : PipeResult FinStatus}
    (h : ClosedBehind p w result p' w') : p.Flowed p' := by
  refine ⟨stream_closedBehind h, ?_⟩
  cases h with
  | waiting | passed => exact fun hq => ⟨hq, List.suffix_refl _⟩

theorem flowed_queueFlushed {events report : PipeEvents}
    (h : QueueFlushed events p w report p' w') : p.Flowed p' := by
  refine ⟨stream_queueFlushed h, ?_⟩
  cases h with
  | idle => exact fun hq => ⟨hq, List.suffix_refl _⟩
  | @refused queue e inner _ hq =>
    intro _
    have hsame : ({ p with inner, queue := some queue } : Atomic (Logged P)).unsent = p.unsent := by
      simp only [unsent, hq]
    exact ⟨by simp [hq], by rw [hsame]⟩
  | @part queue rest n inner _ hq _ hn hr =>
    intro _
    obtain ⟨after, hafter, hlive⟩ := ByteBuffer.consume_eq_ok (Nat.le_of_lt hn)
    rw [hr] at hafter
    cases hafter
    refine ⟨by simp [hq], ?_⟩
    have hrest : queue.live.drop n <:+ queue.live := List.drop_suffix n _
    simpa [unsent, hq, hlive] using hrest
  | all => exact fun hq => absurd rfl hq

theorem flowed_finFlushed {events report : PipeEvents}
    (h : FinFlushed events p w report p' w') : p.Flowed p' := by
  refine ⟨stream_finFlushed h, ?_⟩
  cases h with
  | skipped | closed => exact fun hq => ⟨hq, List.suffix_refl _⟩

theorem flowed_reacted {events : SocketEvents} {report : PipeEvents}
    (h : Reacted events p w report p' w') : p.Flowed p' := by
  cases h with
  | passed hr => exact flowed_of_inner (Logged.written_react hr)
  | flushing hr _ hq hf =>
    apply (flowed_of_inner (Logged.written_react hr)).trans
    exact (flowed_queueFlushed hq).trans (flowed_finFlushed hf)

/-- Of a buffer that was accepted, only the end can be left in the queue. -/
theorem unsent_suffix {data : Bytes} {n : Nat} (h : SentWhole data p w (.ok n) p' w') :
    p'.queue ≠ none → p'.unsent <:+ data := by
  cases h with
  | all _ hq => exact fun hqueue => absurd hq hqueue
  | part => exact fun _ => List.drop_suffix _ _

end Atomic

namespace Datagram

variable {P W C : Type} [Pipe P W C]

/-- The answers that a datagram pipe gave agree with the frames that went to the pipe below. -/
structure Framed (maxSize : Nat) (l : Logged (Datagram (Logged P))) : Prop where
  limit : l.pipe.maxSize = maxSize
  stream : l.pipe.inner.stream = l.payloads.flatMap wire
  answered : ∀ data answer, .sent data answer ∈ l.calls →
    answer = .ok data.length ∧ data.length ≤ maxSize ∨ ∃ e, answer = .error e
  cut : l.pipe.inner.queue ≠ none → ∃ earlier last, l.payloads = earlier ++ [last] ∧
    l.pipe.inner.unsent <:+ wire last

variable {maxSize : Nat} {l : Logged (Datagram (Logged P))} {p' : Datagram (Logged P)} {w w' : W}
  {call : PipeCall}

omit [Pipe P W C] in
theorem Framed.answered_note (h : Framed maxSize l)
    (hc : ∀ data answer, call = .sent data answer →
      answer = .ok data.length ∧ data.length ≤ maxSize ∨ ∃ e, answer = .error e) :
    ∀ data answer, .sent data answer ∈ (l.note call p').calls →
      answer = .ok data.length ∧ data.length ≤ maxSize ∨ ∃ e, answer = .error e := by
  intro data answer hmem
  rcases List.mem_append.mp hmem with hmem | hmem
  · exact h.answered data answer hmem
  · exact hc data answer (List.mem_singleton.mp hmem).symm

omit [Pipe P W C] in
theorem Framed.flowed (h : Framed maxSize l) (hm : p'.maxSize = l.pipe.maxSize)
    (hf : l.pipe.inner.Flowed p'.inner) (hn : call.accepted = none)
    (hc : ∀ data answer, call = .sent data answer → ∃ e, answer = .error e) :
    Framed maxSize (l.note call p') := by
  have hpayloads : (l.note call p').payloads = l.payloads := by
    rw [Logged.payloads_note, hn]
    exact List.append_nil _
  refine ⟨hm.trans h.limit, ?_, ?_, ?_⟩
  · rw [hpayloads]
    exact hf.stream.trans h.stream
  · exact h.answered_note fun data answer hcall => .inr (hc data answer hcall)
  · intro hqueue
    obtain ⟨hbefore, hsuffix⟩ := hf.queue hqueue
    obtain ⟨earlier, last, hlist, hlast⟩ := h.cut hbefore
    exact ⟨earlier, last, hpayloads.trans hlist, hsuffix.trans hlast⟩

omit [Pipe P W C] in
theorem Framed.extended {data : Bytes} (h : Framed maxSize l) (hm : p'.maxSize = l.pipe.maxSize)
    (hs : p'.inner.stream = l.pipe.inner.stream ++ wire data)
    (hcut : p'.inner.queue ≠ none → p'.inner.unsent <:+ wire data)
    (hfits : data.length ≤ maxSize) :
    Framed maxSize (l.note (.sent data (.ok data.length)) p') := by
  have hpayloads : (l.note (.sent data (.ok data.length)) p').payloads = l.payloads ++ [data] :=
    Logged.payloads_note _ _ _
  refine ⟨hm.trans h.limit, ?_, ?_, ?_⟩
  · rw [hpayloads, List.flatMap_append, List.flatMap_singleton, ← h.stream]
    exact hs
  · apply h.answered_note
    intro d answer hcall
    cases hcall
    exact .inl ⟨rfl, hfits⟩
  · exact fun hqueue => ⟨l.payloads, data, hpayloads, hcut hqueue⟩

theorem flowed_received {v v' : View (Logged P)} {room : Nat} {result : PipeResult Recv}
    (h : Received room v w result v' w') : v.inner.Flowed v'.inner ∧ v'.maxSize = v.maxSize := by
  cases h with
  | broken | found | violated => exact ⟨.refl _, rfl⟩
  | refused _ _ _ hr | incomplete _ _ _ hr | completed _ _ _ hr | corrupted _ _ _ hr
  | ended _ _ _ hr | cut _ _ _ _ hr => exact ⟨Atomic.flowed_received hr, rfl⟩

/-- A send that comes to a result has added the whole frame of its datagram to the stream, or
nothing. -/
theorem framed_sent {data : Bytes} {result : PipeResult Nat} (h : Framed maxSize l)
    (hs : Sent data l.pipe w result p' w') :
    Framed maxSize (l.note (.sent data result) p') := by
  have hrefused {e : PipeError} (hm : p'.maxSize = l.pipe.maxSize)
      (hf : l.pipe.inner.Flowed p'.inner) :
      Framed maxSize (l.note (.sent data (.error e)) p') := by
    apply h.flowed hm hf rfl
    intro d answer hcall
    cases hcall
    exact ⟨e, rfl⟩
  cases hs with
  | broken | waiting | excessive | unframed => exact hrefused rfl (.refl _)
  | @passed framed below inner _ _ hfits hw hframe hr =>
    cases below with
    | error e => exact hrefused rfl (Atomic.flowed_refused hr)
    | ok n =>
      obtain rfl := eq_wire_of_frame hframe
      have hsent := Atomic.sentWhole hr
      have hstream : inner.stream = l.pipe.inner.stream ++ wire data :=
        Atomic.stream_sentWhole hsent
      exact h.extended rfl hstream (Atomic.unsent_suffix hsent) (h.limit ▸ hfits)

theorem framed_kept :
    Pipe.KeepsNotes fun (l : Logged (Datagram (Logged P))) (_ : W) => Framed maxSize l where
  attach h hcall := by
    obtain ⟨⟨_, inner, _⟩, hinner, heq⟩ := Checked.bind_eq_ok_iff.mp hcall
    cases heq
    exact h.flowed rfl (Atomic.flowed_attached hinner) rfl nofun
  recv h hcall := by
    obtain ⟨hflowed, hlimit⟩ := flowed_received (received hcall)
    exact h.flowed hlimit hflowed rfl nofun
  send h hcall := framed_sent h (sent hcall)
  sendFin h hcall := by
    obtain ⟨_, _, rfl, rfl⟩ | ⟨_, inner, hc, rfl⟩ := closed hcall
    · exact h.flowed rfl (.refl _) rfl nofun
    · exact h.flowed rfl (Atomic.flowed_closedBehind (Atomic.closedBehind hc)) rfl nofun
  react h hcall := by
    obtain ⟨⟨_, inner, _⟩, hr, heq⟩ := Checked.bind_eq_ok_iff.mp hcall
    cases heq
    exact h.flowed rfl (Atomic.flowed_reacted (Atomic.reacted hr)) rfl nofun
  reschedule h := h

/-- A send that is to be tried again has changed nothing above the pipe at the bottom. -/
theorem postponed {p q : Datagram (Logged P)} {data : Bytes} {w w' : W}
    (h : Pipe.send data p w = .ok (.error .wouldBlock, q, w')) :
    ∃ below, q = { p with inner := { p.inner with inner := below } } ∧
      below.written = p.inner.inner.written := by
  generalize hresult : (Except.error .wouldBlock : PipeResult Nat) = result at h
  cases sent h with
  | broken | excessive | unframed => cases hresult
  | waiting => exact ⟨p.inner.inner, rfl, rfl⟩
  | @passed framed result inner _ _ _ _ _ hr =>
    cases result with
    | ok n => cases hresult
    | error e =>
      have hrefused := Atomic.sentWhole hr
      obtain ⟨hwritten, _⟩ := Atomic.failed_sentWhole hrefused
      cases hrefused with
      | waiting => exact ⟨p.inner.inner, rfl, rfl⟩
      | @refused _ below => exact ⟨below, rfl, hwritten⟩

end Datagram

end DuplexRelay
