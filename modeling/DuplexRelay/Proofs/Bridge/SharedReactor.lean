import Mathlib.Data.List.Nodup
import DuplexRelay.Proofs.Bridge.Relations
import DuplexRelay.Proofs.Reactor.PermittedCallbacks
import DuplexRelay.Proofs.Relay.Unstopped

/-! A bridge on a reactor that it shares with others. The bridge is discarded by its shutdown
callback, and gives its registrations up as the callback returns that ended it. A log is kept of all
that happens in passes. -/

namespace DuplexRelay

namespace Bridge

open Relay (Link)

/-- What others are told. -/
inductive Notification (D : Type) where
  | ready (callback : D) (events : SocketEvents)
  /-- the bridge ended -/
  | over (graceful : Bool)

/-- What happens in a pass. -/
inductive PassEvent (D : Type) where
  | called (fd : Fd) (events : SocketEvents) (callback : Side ⊕ D)
  /-- an activity of the bridge, with the calls that it made of its pipes -/
  | acted (left right : List PipeCall)
  | shutdown (graceful : Bool)
  /-- others made a request -/
  | asked (q : Request D)
  /-- the bridge and its pipes are no more -/
  | released
  /-- a callback returned, and left the reactor as it is given here -/
  | returned (r : Reactor (Side ⊕ D))

/-- All that happened, in order. -/
abbrev PassLog (D : Type) := List (PassEvent D)

/-- A bridge, if it is there, with the sockets, all that others know, and the log. Its pipes log
their calls, which the log takes over, and are otherwise as they would be without. -/
structure SharedWorld (N O D : Type) where
  net : N
  bridge : Option (Bridge (Logged Link)) := none
  others : O
  log : PassLog D := []

/-- What others make of what they are told: they make some requests, and change the sockets and what
they know. -/
abbrev Others (N O D : Type) :=
  Notification D → Reactor (Side ⊕ D) → SharedWorld N O D → List (Request D) × N × O

section Passes

variable {N O D : Type}

def SharedWorld.record (x : SharedWorld N O D) (p : PassLog D) : SharedWorld N O D :=
  { x with log := x.log ++ p }

/-- Others do what they do when they are told something. -/
def notifyOthers (act : Others N O D) (note : Notification D) (r : Reactor (Side ⊕ D))
    (x : SharedWorld N O D) : Checked (Reactor (Side ⊕ D) × SharedWorld N O D) := do
  let (requests, net, others) := act note r x
  let r ← Request.performAll (requests.map (Request.map .inr)) r
  return (r, { x with net, others, log := x.log ++ requests.map .asked })

variable [Sockets N]

/-- The end of the bridge is told, and the bridge is discarded there and then. It goes as the
callback returns that ended it. -/
def endBridge (act : Others N O D) (graceful : Bool) (b : Bridge (Logged Link))
    (r : Reactor (Side ⊕ D)) (x : SharedWorld N O D) :
    Checked (Reactor (Side ⊕ D) × SharedWorld N O D) := do
  let (r, x) ← notifyOthers act (.over graceful) r (x.record [.shutdown graceful])
  let host := b.release ({ net := x.net, reactor := r } : Host N (Side ⊕ D))
  return (host.reactor, { x with net := host.net, bridge := none, log := x.log ++ [.released] })

/-- The calls that were made of the pipe of a side between two states of the bridge. -/
def newCalls (b b' : Bridge (Logged Link)) (s : Side) : List PipeCall :=
  (b'.calls s).drop (b.calls s).length

def callBridge (act : Others N O D) (s : Side) (events : SocketEvents) (r : Reactor (Side ⊕ D))
    (x : SharedWorld N O D) : Checked (Reactor (Side ⊕ D) × SharedWorld N O D) :=
  match x.bridge with
  | none => .ok (r, x)
  | some b => do
    let (ending, b', host) ← b.onActivity s events ({ net := x.net, reactor := r } : Host N _)
    let x : SharedWorld N O D := { x with
      net := host.net, bridge := some b'
      log := x.log ++ [.acted (newCalls b b' .left) (newCalls b b' .right)] }
    match ending with
    | none => return (host.reactor, x)
    | some graceful => endBridge act graceful b' host.reactor x

def runCallback (act : Others N O D) (callback : Side ⊕ D) (events : SocketEvents)
    (r : Reactor (Side ⊕ D)) (x : SharedWorld N O D) :
    Checked (Reactor (Side ⊕ D) × SharedWorld N O D) :=
  match callback with
  | .inl s => callBridge act s events r x
  | .inr d => notifyOthers act (.ready d events) r x

/-- Calls the bridge for one of its sides, or another callback. -/
def invokeLogged (act : Others N O D) (callback : Side ⊕ D) (events : SocketEvents)
    (r : Reactor (Side ⊕ D)) (x : SharedWorld N O D) :
    Checked (Reactor (Side ⊕ D) × SharedWorld N O D) := do
  let x := x.record (r.running?.map fun fd => .called fd events callback).toList
  let (r, x) ← runCallback act callback events r x
  return (r, x.record [.returned r])

end Passes

namespace PassEvent

variable {D : Type}

/-- The notice that a callback was called with. -/
def notice? : PassEvent D → Option (Reactor.Notice (Side ⊕ D))
  | called fd events callback => some ⟨fd, events, callback⟩
  | _ => none

/-- The descriptors that are not to be told any more in this pass. -/
def spent (fds : Side → Fd) : PassEvent D → List Fd
  | called fd _ _ => [fd]
  | asked q => q.removed
  | released => [fds .left, fds .right]
  | _ => []

/-- The bridge comes to its end. -/
def EndsBridge : PassEvent D → Prop
  | shutdown _ | released => True
  | _ => False

/-- The bridge and its pipes have nothing to do with it. -/
def OfOthers : PassEvent D → Prop
  | called _ _ (.inr _) | asked _ | returned _ => True
  | _ => False

theorem OfOthers.not_endsBridge {d : PassEvent D} (h : d.OfOthers) : ¬d.EndsBridge := by
  cases d with
  | shutdown | released => exact absurd h id
  | called | acted | asked | returned => exact id

end PassEvent

namespace PassLog

variable {D : Type}

def calls (p : PassLog D) : List (Reactor.Notice (Side ⊕ D)) := p.filterMap PassEvent.notice?

def spent (fds : Side → Fd) (p : PassLog D) : List Fd := p.flatMap (PassEvent.spent fds)

@[simp] theorem calls_append (p q : PassLog D) : calls (p ++ q) = calls p ++ calls q :=
  List.filterMap_append

@[simp] theorem spent_append (fds : Side → Fd) (p q : PassLog D) :
    spent fds (p ++ q) = spent fds p ++ spent fds q :=
  List.flatMap_append

@[simp] theorem calls_asked (qs : List (Request D)) :
    calls (qs.map PassEvent.asked) = [] := by
  simp [calls, PassEvent.notice?, Function.comp_def]

theorem spent_asked (fds : Side → Fd) (qs : List (Request D)) :
    spent fds (qs.map PassEvent.asked) = qs.flatMap Request.removed := by
  simp [spent, PassEvent.spent, List.flatMap_map]

theorem mem_spent_of_called {p : PassLog D} {n : Reactor.Notice (Side ⊕ D)} (fds : Side → Fd)
    (h : n ∈ p.calls) : n.fd ∈ p.spent fds := by
  obtain ⟨d, hd, hn⟩ := List.mem_filterMap.mp h
  refine List.mem_flatMap.mpr ⟨d, hd, ?_⟩
  cases d with
  | called fd events callback =>
    cases hn
    exact List.mem_singleton.mpr rfl
  | acted | shutdown | asked | released | returned => cases hn

end PassLog

/-- The callback of a descriptor was called once, with what it was to be told. If not, others
removed its registration, or discarded the reactor. -/
def ToldOnceOrRemoved {D : Type} (p : PassLog D) (n : Reactor.Notice (Side ⊕ D)) : Prop :=
  p.calls.filter (·.fd = n.fd) = [n] ∨
    p.calls.filter (·.fd = n.fd) = [] ∧
      ∃ q : Request D, .asked q ∈ p ∧ (n.fd ∈ q.removed ∨ q = .discard)

/-- What was told of the notices of a pass until now, and what is left of them. -/
structure NoticeAccount {D : Type} (fds : Side → Fd) (notices : List (Reactor.Notice (Side ⊕ D)))
    (p : PassLog D) (r : Reactor (Side ⊕ D)) : Prop where
  ascend : notices.Pairwise fun m n => m.fd < n.fd
  left : r.undelivered = notices.filter (·.fd ∉ p.spent fds)
  due : ∀ n ∈ p.calls, n ∈ notices
  once : p.calls.Pairwise fun m n => m.fd ≠ n.fd
  stopped : r.phase = .pendingDispose → .asked .discard ∈ p

namespace NoticeAccount

variable {D : Type} {fds : Side → Fd} {notices : List (Reactor.Notice (Side ⊕ D))}
    {p new : PassLog D}
  {r r' : Reactor (Side ⊕ D)}

theorem more (h : NoticeAccount fds notices p r) (hcalls : new.calls = [])
    (hleft : r'.undelivered = r.undelivered.filter (·.fd ∉ new.spent fds))
    (hstopped : r'.phase = .pendingDispose → r.phase = .pendingDispose ∨ .asked .discard ∈ new) :
    NoticeAccount fds notices (p ++ new) r' where
  ascend := h.ascend
  left := by
    rw [hleft, h.left, List.filter_filter]
    apply List.filter_congr
    intro n _
    simp [Bool.and_comm]
  due := by
    rw [PassLog.calls_append, hcalls, List.append_nil]
    exact h.due
  once := by
    rw [PassLog.calls_append, hcalls, List.append_nil]
    exact h.once
  stopped hp := by
    rcases hstopped hp with hold | hnew
    · exact List.mem_append_left _ (h.stopped hold)
    · exact List.mem_append_right _ hnew

theorem called (h : NoticeAccount fds notices p r) {due : Reactor.Due (Side ⊕ D)} {fd : Fd}
    (hfirst : r.undelivered =
      ⟨fd, due.events, due.callback⟩ :: (r.takeDue due.id).undelivered) :
    NoticeAccount fds notices (p ++ [.called fd due.events due.callback]) (r.takeDue due.id) := by
  have hsplit := h.left.symm.trans hfirst
  have hin : (⟨fd, due.events, due.callback⟩ : Reactor.Notice (Side ⊕ D)) ∈ notices ∧
      fd ∉ p.spent fds := by
    have hmem := List.mem_cons_self (a := (⟨fd, due.events, due.callback⟩ :
      Reactor.Notice (Side ⊕ D))) (l := (r.takeDue due.id).undelivered)
    rw [← hsplit, List.mem_filter, decide_eq_true_eq] at hmem
    exact hmem
  constructor
  case ascend => exact h.ascend
  case left =>
    -- the descriptors ascend, so what is left behind the first notice is not for its descriptor
    have hpairwise := h.ascend.filter fun n => decide (n.fd ∉ p.spent fds)
    rw [hsplit, List.pairwise_cons] at hpairwise
    have hrest : notices.filter (·.fd ∉ PassLog.spent fds
        (p ++ [.called fd due.events due.callback])) =
        (notices.filter (·.fd ∉ p.spent fds)).filter (·.fd ≠ fd) := by
      rw [List.filter_filter]
      apply List.filter_congr
      intro n _
      simp [PassLog.spent, PassEvent.spent, Bool.and_comm]
    rw [hrest, hsplit, List.filter_cons_of_neg (by simp), List.filter_eq_self.mpr]
    intro n hn
    simpa using Int.ne_of_gt (hpairwise.1 n hn)
  case due =>
    intro n hn
    rw [PassLog.calls_append] at hn
    rcases List.mem_append.mp hn with hold | hnew
    · exact h.due n hold
    · rw [List.mem_singleton.mp hnew]
      exact hin.1
  case once =>
    rw [PassLog.calls_append]
    refine List.pairwise_append.mpr ⟨h.once, List.pairwise_singleton _ _, ?_⟩
    intro m hm n hn heq
    rw [List.mem_singleton.mp hn] at heq
    have hspent := PassLog.mem_spent_of_called fds hm
    rw [heq] at hspent
    exact hin.2 hspent
  case stopped =>
    intro hp
    exact List.mem_append_left _ (h.stopped hp)

theorem asked (h : NoticeAccount fds notices p r) {i : Option Handle} (hr : r.Sound i) (hb : r.Busy)
    {qs : List (Request D)} (hperform : Request.performAll (qs.map (Request.map .inr)) r = .ok r') :
    NoticeAccount fds notices (p ++ qs.map .asked) r' := by
  obtain ⟨_, _, hleft⟩ := Reactor.performedAll hr hb hperform
  have hasked : r.Asked (· ∈ qs.map (Request.map .inr)) r' := ⟨_, fun _ => id, hperform⟩
  refine h.more (PassLog.calls_asked qs) ?_ fun hp => ?_
  · rw [hleft, PassLog.spent_asked, List.flatMap_map]
    simp only [Request.removed_map]
  · rcases hasked.phase_or with hsame | hdiscard
    · exact .inl (hsame.symm.trans hp)
    · obtain ⟨q, hq, heq⟩ := List.mem_map.mp hdiscard
      rw [← Request.map_eq_discard heq]
      exact .inr (List.mem_map_of_mem hq)

theorem aside (h : NoticeAccount fds notices p r) (hcalls : new.calls = [])
    (hspent : new.spent fds = []) :
    NoticeAccount fds notices (p ++ new) r := by
  refine h.more hcalls ?_ .inl
  simp [hspent]

theorem adjusted (h : NoticeAccount fds notices p r) {i : Option Handle} (hr : r.Sound i)
    (hb : r.Busy) (hasked : r.Asked Request.OnlyAdjustsOne r') :
    NoticeAccount fds notices p r' := by
  obtain ⟨qs, hqs, hperform⟩ := hasked
  obtain ⟨_, _, hleft⟩ := Reactor.performedAll hr hb hperform
  have hnone : qs.flatMap Request.removed = [] := by
    rw [List.flatMap_eq_nil_iff]
    exact fun q hq => (hqs q hq).removed
  suffices hmore : NoticeAccount fds notices (p ++ []) r' by rwa [List.append_nil] at hmore
  refine h.more rfl ?_ fun hp => ?_
  · rw [hleft, hnone]
    rfl
  · have hsame : r.Asked Request.OnlyAdjustsOne r' := ⟨qs, hqs, hperform⟩
    rcases hsame.phase_or with hphase | ⟨_, hdiscard⟩
    · exact .inl (hphase.symm.trans hp)
    · exact absurd hdiscard id

theorem putBack (h : NoticeAccount fds notices p r) {id : Handle} (hr : r.Sound (some id))
    (callback : Side ⊕ D) : NoticeAccount fds notices p (r.putBack id callback) where
  ascend := h.ascend
  left := (Reactor.undelivered_putBack hr callback).trans h.left
  due := h.due
  once := h.once
  stopped := h.stopped

theorem filter_calls (h : NoticeAccount fds notices p r) {n : Reactor.Notice (Side ⊕ D)}
    (hn : n ∈ p.calls) : p.calls.filter (·.fd = n.fd) = [n] := by
  obtain ⟨before, after, hsplit⟩ := List.append_of_mem hn
  have honce := h.once
  rw [hsplit, List.pairwise_append, List.pairwise_cons] at honce
  obtain ⟨_, ⟨hafter, _⟩, hbefore⟩ := honce
  rw [hsplit, List.filter_append, List.filter_cons_of_pos (by simp)]
  have hnone : before.filter (·.fd = n.fd) = [] := by
    rw [List.filter_eq_nil_iff]
    intro m hm
    simpa using hbefore m hm n List.mem_cons_self
  have hnone' : after.filter (·.fd = n.fd) = [] := by
    rw [List.filter_eq_nil_iff]
    intro m hm
    simpa using (hafter m hm).symm
  rw [hnone, hnone']
  rfl

/-- At the end of a pass every notice was told that is not of the bridge, unless others are in the
way. -/
theorem served (h : NoticeAccount fds notices p r)
    (hdone : r.phase = .pendingDispose ∨ r.undelivered = [])
    {n : Reactor.Notice (Side ⊕ D)} (hn : n ∈ notices) (hother : ∀ s, n.fd ≠ fds s) :
    ToldOnceOrRemoved p n := by
  have hapart : (notices.map (·.fd)).Nodup := by
    refine List.pairwise_map.mpr (h.ascend.imp ?_)
    exact fun hlt => Int.ne_of_lt hlt
  by_cases hcalled : ∃ m ∈ p.calls, m.fd = n.fd
  · obtain ⟨m, hm, heq⟩ := hcalled
    obtain rfl := List.inj_on_of_nodup_map hapart (h.due m hm) hn heq
    exact .inl (h.filter_calls hm)
  · refine .inr ⟨?_, ?_⟩
    · rw [List.filter_eq_nil_iff]
      intro m hm heq
      exact hcalled ⟨m, hm, by simpa using heq⟩
    · -- what was not told is gone: with the reactor, or from what is left, since nothing is left
      rcases hdone with hphase | hnone
      · exact ⟨.discard, h.stopped hphase, .inr rfl⟩
      have hspent : n.fd ∈ p.spent fds := by
        apply Decidable.byContradiction
        intro hopen
        have hkept : n ∈ notices.filter (·.fd ∉ p.spent fds) :=
          List.mem_filter.mpr ⟨hn, by simpa using hopen⟩
        rw [← h.left, hnone] at hkept
        cases hkept
      obtain ⟨d, hd, hfd⟩ := List.mem_flatMap.mp hspent
      cases d with
      | called fd events callback =>
        have hmem : (⟨fd, events, callback⟩ : Reactor.Notice (Side ⊕ D)) ∈ p.calls :=
          List.mem_filterMap.mpr ⟨_, hd, rfl⟩
        exact absurd ⟨_, hmem, (List.mem_singleton.mp hfd).symm⟩ hcalled
      | asked q => exact ⟨q, hd, .inl hfd⟩
      | released =>
        rcases List.mem_cons.mp hfd with hl | hr
        · exact absurd hl (hother .left)
        · exact absurd (List.mem_singleton.mp hr) (hother .right)
      | acted | shutdown | returned => cases hfd

end NoticeAccount

end Bridge

end DuplexRelay
