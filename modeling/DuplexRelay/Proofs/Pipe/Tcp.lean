import DuplexRelay.Pipe.Tcp
import DuplexRelay.Proofs.Checked

/-! What each operation of a socket pipe can come to. All of them end by setting the state bits, and
the registration follows the bits wherever they change. -/

namespace DuplexRelay.Tcp

variable {N C : Type} {p p' : Tcp} {w w' : Host N C}

/-- The state bits are set, and the registration waits for what they call for. -/
structure Settled (bits : PipeState) (p : Tcp) (w : Host N C) (p' : Tcp) (w' : Host N C) :
    Prop where
  pipe : p' = { p with bits, interest := wanted bits }
  net : w'.net = w.net
  reactor : (p.attached = true → p.interest = wanted bits) ∧ w'.reactor = w.reactor ∨
    p.attached = true ∧ p.interest ≠ wanted bits ∧
      w.reactor.modify p.fd (wanted bits) = .ok w'.reactor

theorem settled {α : Type} {result a : α} {bits : PipeState}
    (h : settle a bits p w = .ok (result, p', w')) : result = a ∧ Settled bits p w p' w' := by
  unfold settle at h
  simp only [Checked.bind_eq_ok_iff, Checked.pure_eq_ok, Except.ok.injEq, Prod.mk.injEq] at h
  obtain ⟨⟨q, v⟩, hadjust, rfl, rfl, rfl⟩ := h
  refine ⟨rfl, ?_⟩
  unfold adjustInterest at hadjust
  dsimp only at hadjust
  split at hadjust
  · rename_i hsame
    cases hadjust
    exact ⟨by rw [hsame], rfl, .inl ⟨fun _ => hsame.symm, rfl⟩⟩
  rename_i hother
  split at hadjust
  · rename_i hattached
    simp only [Checked.bind_eq_ok_iff, Checked.pure_eq_ok, Except.ok.injEq, Prod.mk.injEq]
      at hadjust
    obtain ⟨r, hmodify, rfl, rfl⟩ := hadjust
    exact ⟨rfl, rfl, .inr ⟨hattached, Ne.symm hother, hmodify⟩⟩
  · rename_i hdetached
    cases hadjust
    exact ⟨rfl, rfl, .inl ⟨fun h => absurd h hdetached, rfl⟩⟩

variable [Sockets N]

inductive Received (n : Nat) (p : Tcp) (w : Host N C) :
    PipeResult Recv → Tcp → Host N C → Prop
  | broken (hb : p.bits.broken = true) : Received n p w (.error .broken) p w
  | nothing (hb : p.bits.broken = false) (hn : n = 0) : Received n p w (.ok (.data [])) p w
  | ended {net : N} {p' : Tcp} {w' : Host N C} (hb : p.bits.broken = false) (hn : n ≠ 0)
      (hr : Sockets.read p.fd n w.net = (.ok [], net))
      (hs : Settled { p.bits with readable := false, finRcvd := true } p { w with net } p' w') :
      Received n p w (.ok .fin) p' w'
  | data {data : Bytes} {net : N} {p' : Tcp} {w' : Host N C} (hb : p.bits.broken = false)
      (hn : n ≠ 0) (hr : Sockets.read p.fd n w.net = (.ok data, net)) (hd : data ≠ [])
      (hs : Settled { p.bits with readable := true } p { w with net } p' w') :
      Received n p w (.ok (.data data)) p' w'
  | refused {e : OsError} {net : N} {p' : Tcp} {w' : Host N C} (hb : p.bits.broken = false)
      (hn : n ≠ 0) (hr : Sockets.read p.fd n w.net = (.error e, net))
      (he : e.fatalForRecv = false)
      (hs : Settled { p.bits with readable := false } p { w with net } p' w') :
      Received n p w (.error .wouldBlock) p' w'
  | failed {e : OsError} {net : N} {p' : Tcp} {w' : Host N C} (hb : p.bits.broken = false)
      (hn : n ≠ 0) (hr : Sockets.read p.fd n w.net = (.error e, net)) (he : e.fatalForRecv = true)
      (hs : Settled p.bits.breakDown p { w with net } p' w') :
      Received n p w (.error (.io e)) p' w'

theorem received {n : Nat} {result : PipeResult Recv}
    (h : Pipe.recv n p w = .ok (result, p', w')) : Received n p w result p' w' := by
  replace h : receive n p w = .ok (result, p', w') := h
  unfold receive at h
  split at h
  · rename_i hb
    cases h
    exact .broken hb
  rename_i hb
  have hb : p.bits.broken = false := by simpa using hb
  split at h
  · rename_i hn
    cases h
    exact .nothing hb hn
  rename_i hn
  rcases hr : Sockets.read p.fd n w.net with ⟨answer, net⟩
  simp only [hr] at h
  match answer with
  | .ok [] =>
    obtain ⟨rfl, hs⟩ := settled h
    exact .ended hb hn hr hs
  | .ok (byte :: rest) =>
    obtain ⟨rfl, hs⟩ := settled h
    exact .data hb hn hr (by simp) hs
  | .error e =>
    dsimp only at h
    split at h
    · rename_i he
      obtain ⟨rfl, hs⟩ := settled h
      exact .failed hb hn hr he hs
    · rename_i he
      obtain ⟨rfl, hs⟩ := settled h
      exact .refused hb hn hr (by simpa using he) hs

inductive Transmitted (data : Bytes) (p : Tcp) (w : Host N C) :
    PipeResult Nat → Tcp → Host N C → Prop
  | broken (hf : p.bits.finSent = false) (hb : p.bits.broken = true) :
      Transmitted data p w (.error .broken) p w
  | taken {n : Nat} {net : N} {p' : Tcp} {w' : Host N C} (hf : p.bits.finSent = false)
      (hb : p.bits.broken = false) (hr : Sockets.send p.fd data w.net = (.ok n, net))
      (hs : Settled { p.bits with writable := decide (n = data.length) } p { w with net } p' w') :
      Transmitted data p w (.ok n) p' w'
  | refused {e : OsError} {net : N} {p' : Tcp} {w' : Host N C} (hf : p.bits.finSent = false)
      (hb : p.bits.broken = false) (hr : Sockets.send p.fd data w.net = (.error e, net))
      (he : e.fatalForSend = false)
      (hs : Settled { p.bits with writable := false } p { w with net } p' w') :
      Transmitted data p w (.error .wouldBlock) p' w'
  | failed {e : OsError} {net : N} {p' : Tcp} {w' : Host N C} (hf : p.bits.finSent = false)
      (hb : p.bits.broken = false) (hr : Sockets.send p.fd data w.net = (.error e, net))
      (he : e.fatalForSend = true) (hs : Settled p.bits.breakDown p { w with net } p' w') :
      Transmitted data p w (.error (.io e)) p' w'

theorem transmitted {data : Bytes} {result : PipeResult Nat}
    (h : Pipe.send data p w = .ok (result, p', w')) : Transmitted data p w result p' w' := by
  replace h : transmit data p w = .ok (result, p', w') := h
  have hf : p.bits.finSent = false := by
    cases hf : p.bits.finSent with
    | false => rfl
    | true => simp [transmit, hf] at h
  unfold transmit at h
  dsimp only at h
  rw [if_neg (show ¬p.bits.finSent = true by simp [hf])] at h
  by_cases hb : p.bits.broken = true
  · rw [if_pos hb] at h
    cases h
    exact .broken hf hb
  rw [if_neg hb] at h
  have hb : p.bits.broken = false := by simpa using hb
  rcases hr : Sockets.send p.fd data w.net with ⟨answer, net⟩
  simp only [hr] at h
  match answer with
  | .ok n =>
    obtain ⟨rfl, hs⟩ := settled h
    exact .taken hf hb hr hs
  | .error e =>
    dsimp only at h
    split at h
    · rename_i he
      obtain ⟨rfl, hs⟩ := settled h
      exact .failed hf hb hr he hs
    · rename_i he
      obtain ⟨rfl, hs⟩ := settled h
      exact .refused hf hb hr (by simpa using he) hs

inductive ShutDown (p : Tcp) (w : Host N C) : PipeResult FinStatus → Tcp → Host N C → Prop
  | broken (hf : p.bits.finSent = false) (hb : p.bits.broken = true) :
      ShutDown p w (.error .broken) p w
  | done {net : N} {p' : Tcp} {w' : Host N C} (hf : p.bits.finSent = false)
      (hb : p.bits.broken = false) (hr : Sockets.shutdown p.fd w.net = (.ok (), net))
      (hs : Settled { p.bits with writable := false, finSent := true } p { w with net } p' w') :
      ShutDown p w (.ok .sent) p' w'
  | failed {e : OsError} {net : N} {p' : Tcp} {w' : Host N C} (hf : p.bits.finSent = false)
      (hb : p.bits.broken = false) (hr : Sockets.shutdown p.fd w.net = (.error e, net))
      (hs : Settled p.bits.breakDown p { w with net } p' w') :
      ShutDown p w (.error (.io e)) p' w'

theorem shutDown_outcome {result : PipeResult FinStatus}
    (h : Pipe.sendFin p w = .ok (result, p', w')) : ShutDown p w result p' w' := by
  replace h : shutDown p w = .ok (result, p', w') := h
  have hf : p.bits.finSent = false := by
    cases hf : p.bits.finSent with
    | false => rfl
    | true => simp [shutDown, hf] at h
  unfold shutDown at h
  dsimp only at h
  rw [if_neg (show ¬p.bits.finSent = true by simp [hf])] at h
  by_cases hb : p.bits.broken = true
  · rw [if_pos hb] at h
    cases h
    exact .broken hf hb
  rw [if_neg hb] at h
  have hb : p.bits.broken = false := by simpa using hb
  rcases hr : Sockets.shutdown p.fd w.net with ⟨answer, net⟩
  simp only [hr] at h
  match answer with
  | .ok () =>
    obtain ⟨rfl, hs⟩ := settled h
    exact .done hf hb hr hs
  | .error e =>
    obtain ⟨rfl, hs⟩ := settled h
    exact .failed hf hb hr hs

/-- The state bits after readiness was noted. -/
def noted (events : SocketEvents) (s : PipeState) : PipeState where
  ready := true
  broken := s.broken
  readable := s.readable || (events.readable && !s.finRcvd)
  writable := s.writable || (events.writable && !s.finSent)
  finSent := s.finSent
  finRcvd := s.finRcvd

/-- What is reported when readiness was noted. -/
def notedReport (events : SocketEvents) (s : PipeState) : PipeEvents where
  ready := !s.ready
  readable := events.readable && !s.finRcvd
  writable := events.writable && !s.finSent

/-- A network that at most lost the error of a socket. -/
def ErrorTaken (fd : Fd) (net net' : N) : Prop :=
  net' = net ∨ ∃ e, Sockets.takeError fd net = (e, net')

inductive Noticed (events : SocketEvents) (p : Tcp) (w : Host N C) :
    PipeEvents → Tcp → Host N C → Prop
  | broken (hb : p.bits.broken = true) : Noticed events p w .none p w
  | waiting (hb : p.bits.broken = false) (hr : p.bits.ready = false)
      (he : events.writable = false) : Noticed events p w .none p w
  | failed {net : N} {p' : Tcp} {w' : Host N C} (hb : p.bits.broken = false)
      (hn : ErrorTaken p.fd w.net net) (hs : Settled p.bits.breakDown p { w with net } p' w') :
      Noticed events p w .justBroken p' w'
  | noted {net : N} {p' : Tcp} {w' : Host N C} (hb : p.bits.broken = false)
      (hn : ErrorTaken p.fd w.net net)
      (hs : Settled (noted events p.bits) p { w with net } p' w') :
      Noticed events p w (notedReport events p.bits) p' w'

theorem noticed {events : SocketEvents} {report : PipeEvents}
    (h : Pipe.react events p w = .ok (report, p', w')) : Noticed events p w report p' w' := by
  replace h : notice events p w = .ok (report, p', w') := h
  unfold notice at h
  by_cases hb : p.bits.broken = true
  · rw [if_pos hb] at h
    cases h
    exact .broken hb
  rw [if_neg hb] at h
  have hb : p.bits.broken = false := by simpa using hb
  rcases ht : Sockets.takeError p.fd w.net with ⟨error, net⟩
  simp only [ht] at h
  by_cases hr : p.bits.ready = true
  · -- a connection that was established before
    have hnoted : ∀ {net : N}, ErrorTaken p.fd w.net net →
        noteReadiness events .none p { w with net } = .ok (report, p', w') →
        Noticed events p w report p' w' := by
      intro net hn h
      obtain ⟨rfl, hs⟩ := settled h
      have hreport := Noticed.noted hb hn
        (show Settled (noted events p.bits) p { w with net } p' w' by
          rw [noted, ← hr]
          exact hs)
      rwa [notedReport, hr] at hreport
    simp only [hr, Bool.not_true, Bool.false_eq_true, if_false] at h
    split at h
    · split at h
      · obtain ⟨rfl, hs⟩ := settled h
        exact .failed hb (.inr ⟨error, ht⟩) hs
      · exact hnoted (.inr ⟨error, ht⟩) h
    · exact hnoted (.inl rfl) h
  · have hr : p.bits.ready = false := by simpa using hr
    simp only [hr, Bool.not_false, if_true] at h
    split at h
    · rename_i he
      cases h
      exact .waiting hb hr (by simp_all)
    · split at h
      · obtain ⟨rfl, hs⟩ := settled h
        exact .failed hb (.inr ⟨error, ht⟩) hs
      · obtain ⟨rfl, hs⟩ := settled h
        have hreport := Noticed.noted hb (.inr ⟨error, ht⟩)
          (show Settled (noted events p.bits) p { w with net } p' w' from
            ⟨hs.pipe, hs.net, hs.reactor⟩)
        rwa [notedReport, hr] at hreport

theorem received_bits {n : Nat} {result : PipeResult Recv}
    (h : Pipe.recv n p w = .ok (result, p', w')) :
    p'.bits.finSent = p.bits.finSent ∧
      (p'.bits.finRcvd = true → p.bits.finRcvd = true ∨ result = .ok .fin) ∧
      (result = .ok .fin → p'.bits.finRcvd = true) := by
  cases received h with
  | broken | nothing => exact ⟨rfl, .inl, nofun⟩
  | ended _ _ _ hs =>
    rw [hs.pipe]
    exact ⟨rfl, fun _ => .inr rfl, fun _ => rfl⟩
  | data _ _ _ _ hs | refused _ _ _ _ hs | failed _ _ _ _ hs =>
    rw [hs.pipe]
    exact ⟨rfl, .inl, nofun⟩

theorem transmitted_bits {data : Bytes} {result : PipeResult Nat}
    (h : Pipe.send data p w = .ok (result, p', w')) :
    p'.bits.finSent = p.bits.finSent ∧ p'.bits.finRcvd = p.bits.finRcvd := by
  cases transmitted h with
  | broken => exact ⟨rfl, rfl⟩
  | taken _ _ _ hs | refused _ _ _ _ hs | failed _ _ _ _ hs =>
    rw [hs.pipe]
    exact ⟨rfl, rfl⟩

theorem shutDown_bits {result : PipeResult FinStatus}
    (h : Pipe.sendFin p w = .ok (result, p', w')) :
    p'.bits.finRcvd = p.bits.finRcvd ∧ ((∃ s, result = .ok s) → p'.bits.finSent = true) ∧
      (p'.bits.finSent = true → p.bits.finSent = true ∨ ∃ s, result = .ok s) := by
  cases shutDown_outcome h with
  | broken => exact ⟨rfl, nofun, .inl⟩
  | done _ _ _ hs =>
    rw [hs.pipe]
    exact ⟨rfl, fun _ => rfl, fun _ => .inr ⟨_, rfl⟩⟩
  | failed _ _ _ hs =>
    rw [hs.pipe]
    exact ⟨rfl, nofun, .inl⟩

theorem noticed_bits {events : SocketEvents} {report : PipeEvents}
    (h : Pipe.react events p w = .ok (report, p', w')) :
    p'.bits.finSent = p.bits.finSent ∧ p'.bits.finRcvd = p.bits.finRcvd := by
  cases noticed h with
  | broken | waiting => exact ⟨rfl, rfl⟩
  | failed _ _ hs | noted _ _ hs =>
    rw [hs.pipe]
    exact ⟨rfl, rfl⟩

end DuplexRelay.Tcp
