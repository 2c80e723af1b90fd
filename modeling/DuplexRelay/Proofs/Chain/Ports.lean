import Mathlib.Data.List.Infix
import DuplexRelay.Proofs.Socket

/-! Sockets that keep note of all that went through them. How far an operation gets, and whether it
fails, is said in advance for each one, so a run over such sockets stands for any behaviour of
sockets. -/

namespace DuplexRelay

/-- All that went through one end of a connection. -/
structure Track where
  got : Bytes := []
  /-- what arrived and was not read yet -/
  unread : Bytes := []
  /-- nothing arrives behind that -/
  ended : Bool := false
  sent : Bytes := []
  /-- the way out was shut down -/
  shut : Bool := false
  closed : Bool := false
  deriving DecidableEq

/-- How an operation goes: it fails, or moves so many bytes at most. -/
inductive Fate where
  | fail (e : OsError)
  | move (n : Nat)

/-- One end of a connection, with how the next operations on it go. -/
structure Port extends Track where
  fates : List Fate := []

namespace Port

/-- How the next operation goes. Where nothing is said, it moves nothing. -/
def fate (p : Port) : Fate := p.fates.headD (.move 0)

/-- After the next operation. -/
def next (p : Port) : Port := { p with fates := p.fates.tail }

/-- Reads up to so many bytes. -/
def read (n : Nat) (p : Port) : Except OsError Bytes × Port :=
  match p.fate with
  | .fail e => (.error e, p.next)
  | .move k =>
    if p.unread = [] ∧ p.ended = true then (.ok [], p.next)
    else
      let data := p.unread.take (min n k)
      if data = [] then (.error (.number OsError.eagain), p.next)
      else
        (.ok data, { p.next with got := p.got ++ data, unread := p.unread.drop (min n k) })

/-- Sends bytes, as long as the way out is open. -/
def send (data : Bytes) (p : Port) : Except OsError Nat × Port :=
  match p.fate with
  | .fail e => (.error e, p.next)
  | .move k =>
    if p.shut || p.closed then (.error (.number OsError.epipe), p.next)
    else if data = [] then (.ok 0, p.next)
    else
      let n := min k data.length
      if n = 0 then (.error (.number OsError.eagain), p.next)
      else (.ok n, { p.next with sent := p.sent ++ data.take n })

def shutdown (p : Port) : Except OsError Unit × Port :=
  match p.fate with
  | .fail e => (.error e, p.next)
  | .move _ => (.ok (), { p.next with shut := true })

def takeError (p : Port) : Option OsError × Port :=
  match p.fate with
  | .fail e => (some e, p.next)
  | .move _ => (none, p.next)

end Port

/-- A network of such sockets. -/
def Ports : Type := Fd → Port

namespace Ports

def put (fd : Fd) (p : Port) (net : Ports) : Ports := fun d => if d = fd then p else net d

@[simp] theorem put_self (fd : Fd) (p : Port) (net : Ports) : net.put fd p fd = p := if_pos rfl

theorem put_other {fd d : Fd} (h : d ≠ fd) (p : Port) (net : Ports) : net.put fd p d = net d :=
  if_neg h

/-- What went through the socket of a descriptor. -/
def track (net : Ports) (fd : Fd) : Track := (net fd).toTrack

/-- Does something at one of the sockets. -/
def operate {α : Type} (fd : Fd) (f : Port → α × Port) (net : Ports) : α × Ports :=
  ((f (net fd)).1, net.put fd (f (net fd)).2)

instance : Sockets Ports where
  read fd n := operate fd (·.read n)
  send fd data := operate fd (·.send data)
  shutdown fd := operate fd (·.shutdown)
  takeError fd := operate fd (·.takeError)
  close fd net := net.put fd { net fd with closed := true }
  queued fd net := (net fd).unread.length

end Ports

namespace Track

/-- What a read of up to `n` bytes can come to. -/
inductive AfterRead (n : Nat) (t : Track) : Except OsError Bytes → Track → Prop
  | failed (e : OsError) : AfterRead n t (.error e) t
  | ended (hu : t.unread = []) (he : t.ended = true) : AfterRead n t (.ok []) t
  | data {data rest : Bytes} (hd : data ≠ []) (hn : data.length ≤ n)
      (hu : t.unread = data ++ rest) :
      AfterRead n t (.ok data) { t with got := t.got ++ data, unread := rest }

inductive AfterSend (data : Bytes) (t : Track) : Except OsError Nat → Track → Prop
  | failed (e : OsError) : AfterSend data t (.error e) t
  | taken {n : Nat} (hs : t.shut = false) (hc : t.closed = false) (hn : n ≤ data.length) :
      AfterSend data t (.ok n) { t with sent := t.sent ++ data.take n }

inductive AfterShutdown (t : Track) : Except OsError Unit → Track → Prop
  | failed (e : OsError) : AfterShutdown t (.error e) t
  | done : AfterShutdown t (.ok ()) { t with shut := true }

end Track

namespace Ports

variable {fd d : Fd} {n : Nat} {data : Bytes} {net net' : Ports}

theorem operate_other {α : Type} {f : Port → α × Port} {a : α} (h : net.operate fd f = (a, net'))
    (hd : d ≠ fd) : net' d = net d := by
  cases h
  exact put_other hd _ net

theorem operate_self {α : Type} {f : Port → α × Port} {a : α} (h : net.operate fd f = (a, net')) :
    f (net fd) = (a, net' fd) := by
  cases h
  rw [put_self]

theorem afterRead {result : Except OsError Bytes} (h : Sockets.read fd n net = (result, net')) :
    (net.track fd).AfterRead n result (net'.track fd) := by
  have hself : (net fd).read n = (result, net' fd) := operate_self h
  unfold track
  generalize net fd = p at hself
  generalize net' fd = p' at hself
  unfold Port.read at hself
  split at hself
  · cases hself
    exact .failed _
  split at hself
  · rename_i hended
    cases hself
    exact .ended hended.1 hended.2
  dsimp only at hself
  split at hself
  · cases hself
    exact .failed _
  · rename_i k _ _ hd
    cases hself
    refine .data hd ?_ (List.take_append_drop _ _).symm
    rw [List.length_take]
    omega

theorem afterSend {result : Except OsError Nat} (h : Sockets.send fd data net = (result, net')) :
    (net.track fd).AfterSend data result (net'.track fd) := by
  have hself : (net fd).send data = (result, net' fd) := operate_self h
  unfold track
  generalize net fd = p at hself
  generalize net' fd = p' at hself
  unfold Port.send at hself
  split at hself
  · cases hself
    exact .failed _
  split at hself
  · cases hself
    exact .failed _
  rename_i hopen
  simp only [Bool.or_eq_true, not_or, Bool.not_eq_true] at hopen
  split at hself
  · rename_i hd
    cases hself
    have hnone : p.toTrack.AfterSend data (.ok 0) _ := .taken hopen.1 hopen.2 (Nat.zero_le _)
    rwa [List.take_zero, List.append_nil] at hnone
  dsimp only at hself
  split at hself
  · cases hself
    exact .failed _
  · cases hself
    exact .taken hopen.1 hopen.2 (Nat.min_le_right _ _)

theorem afterShutdown {result : Except OsError Unit}
    (h : Sockets.shutdown fd net = (result, net')) :
    (net.track fd).AfterShutdown result (net'.track fd) := by
  have hself : (net fd).shutdown = (result, net' fd) := operate_self h
  unfold track
  generalize net fd = p at hself
  generalize net' fd = p' at hself
  unfold Port.shutdown at hself
  split at hself
  · cases hself
    exact .failed _
  · cases hself
    exact .done

theorem track_takeError {error : Option OsError} (h : Sockets.takeError fd net = (error, net')) :
    net'.track fd = net.track fd := by
  have hself : (net fd).takeError = (error, net' fd) := operate_self h
  unfold track
  generalize net fd = p at hself
  generalize net' fd = p' at hself
  unfold Port.takeError at hself
  split at hself <;> cases hself <;> rfl

instance : LawfulSockets Ports where
  read_le {fd n data net net'} h := by
    have hread := afterRead h
    generalize hresult : (Except.ok data : Except OsError Bytes) = result at hread
    generalize net'.track fd = t at hread
    cases hread with
    | failed => cases hresult
    | ended =>
      cases hresult
      exact Nat.zero_le n
    | data _ hn =>
      cases hresult
      exact hn
  send_le {fd data n net net'} h := by
    have hsend := afterSend h
    generalize hresult : (Except.ok n : Except OsError Nat) = result at hsend
    generalize net'.track fd = t at hsend
    cases hsend with
    | failed => cases hresult
    | taken _ _ hn =>
      cases hresult
      exact hn

end Ports

end DuplexRelay
