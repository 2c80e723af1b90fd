import DuplexRelay.Proofs.Pipe.AtomicOutlook
import DuplexRelay.Proofs.Pipe.Below
import DuplexRelay.Proofs.Pipe.DatagramOutlook

/-! The laws of pipes over sockets, whatever their layers. -/

namespace DuplexRelay

namespace Stacked

theorem pipe_hasPipeState {B W C : Type} [Pipe B W C] (layers : List Layer) :
    (pipe (B := B) (W := W) (C := C) layers).toHasPipeState = hasPipeState layers := by
  induction layers with
  | nil => rfl
  | cons layer rest ih =>
    cases layer with
    | atomic =>
      change @Atomic.instHasPipeState _ (pipe (B := B) (W := W) rest).toHasPipeState = _
      rw [ih]
      rfl
    | datagram =>
      change @Datagram.instHasPipeState _ (pipe (B := B) (W := W) rest).toHasPipeState = _
      rw [ih]
      rfl

/-- What is known of a stack on a socket pipe. -/
def outlook : (layers : List Layer) → Outlook (Stacked Tcp layers)
  | [] => Tcp.outlook
  | .atomic :: rest =>
    let _ := hasPipeState (B := Tcp) rest
    Atomic.outlook (outlook rest)
  | .datagram :: rest =>
    let _ := hasPipeState (B := Tcp) rest
    Datagram.outlook (Atomic.outlook (outlook rest))

theorem outlook_lawful {N C : Type} [Sockets N] (layers : List Layer) :
    let _ := pipe (B := Tcp) (W := Host N C) layers
    (outlook layers).Lawful (N := N) (C := C) := by
  induction layers with
  | nil => exact Tcp.outlook_lawful
  | cons layer rest ih =>
    let _ := pipe (B := Tcp) (W := Host N C) rest
    cases layer with
    | atomic =>
      have h := Atomic.outlook_lawful ih
      rw [pipe_hasPipeState (B := Tcp) (W := Host N C) rest] at h
      exact h
    | datagram =>
      have h := Datagram.outlook_lawful (Atomic.outlook_lawful ih)
      rw [pipe_hasPipeState (B := Tcp) (W := Host N C) rest] at h
      exact h

@[reducible]
def shownPipe {B W C : Type} [Pipe B W C] (layers : List Layer) : Pipe (Stacked B layers) W C :=
  { pipe (B := B) (W := W) (C := C) layers with toHasPipeState := hasPipeState layers }

theorem shownPipe_eq {B W C : Type} [Pipe B W C] (layers : List Layer) :
    shownPipe (B := B) (W := W) layers = pipe layers := by
  unfold shownPipe
  rw [← pipe_hasPipeState (B := B) (W := W) layers]

theorem shown_lawful {N C : Type} [Sockets N] (layers : List Layer) :
    let _ := shownPipe (B := Tcp) (W := Host N C) layers
    (outlook layers).Lawful (N := N) (C := C) := by
  rw [shownPipe_eq]
  exact outlook_lawful layers

end Stacked

namespace Stack

/-- What is known of a pipe over a socket with any layers. -/
def outlook : Outlook (Stack Tcp) where
  base s := (Stacked.outlook s.layers).base s.top
  regular s := (Stacked.outlook s.layers).regular s.top
  closing s := (Stacked.outlook s.layers).closing s.top
  holding s := (Stacked.outlook s.layers).holding s.top

theorem outlook_base (s : Stack Tcp) : outlook.base s = s.base := by
  obtain ⟨layers, top⟩ := s
  change (Stacked.outlook layers).base top = Stacked.base layers top
  induction layers with
  | nil => rfl
  | cons layer rest ih =>
    cases layer with
    | atomic => exact ih (Atomic.inner top)
    | datagram => exact ih (Datagram.inner top).inner

theorem outlook_lawful {N C : Type} [Sockets N] : outlook.Lawful (N := N) (C := C) := by
  let _ (layers : List Layer) : Pipe (Stacked Tcp layers) (Host N C) C := Stacked.shownPipe layers
  have hlaws (layers : List Layer) : (Stacked.outlook layers).Lawful (N := N) (C := C) :=
    Stacked.shown_lawful layers
  refine ⟨fun s => (hlaws s.layers).ready s.top, fun s => (hlaws s.layers).finSent s.top,
    fun s => (hlaws s.layers).finRcvd s.top, (hlaws _).unbroken, (hlaws _).dry, (hlaws _).full,
    (hlaws _).flowing, (hlaws _).shut, (hlaws _).closing, (hlaws _).held, ?_, ?_, ?_, ?_, ?_,
    fun s => (hlaws s.layers).reschedule s.top⟩
  · intro callback s s' w w' result h
    obtain ⟨top, hattach, rfl⟩ := rewrap_eq_ok h
    obtain ⟨hr, hbase⟩ := (hlaws _).attach hattach
    exact ⟨⟨hr.shown, hr.regular, hr.closing⟩, hbase⟩
  · intro n s s' w w' result hr hp h hm
    obtain ⟨top, hrecv, rfl⟩ := rewrap_eq_ok h
    have hi := (hlaws _).recv hr hp hrecv hm
    exact ⟨hi.regular, hi.writable, hi.ready, hi.ended, hi.closing⟩
  · intro data s s' w w' result hr hw h hm
    obtain ⟨top, hsend, rfl⟩ := rewrap_eq_ok h
    have hi := (hlaws _).send hr hw hsend hm
    have hin := hi.incoming
    exact ⟨hi.regular, ⟨hin.readable, hin.ready, hin.finRcvd⟩, hi.closing, hi.full⟩
  · intro s s' w w' result hr h hm
    obtain ⟨top, hclose, rfl⟩ := rewrap_eq_ok h
    obtain ⟨hdone, hi⟩ := (hlaws _).sendFin hr hclose hm
    have hin := hi.incoming
    exact ⟨hdone, hi.regular, ⟨hin.readable, hin.ready, hin.finRcvd⟩, hi.closing, hi.full⟩
  · intro events s s' w w' report hr h hb
    obtain ⟨top, hreact, rfl⟩ := rewrap_eq_ok h
    have hi := (hlaws _).react hr hreact hb
    exact ⟨hi.regular, hi.closing, hi.ready, hi.finRcvd, hi.readable, hi.writable, hi.reported,
      hi.told⟩

end Stack

end DuplexRelay
