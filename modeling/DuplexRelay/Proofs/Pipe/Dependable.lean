import DuplexRelay.Proofs.Bridge.Logged
import DuplexRelay.Proofs.Pipe.Answering
import DuplexRelay.Proofs.Pipe.Breaking
import DuplexRelay.Proofs.Pipe.Depletion

/-! What the owner of a pipe can depend on, if it receives only from a pipe that is readable, sends
only to one that is writable, and leaves a pipe alone once it failed. -/

namespace DuplexRelay

open Outlook (LeavesUsable)

/-- An operation that leaves the pipe as regular as it was, and its way out as open. -/
structure Pipe.Retains {P : Type} (o : Outlook P) (p p' : P) : Prop where
  regular : o.regular p'
  closing : o.closing p' ↔ o.closing p

/-- A pipe over a socket that can be depended on as long as it is regular. Calls come to a result,
unless something is sent behind a request to close the way out, or a receive asks for more than
`fits`. -/
structure Pipe.Dependable {P N C : Type} [Sockets N] [Pipe P (Host N C) C] (o : Outlook P)
    (fits : Nat → Prop) : Prop where
  below : Pipe.Below (W := Host N C) o.base Tcp.SameSocket
  latching : Pipe.Latching P (Host N C)
  depleting : Sockets.AsAnnounced N → Pipe.Depleting (N := N) (C := C) o.regular
  nothingArrives :
    Sockets.AsAnnounced N → Pipe.Below o.base fun _ (w : Host N C) _ w' => w.NothingArrives w'
  shut : ∀ {p : P}, o.regular p → o.closing p → (state p).isWritable = false
  attached : ∀ {callback : C} {p p' : P} {w w' : Host N C} {result}, o.regular p →
    Pipe.attach callback p w = .ok (result, p', w') →
    o.regular p' ∧ (o.closing p' → o.closing p) ∧
      Pipe.attach callback (o.base p) w = .ok (result, o.base p', w')
  received : ∀ {n : Nat} {p p' : P} {w w' : Host N C} {result}, o.regular p →
    (state p).isReadable = true → Pipe.recv n p w = .ok (result, p', w') → LeavesUsable result →
    Pipe.Retains o p p'
  sent : ∀ {data : Bytes} {p p' : P} {w w' : Host N C} {result}, o.regular p →
    (state p).isWritable = true → Pipe.send data p w = .ok (result, p', w') → LeavesUsable result →
    Pipe.Retains o p p'
  closed : ∀ {p p' : P} {w w' : Host N C} {status}, o.regular p →
    Pipe.sendFin p w = .ok (.ok status, p', w') → o.regular p' ∧ o.closing p'
  reacted : ∀ {events : SocketEvents} {p p' : P} {w w' : Host N C} {report}, o.regular p →
    Pipe.react events p w = .ok (report, p', w') → report.broken = false →
    Pipe.Retains o p p' ∧ (report.writable = true → (state p').isWritable = true)
  within : ∀ {n : Nat} {p p' : P} {w w' : Host N C} {chunk : Bytes}, o.regular p →
    Pipe.recv n p w = .ok (.ok (.data chunk), p', w') → chunk.length ≤ n
  smaller : ∀ {m n : Nat}, m ≤ n → fits n → fits m
  recv_ok : ∀ (n : Nat) {p : P} {w : Host N C}, o.regular p → (o.base p).Listed w.reactor →
    (∃ x, Pipe.recv n p w = .ok x) ∨ Pipe.recv n p w = .error .capacityExceeded ∧ ¬fits n
  send_ok : ∀ (data : Bytes) {p : P} {w : Host N C}, o.regular p → ¬o.closing p →
    (o.base p).Listed w.reactor → ∃ x, Pipe.send data p w = .ok x
  sendFin_ok : ∀ {p : P} {w : Host N C}, o.regular p → ¬o.closing p →
    (o.base p).Listed w.reactor → ∃ x, Pipe.sendFin p w = .ok x
  react_ok : ∀ (events : SocketEvents) {p : P} {w : Host N C}, o.regular p →
    (o.base p).Listed w.reactor → ∃ x, Pipe.react events p w = .ok x

/-- What is known of pipes that are others with something noted beside them. -/
def Outlook.erased {P Q : Type} (f : Q → P) (o : Outlook P) : Outlook Q where
  base q := o.base (f q)
  regular q := o.regular (f q)
  closing q := o.closing (f q)
  holding q := o.holding (f q)

namespace Pipe.Erases

variable {P Q W C : Type} [Pipe P W C] [Pipe Q W C] {f : Q → P} (hf : Pipe.Erases W f) {q q' : Q}
  {w w' : W}
include hf

theorem attach_eq_ok {callback : C} {result : Except Failure Unit}
    (h : Pipe.attach callback q w = .ok (result, q', w')) :
    Pipe.attach callback (f q) w = .ok (result, f q', w') := by
  rw [hf.attach, h]
  rfl

theorem recv_eq_ok {n : Nat} {result : PipeResult Recv}
    (h : Pipe.recv n q w = .ok (result, q', w')) :
    Pipe.recv n (f q) w = .ok (result, f q', w') := by
  rw [hf.recv, h]
  rfl

theorem send_eq_ok {data : Bytes} {result : PipeResult Nat}
    (h : Pipe.send data q w = .ok (result, q', w')) :
    Pipe.send data (f q) w = .ok (result, f q', w') := by
  rw [hf.send, h]
  rfl

theorem sendFin_eq_ok {result : PipeResult FinStatus}
    (h : Pipe.sendFin q w = .ok (result, q', w')) :
    Pipe.sendFin (f q) w = .ok (result, f q', w') := by
  rw [hf.sendFin, h]
  rfl

theorem react_eq_ok {events : SocketEvents} {report : PipeEvents}
    (h : Pipe.react events q w = .ok (report, q', w')) :
    Pipe.react events (f q) w = .ok (report, f q', w') := by
  rw [hf.react, h]
  rfl

theorem below {B : Type} {base : P → B} {T : B → W → B → W → Prop} (h : Pipe.Below base T) :
    Pipe.Below (fun q => base (f q)) T where
  recv hr := h.recv (hf.recv_eq_ok hr)
  send hs := h.send (hf.send_eq_ok hs)
  sendFin hc := h.sendFin (hf.sendFin_eq_ok hc)
  react hr := h.react (hf.react_eq_ok hr)
  reschedule q w := by
    have hlower := h.reschedule (f q) w
    rwa [hf.rescheduleRead] at hlower

theorem latching (h : Pipe.Latching P W) : Pipe.Latching Q W where
  attached ha := by simpa only [hf.state] using h.attached (hf.attach_eq_ok ha)
  received hr := by simpa only [hf.state] using h.received (hf.recv_eq_ok hr)
  sent hs := by simpa only [hf.state] using h.sent (hf.send_eq_ok hs)
  closed hc := by simpa only [hf.state] using h.closed (hf.sendFin_eq_ok hc)
  reacted hr := by simpa only [hf.state] using h.reacted (hf.react_eq_ok hr)

end Pipe.Erases

section Erased

variable {P Q N C : Type} [Sockets N] [Pipe P (Host N C) C] [Pipe Q (Host N C) C] {f : Q → P}
  (hf : Pipe.Erases (Host N C) f) {o : Outlook P} {sound : P → Prop} {fits : Nat → Prop}
include hf

theorem Pipe.Depleting.erased (h : Pipe.Depleting (N := N) (C := C) sound) :
    Pipe.Depleting (N := N) (C := C) fun q => sound (f q) where
  lasting w hs := by
    rw [← hf.backlog]
    exact h.lasting w hs
  nothingArrives hs hw := by
    rw [← hf.backlog, ← hf.backlog]
    exact h.nothingArrives hs hw
  recv := by
    intro n q q' w w' result hs hreadable hn hr hm hstill
    rw [← hf.state] at hreadable hstill
    rw [← hf.backlog, ← hf.backlog]
    exact h.recv hs hreadable hn (hf.recv_eq_ok hr) hm hstill

theorem Pipe.Dependable.erased (h : Pipe.Dependable (N := N) (C := C) o fits) :
    Pipe.Dependable (N := N) (C := C) (o.erased f) fits where
  below := hf.below h.below
  latching := hf.latching h.latching
  depleting hN := (h.depleting hN).erased hf
  nothingArrives hN := hf.below (h.nothingArrives hN)
  shut hs hc := by
    rw [← hf.state]
    exact h.shut hs hc
  attached hs ha := h.attached hs (hf.attach_eq_ok ha)
  received hs hread hr hm := by
    rw [← hf.state] at hread
    obtain ⟨hregular, hclosing⟩ := h.received hs hread (hf.recv_eq_ok hr) hm
    exact ⟨hregular, hclosing⟩
  sent hs hwrite hsend hm := by
    rw [← hf.state] at hwrite
    obtain ⟨hregular, hclosing⟩ := h.sent hs hwrite (hf.send_eq_ok hsend) hm
    exact ⟨hregular, hclosing⟩
  closed hs hc := h.closed hs (hf.sendFin_eq_ok hc)
  reacted hs hr hb := by
    obtain ⟨⟨hregular, hclosing⟩, hreport⟩ := h.reacted hs (hf.react_eq_ok hr) hb
    rw [hf.state] at hreport
    exact ⟨⟨hregular, hclosing⟩, hreport⟩
  within hs hr := h.within hs (hf.recv_eq_ok hr)
  smaller := h.smaller
  recv_ok n q w hs hl := by
    have hlower := h.recv_ok n hs hl
    rw [hf.recv, Checked.map_eq_error_iff] at hlower
    exact hlower.imp_left Checked.exists_ok_of_map
  send_ok data q w hs hc hl := by
    have hlower := h.send_ok data hs hc hl
    rw [hf.send] at hlower
    exact Checked.exists_ok_of_map hlower
  sendFin_ok hs hc hl := by
    have hlower := h.sendFin_ok hs hc hl
    rw [hf.sendFin] at hlower
    exact Checked.exists_ok_of_map hlower
  react_ok events q w hs hl := by
    have hlower := h.react_ok events hs hl
    rw [hf.react] at hlower
    exact Checked.exists_ok_of_map hlower

end Erased

theorem Pipe.Depleting.mono {P N C : Type} [Sockets N] [Pipe P (Host N C) C]
    {sound sound' : P → Prop} (h : Pipe.Depleting (N := N) (C := C) sound)
    (hsound : ∀ {p}, sound' p → sound p) : Pipe.Depleting (N := N) (C := C) sound' where
  lasting w hs := h.lasting w (hsound hs)
  nothingArrives hs := h.nothingArrives (hsound hs)
  recv hs := h.recv (hsound hs)

namespace Stacked

theorem shut_iff (layers : List Layer) (p : Stacked Tcp layers) :
    Shut Tcp.Shut layers p ↔ (outlook layers).closing p := by
  induction layers with
  | nil => exact Iff.rfl
  | cons layer rest ih =>
    cases layer with
    | atomic => exact or_congr Iff.rfl (ih _)
    | datagram => exact or_congr Iff.rfl (ih _)

end Stacked

namespace Stack

variable {N C : Type} [Sockets N] [LawfulSockets N]

/-- What is known of a link, together with what keeps its layers in step. -/
def linkOutlook : Outlook (Stack Tcp) where
  base := base
  regular s := s.LinkShaped ∧ outlook.regular s
  closing := outlook.closing
  holding := outlook.holding

theorem link_dependable : Pipe.Dependable (N := N) (C := C) linkOutlook Datagram.Holdable := by
  have hlaws := outlook_lawful (N := N) (C := C)
  have hanswers := answers (N := N) (C := C)
  have hopen {s : Stack Tcp} (hc : ¬outlook.closing s) : ¬s.Shut Tcp.Shut :=
    fun hshut => hc ((Stacked.shut_iff s.layers s.top).mp hshut)
  constructor
  · exact hanswers.below
  · exact latching Tcp.latching
  · exact fun hN => (depleting hN).mono fun hs => ⟨hs.1.layers, hs.2⟩
  · exact fun hN => below Tcp.nothingArrives_chained (Tcp.below_nothingArrives hN)
  · exact fun hs hc => hlaws.shut hs.2 hc
  · intro callback s s' w w' result ⟨hshaped, hregular⟩ h
    obtain ⟨hregistered, hbase⟩ := hlaws.attach h
    rw [outlook_base, outlook_base] at hbase
    have hshaped' := (hanswers.disciplined.attached hshaped h).1
    exact ⟨⟨hshaped', hregistered.regular hregular⟩, hregistered.closing, hbase⟩
  · intro n s s' w w' result ⟨hshaped, hregular⟩ hread h hm
    have hi := hlaws.recv hregular hread h hm
    exact ⟨⟨(hanswers.disciplined.received hshaped h).1, hi.regular⟩, hi.closing⟩
  · intro data s s' w w' result ⟨hshaped, hregular⟩ hwrite h hm
    have hi := hlaws.send hregular hwrite h hm
    exact ⟨⟨(hanswers.disciplined.sent hshaped h).1, hi.regular⟩, hi.closing⟩
  · intro s s' w w' status ⟨hshaped, hregular⟩ h
    obtain ⟨_, hi⟩ := hlaws.sendFin hregular h nofun
    exact ⟨⟨(hanswers.disciplined.closed hshaped h).1, hi.regular⟩, hi.closing⟩
  · intro events s s' w w' report ⟨hshaped, hregular⟩ h hb
    have hi := hlaws.react hregular h hb
    have hshaped' := (hanswers.disciplined.reacted hshaped h).1
    exact ⟨⟨⟨hshaped', hi.regular⟩, hi.closing⟩, hi.reported⟩
  · exact fun hs h => hanswers.within hs.1 h
  · exact fun hmn hn => Nat.le_trans (Nat.add_le_add_left hmn _) hn
  · exact fun n _ _ hs hl => hanswers.recv n hs.1 hl
  · exact fun data _ _ hs hc hl => hanswers.send data hs.1 (hopen hc) hl
  · exact fun hs hc hl => hanswers.sendFin hs.1 (hopen hc) hl
  · exact fun events _ _ hs hl => hanswers.react events hs.1 hl

end Stack

end DuplexRelay
