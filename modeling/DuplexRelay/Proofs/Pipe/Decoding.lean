import DuplexRelay.Proofs.Pipe.Extraction
import DuplexRelay.Proofs.Pipe.Serving

/-! Datagrams out of a stream that arrives in pieces. What the receives of a datagram pipe come to
is told by the bytes of the stream, in terms of what is written for a size and a datagram. The
pieces that the stream arrived in have no say in it. -/

namespace DuplexRelay

namespace Datagram

section Streams

variable (maxSize room : Nat)

/-- The datagrams of the longest beginning of a stream that consists of frames, none of them too
large, and what comes behind them. -/
structure LongestFrames (bytes : Bytes) (payloads : List Bytes) (rest : Bytes) : Prop where
  split : bytes = payloads.flatMap wire ++ rest
  fits : ∀ d ∈ payloads, d.length ≤ maxSize ∧ d.length ≤ room
  longest : ∀ others : List Bytes, (∀ d ∈ others, d.length ≤ maxSize ∧ d.length ≤ room) →
    others.flatMap wire <+: bytes → others <+: payloads

/-- How receiving ends where a stream goes on like this and no frame comes next. -/
inductive Ending : Bytes → PipeResult Unit → Prop
  | complete : Ending [] (.ok ())
  | malformed {rest : Bytes}
      (h : ∀ n ≤ Varint.maxValue, ¬Varint.encode n <+: rest ∧ ¬rest <+: Varint.encode n) :
      Ending rest (.error (.protocol "bad datagram header: malformed varint"))
  | excessive {n : Nat} {tail : Bytes} (hn : n ≤ Varint.maxValue) (hm : maxSize < n) :
      Ending (Varint.encode n ++ tail) (.error (.protocol
        s!"datagram of {n} bytes exceeds the maximum of {maxSize} bytes"))
  | unfit {n : Nat} {tail : Bytes} (hm : n ≤ maxSize) (hr : room < n) :
      Ending (Varint.encode n ++ tail) (.error (.protocol
        s!"datagram of {n} bytes does not fit into a buffer of {room} bytes"))
  | cutHeader {n : Nat} {rest more : Bytes} (hn : n ≤ Varint.maxValue) (hrest : rest ≠ [])
      (hmore : more ≠ []) (h : Varint.encode n = rest ++ more) :
      Ending rest (.error (.protocol
        s!"connection closed with {rest.length} bytes of an incomplete datagram"))
  | cutPayload {n : Nat} {tail : Bytes} (hm : n ≤ maxSize) (hr : n ≤ room) (h : tail.length < n) :
      Ending (Varint.encode n ++ tail) (.error (.protocol
        s!"connection closed with {(Varint.encode n ++ tail).length} bytes of an incomplete datagram"))

/-- How a stream is read that is at hand as a whole. -/
inductive Reads : Bytes → List Bytes → PipeResult Unit → Prop
  | complete : Reads [] [] (.ok ())
  | frame {bytes payload rest : Bytes} {payloads : List Bytes} {ending : PipeResult Unit}
      (hf : front maxSize room bytes = .ok (some (payload, rest)))
      (hrest : Reads rest payloads ending) : Reads bytes (payload :: payloads) ending
  | violated {bytes : Bytes} {reason : String} (hf : front maxSize room bytes = .error reason) :
      Reads bytes [] (.error (.protocol reason))
  | cut {bytes : Bytes} (hsome : bytes ≠ []) (hf : front maxSize room bytes = .ok none) :
      Reads bytes [] (.error (.protocol (cutShort bytes.length)))

end Streams

variable {maxSize room : Nat} {bytes payload rest : Bytes} {payloads : List Bytes}
  {ending : PipeResult Unit} {reason : String}

theorem wire_of_front (h : front maxSize room bytes = .ok (some (payload, rest))) :
    bytes = wire payload ++ rest ∧ payload.length ≤ maxSize ∧ payload.length ≤ room := by
  obtain ⟨hbytes, hfits⟩ := eq_wire_of_firstFrame (front_eq_some_iff.mp h)
  exact ⟨hbytes, by omega, by omega⟩

theorem front_wire (hmax : maxSize ≤ Varint.maxValue)
    (h : payload.length ≤ maxSize ∧ payload.length ≤ room) (rest : Bytes) :
    front maxSize room (wire payload ++ rest) = .ok (some (payload, rest)) :=
  front_eq_some_iff.mpr (firstFrame_wire (by omega) (by omega) rest)

theorem exists_reads (maxSize room : Nat) (bytes : Bytes) :
    ∃ payloads ending, Reads maxSize room bytes payloads ending := by
  induction hlength : bytes.length using Nat.strong_induction_on generalizing bytes with
  | _ length ih =>
    cases hf : front maxSize room bytes with
    | error reason => exact ⟨_, _, .violated hf⟩
    | ok found =>
      cases found with
      | none =>
        by_cases hempty : bytes = []
        · rw [hempty]
          exact ⟨_, _, .complete⟩
        · exact ⟨_, _, .cut hempty hf⟩
      | some found =>
        obtain ⟨payload, rest⟩ := found
        obtain ⟨rfl, _⟩ := wire_of_front hf
        have hframe := List.length_pos_iff.mpr (wire_ne_nil payload)
        rw [List.length_append] at hlength
        obtain ⟨payloads, ending, hrest⟩ := ih rest.length (by omega) rest rfl
        exact ⟨_, _, .frame hf hrest⟩

theorem Reads.of_violated (h : Reads maxSize room bytes payloads ending)
    (hf : front maxSize room bytes = .error reason) :
    payloads = [] ∧ ending = .error (.protocol reason) := by
  cases h with
  | complete => cases hf
  | frame hf' _ =>
    rw [hf] at hf'
    cases hf'
  | violated hf' =>
    rw [hf] at hf'
    cases hf'
    exact ⟨rfl, rfl⟩
  | cut _ hf' =>
    rw [hf] at hf'
    cases hf'

theorem Reads.of_frame (h : Reads maxSize room bytes payloads ending)
    (hf : front maxSize room bytes = .ok (some (payload, rest))) :
    ∃ others, payloads = payload :: others ∧ Reads maxSize room rest others ending := by
  cases h with
  | complete => cases hf
  | frame hf' hrest =>
    rw [hf] at hf'
    cases hf'
    exact ⟨_, rfl, hrest⟩
  | violated hf' =>
    rw [hf] at hf'
    cases hf'
  | cut _ hf' =>
    rw [hf] at hf'
    cases hf'

theorem Reads.of_incomplete (h : Reads maxSize room bytes payloads ending)
    (hf : front maxSize room bytes = .ok none) (hsome : bytes ≠ []) :
    payloads = [] ∧ ending = .error (.protocol (cutShort bytes.length)) := by
  cases h with
  | complete => exact absurd rfl hsome
  | frame hf' _ =>
    rw [hf] at hf'
    cases hf'
  | violated hf' =>
    rw [hf] at hf'
    cases hf'
  | cut => exact ⟨rfl, rfl⟩

theorem ending_of_violated (hf : front maxSize room bytes = .error reason) :
    Ending maxSize room bytes (.error (.protocol reason)) := by
  unfold front at hf
  cases hp : Varint.parse bytes with
  | error e =>
    have hmalformed := Varint.malformed_of_parse hp
    subst hmalformed
    simp only [hp] at hf
    cases hf
    exact .malformed fun n hn => Varint.not_prefix_of_parse_error hp hn
  | ok found =>
    cases found with
    | none => simp [hp] at hf
    | some header =>
      have hwritten := (Varint.eq_encode_of_parse hp).1
      have hbound := (Varint.bounds_of_parse hp).2
      have hbytes : bytes = Varint.encode header.size ++ bytes.drop header.length := by
        rw [← hwritten, List.take_append_drop]
      simp only [hp] at hf
      rw [hbytes]
      split at hf
      · rename_i hm
        cases hf
        exact .excessive hbound hm
      rename_i hm
      split at hf
      · rename_i hr
        cases hf
        exact .unfit (by omega) hr
      · split at hf <;> cases hf

/-- A stream that ends where a frame is not complete was cut inside its size or behind that. -/
theorem ending_of_cut (hsome : bytes ≠ []) (hf : front maxSize room bytes = .ok none) :
    Ending maxSize room bytes (.error (.protocol (cutShort bytes.length))) := by
  unfold front at hf
  cases hp : Varint.parse bytes with
  | error e => simp [hp] at hf
  | ok found =>
    cases found with
    | none =>
      obtain ⟨_, n, hn, more, hmore, hencode⟩ := Varint.begun_of_parse hp
      exact .cutHeader hn hsome hmore hencode
    | some header =>
      obtain ⟨hwritten, hlength⟩ := Varint.eq_encode_of_parse hp
      have hbytes : bytes = Varint.encode header.size ++ bytes.drop header.length := by
        rw [← hwritten, List.take_append_drop]
      simp only [hp] at hf
      split at hf
      · cases hf
      split at hf
      · cases hf
      split at hf
      · rename_i hm hr hlong
        have hthere : header.length ≤ bytes.length := by
          rw [← hlength, ← hwritten]
          exact List.length_take_le' _ _
        have htail : (bytes.drop header.length).length < header.size := by
          rw [List.length_drop]
          omega
        have hcut : Ending maxSize room (Varint.encode header.size ++ bytes.drop header.length) _ :=
          .cutPayload (by omega) (by omega) htail
        rw [← hbytes] at hcut
        exact hcut
      · cases hf

/-- A stream that is at hand as a whole is read frame by frame, as far as frames go. -/
theorem Reads.longestFrames (hmax : maxSize ≤ Varint.maxValue)
    (h : Reads maxSize room bytes payloads ending) :
    ∃ rest, LongestFrames maxSize room bytes payloads rest ∧ Ending maxSize room rest ending := by
  -- no other frame begins where the first look finds none
  have hstuck : ∀ {bytes : Bytes}, (∀ found, front maxSize room bytes ≠ .ok (some found)) →
      ∀ others : List Bytes, (∀ d ∈ others, d.length ≤ maxSize ∧ d.length ≤ room) →
        others.flatMap wire <+: bytes → others <+: [] := by
    intro bytes hnone others hfits hothers
    cases others with
    | nil => exact List.nil_prefix
    | cons d others =>
      obtain ⟨tail, rfl⟩ := hothers
      rw [List.flatMap_cons, List.append_assoc] at hnone
      exact absurd (front_wire hmax (hfits d List.mem_cons_self) _) (hnone _)
  induction h with
  | complete =>
    have hframes : LongestFrames maxSize room [] [] [] :=
      ⟨rfl, nofun, hstuck fun found hf => by cases hf⟩
    exact ⟨[], hframes, .complete⟩
  | @violated bytes reason hf =>
    have hframes : LongestFrames maxSize room bytes [] bytes :=
      ⟨rfl, nofun, hstuck fun found hf' => by rw [hf] at hf'; cases hf'⟩
    exact ⟨bytes, hframes, ending_of_violated hf⟩
  | @cut bytes hsome hf =>
    have hframes : LongestFrames maxSize room bytes [] bytes :=
      ⟨rfl, nofun, hstuck fun found hf' => by rw [hf] at hf'; cases hf'⟩
    exact ⟨bytes, hframes, ending_of_cut hsome hf⟩
  | @frame bytes payload behind payloads ending hf _ ih =>
    obtain ⟨rest, ⟨hsplit, hfits, hlongest⟩, hending⟩ := ih
    obtain ⟨rfl, hpayload⟩ := wire_of_front hf
    refine ⟨rest, ⟨?_, ?_, ?_⟩, hending⟩
    · rw [List.flatMap_cons, List.append_assoc, ← hsplit]
    · intro d hd
      rcases List.mem_cons.mp hd with rfl | hd
      · exact hpayload
      · exact hfits d hd
    · intro others hothers hbegin
      cases others with
      | nil => exact List.nil_prefix
      | cons d others =>
        obtain ⟨tail, htail⟩ := hbegin
        rw [List.flatMap_cons, List.append_assoc] at htail
        have hd := front_wire hmax (hothers d List.mem_cons_self) (others.flatMap wire ++ tail)
        rw [htail, hf] at hd
        cases hd
        rw [List.cons_prefix_cons]
        exact ⟨rfl, hlongest others (fun e he => hothers e (List.mem_cons_of_mem _ he))
          ⟨tail, rfl⟩⟩

variable {P W C : Type} [Pipe P W C] {w : W}

/-- Receives come to what the bytes at hand and those still to come are read as, whatever is served
in a part of its own. -/
theorem yields_of_reads (hroom : Varint.maxLength + room ≤ ByteBuffer.maxCapacity)
    {inner : Atomic P} (h : Serves bytes inner w) :
    ∀ {p : Datagram P} {v : View P} {payloads : List Bytes} {ending : PipeResult Unit},
      p.view = v → v.inner = inner → v.broken = false →
      Reads v.maxSize room (v.assembled ++ bytes) payloads ending →
      Yields room p w payloads ending := by
  induction h with
  | @intro bytes inner w hsound hoffers _ _ ihwaits ihgives =>
    intro p v
    -- datagrams at hand are returned first, and each leaves fewer bytes at hand
    induction hlength : v.assembled.length using Nat.strong_induction_on generalizing p v with
    | _ length ih =>
      rintro payloads ending rfl rfl hb hreads
      cases hf : front p.maxSize room p.assembled with
      | error reason =>
        obtain ⟨rfl, rfl⟩ := hreads.of_violated (front_append_of_error hf bytes)
        obtain ⟨p', hr⟩ := recv_violated (w := w) hb hsound hf
        exact yields_of_protocol hr
      | ok found =>
        cases found with
        | some found =>
          obtain ⟨payload, rest⟩ := found
          obtain ⟨others, rfl, hothers⟩ := hreads.of_frame (front_append_of_some hf bytes)
          obtain ⟨p', hr, hview⟩ := recv_found (w := w) hb hsound hf
          have hshorter : rest.length < length := by
            have hbytes := congrArg List.length (wire_of_front hf).1
            have hframe := List.length_pos_iff.mpr (wire_ne_nil payload)
            rw [List.length_append] at hbytes
            change p.assembled.length = length at hlength
            omega
          exact yields_of_data hr (ih _ hshorter rfl hview rfl hb hothers)
        | none =>
          obtain ⟨n, hn, hgathers⟩ := recv_gathers (w := w) hb hsound hroom hf
          obtain ⟨answer, inner, w', hinner, hoffer⟩ := hoffers n hn
          cases hoffer with
          | nothing =>
            obtain ⟨result, p', hr, hgathered⟩ := hgathers hinner nofun
            generalize hview : p'.view = v at hgathered
            cases hgathered
            exact yields_of_wait hr (ihwaits n inner w' hn hinner hview rfl hb hreads)
          | fin =>
            obtain ⟨result, p', hr, hgathered⟩ := hgathers hinner nofun
            rw [List.append_nil] at hreads
            generalize p'.view = v at hgathered
            cases hgathered with
            | ended ha =>
              rw [ha] at hreads
              cases hreads with
              | complete => exact yields_of_fin hr
              | frame hf' _ => cases hf'
              | violated hf' => cases hf'
              | cut hsome _ => exact absurd rfl hsome
            | cut ha =>
              obtain ⟨rfl, rfl⟩ := hreads.of_incomplete hf ha
              exact yields_of_protocol hr
          | @part chunk rest hsome hfits =>
            have hchunk : ∀ c, (Except.ok (Recv.data chunk) : PipeResult Recv) = .ok (.data c) →
                c.length ≤ n := by
              rintro c ⟨⟩
              exact hfits
            obtain ⟨result, p', hr, hgathered⟩ := hgathers hinner hchunk
            rw [← List.append_assoc] at hreads
            generalize hview : p'.view = v at hgathered
            cases hgathered with
            | violated hnow =>
              obtain ⟨rfl, rfl⟩ := hreads.of_violated (front_append_of_error hnow rest)
              exact yields_of_protocol hr
            | incomplete hnow =>
              exact yields_of_wait hr
                (ihgives n chunk rest inner w' hn hinner rfl hview rfl hb hreads)
            | completed hnow =>
              obtain ⟨others, rfl, hothers⟩ := hreads.of_frame (front_append_of_some hnow rest)
              exact yields_of_data hr
                (ihgives n chunk rest inner w' hn hinner rfl hview rfl hb hothers)

/-- A datagram pipe decodes a stream to the datagrams of the longest beginning that consists of
frames, and then to the one ending that the bytes behind it call for, however the stream is served.
The caller's buffer is one that a size header and a datagram of its size find room in together. -/
theorem decodes_alike (hmax : maxSize ≤ Varint.maxValue)
    (hroom : Varint.maxLength + room ≤ ByteBuffer.maxCapacity) (bytes : Bytes) :
    ∃ payloads rest ending, LongestFrames maxSize room bytes payloads rest ∧
      Ending maxSize room rest ending ∧
      ∀ {P W C : Type} [Pipe P W C] {inner : P} {w : W}, Serves bytes inner w →
        ∃ p : Datagram P, wrap inner maxSize = .ok p ∧ Yields room p w payloads ending := by
  obtain ⟨payloads, ending, hreads⟩ := exists_reads maxSize room bytes
  obtain ⟨rest, hframes, hending⟩ := hreads.longestFrames hmax
  refine ⟨payloads, rest, ending, hframes, hending, ?_⟩
  intro P W C _ inner w hserves
  refine ⟨{ inner := { inner }, maxSize }, if_pos hmax, ?_⟩
  have hatomic : Serves bytes ({ inner } : Atomic P) w := Atomic.serves hserves _ rfl
  exact yields_of_reads hroom hatomic rfl rfl rfl hreads

end Datagram

namespace Datagram

/-- Three frames and the beginning of a fourth, cut without regard to where they begin. -/
def choppedStream : Scripted where
  name := "chopped"
  recvs := [.data [5, 104, 101], .block, .data [108, 108, 111, 0, 1], .block, .block,
    .data [7, 130],
    .fin]

def choppedHost : Host Session.Testbed Unit where
  net := {}
  reactor := {}

theorem decodes_alike_chopped :
    16 ≤ Varint.maxValue ∧ Varint.maxLength + 8 ≤ ByteBuffer.maxCapacity ∧
    Serves [5, 104, 101, 108, 108, 111, 0, 1, 7, 130] choppedStream choppedHost ∧
    ∃ p : Datagram Scripted, wrap choppedStream 16 = .ok p ∧
      receiveAll 8 12 p choppedHost = .ok ([[104, 101, 108, 108, 111], [], [7]],
        some (.error (.protocol "connection closed with 1 bytes of an incomplete datagram"))) ∧
      ∃ payloads rest ending,
        LongestFrames 16 8 [5, 104, 101, 108, 108, 111, 0, 1, 7, 130] payloads rest ∧
        Ending 16 8 rest ending ∧ Yields 8 p choppedHost payloads ending := by
  have hmax : 16 ≤ Varint.maxValue := by decide
  have hroom : Varint.maxLength + 8 ≤ ByteBuffer.maxCapacity := by decide
  have hscript : Scripted.Script ([5, 104, 101] ++ ([108, 108, 111, 0, 1] ++ ([7, 130] ++ [])))
      choppedStream.recvs :=
    .data (List.cons_ne_nil _ _) (.block (.data (List.cons_ne_nil _ _) (.block (.block
      (.data (List.cons_ne_nil _ _) .fin)))))
  have hserves : Serves [5, 104, 101, 108, 108, 111, 0, 1, 7, 130] choppedStream choppedHost :=
    Scripted.serves_of_script hscript rfl rfl
  obtain ⟨payloads, rest, ending, hframes, hending, hall⟩ :=
    decodes_alike hmax hroom [5, 104, 101, 108, 108, 111, 0, 1, 7, 130]
  obtain ⟨p, hp, hyields⟩ := hall hserves
  refine ⟨hmax, hroom, hserves, p, hp, ?_, payloads, rest, ending, hframes, hending, hyields⟩
  cases hp
  decide +kernel

end Datagram

end DuplexRelay
