import DuplexRelay.Proofs.Chain.RelayState

/-! What a relay can be held to, told without its bridge: the datagrams that it put on its link and
those that it took from there, and how they compare with what went through its other connection. -/

namespace DuplexRelay

namespace Channel

theorem exists_of_kind_none {c : Channel} (h : c.kind = none) : ∃ p, c = plain p := by
  cases c with
  | plain p => exact ⟨p, rfl⟩
  | framed p => cases h

theorem violated_link (c : Channel) : Relay.violated c.link = c.violated := by
  cases c <;> rfl

theorem flatMap_wire_none (chunks : List Bytes) : chunks.flatMap (wire none) = chunks.flatten := by
  induction chunks with
  | nil => rfl
  | cons chunk rest ih =>
    rw [List.flatMap_cons, List.flatten_cons, ih]
    rfl

section Books

variable {r : Recorded Channel} {t : Track}

/-- What goes through a connection without framing goes through its socket at once. -/
theorem RecordsAgree.plain (hb : RecordsAgree r t) (hk : r.pipe.kind = none) :
    t.sent = r.accepted.flatten ∧ t.got = r.received.flatten ∧ r.pipe.violated = false := by
  have hgiven := hb.given
  have htaken := hb.taken
  rw [hk, flatMap_wire_none] at hgiven htaken
  obtain ⟨p, hp⟩ := exists_of_kind_none hk
  rw [hp] at hgiven htaken ⊢
  exact ⟨(List.append_nil _).symm.trans hgiven, (htaken rfl).trans (List.append_nil _), rfl⟩

/-- What was read of a socket, whether or not the framing was violated by it. -/
theorem RecordsAgree.read (hb : RecordsAgree r t) :
    ∃ rest, t.got = r.received.flatMap (wire r.pipe.kind) ++ rest ∧
      (r.pipe.violated = false → rest = r.pipe.rest) ∧
      (r.pipe.violated = true → ViolatesFraming r.pipe.kind rest t) := by
  cases hv : r.pipe.violated with
  | false => exact ⟨_, hb.taken hv, fun _ => rfl, nofun⟩
  | true =>
    obtain ⟨rest, hrest, hspoiled⟩ := hb.spoiled hv
    exact ⟨rest, hrest, nofun, fun _ => hspoiled⟩

end Books

end Channel

namespace RelayState

open Channel Bridge

variable {l : Layout} {s : RelayState}

/-- The framing of a connection was violated. -/
def Violated (s : RelayState) : Prop := ∃ d, Relay.violated (s.world.bridge.side d).pipe = true

/-- The datagrams of a relay. What is `held` was put on the link and did not go through the socket
yet, and `rest` went through the socket and was not taken as a datagram yet. -/
structure Account (limit : Nat) (s : RelayState) (given taken : List Bytes) (held rest : Bytes) :
    Prop where
  small : ∀ data ∈ given, data.length ≤ limit
  smallTaken : ∀ data ∈ taken, data.length ≤ limit
  sent : s.link.sent ++ held = given.flatMap Datagram.wire
  got : s.link.got = taken.flatMap Datagram.wire ++ rest
  passedIn : given.flatten <+: s.outer.got
  passedOut : s.outer.sent <+: taken.flatten
  linkShut : s.link.shut = true → held = [] ∧ given.flatten = s.outer.got
  outerShut : s.outer.shut = true → s.link.unread = [] ∧ s.link.ended = true ∧ rest = [] ∧
    s.outer.sent = taken.flatten
  violated : s.Violated → ViolatesFraming (some limit) rest s.link

theorem Sound.account (hs : Sound l s) :
    ∃ given taken held rest, Account l.limit s given taken held rest := by
  obtain ⟨r, hr, hinvariant⟩ := hs.invariant
  have hlink := hinvariant.lasting.sides s.linkSide
  have houter := hinvariant.lasting.sides s.linkSide.peer
  have hkindLink : (r.side s.linkSide).pipe.pipe.kind = some l.limit := by
    rw [hlink.kind]
    unfold Layout.kind
    rw [hs.plain, if_neg (Side.ne_peer _)]
  have hkindOuter : (r.side s.linkSide.peer).pipe.pipe.kind = none := by
    rw [houter.kind]
    unfold Layout.kind
    rw [hs.plain, if_pos rfl]
  have hlinkRecords : RecordsAgree (r.side s.linkSide).pipe s.link := by
    have hrecords := hlink.records
    rw [hs.fd] at hrecords
    exact hrecords
  have houterRecords : RecordsAgree (r.side s.linkSide.peer).pipe s.outer := by
    have hrecords := houter.records
    rw [hs.fd] at hrecords
    exact hrecords
  obtain ⟨houterSent, houterGot, hintact⟩ := houterRecords.plain hkindOuter
  obtain ⟨rest, hgot, hwhole, hspoiled⟩ := hlinkRecords.read
  have hgiven := hlinkRecords.given
  have hsmall := hlinkRecords.accepted
  have hsmallTaken := hlinkRecords.received
  rw [hkindLink] at hgot hspoiled hgiven hsmall hsmallTaken
  have hin := hinvariant.lasting.exact.ordered s.linkSide
  have hout := hinvariant.lasting.exact.ordered s.linkSide.peer
  rw [Side.peer_peer] at hout
  refine ⟨(r.side s.linkSide).pipe.accepted, (r.side s.linkSide).pipe.received,
    (r.side s.linkSide).pipe.pipe.held, rest, fun data hd => hsmall data hd _ rfl,
    fun data hd => hsmallTaken data hd _ rfl, hgiven, hgot, ?_, ?_, ?_, ?_, ?_⟩
  · rw [houterGot]
    exact hin
  · rw [houterSent]
    exact hout
  · intro hshut
    refine ⟨hlinkRecords.settled hshut, ?_⟩
    have hpassed :=
      hinvariant.lasting.passed s.linkSide (hlink.closing (by rw [hs.fd]; exact hshut))
    rw [houterGot]
    exact hpassed.all
  · intro hshut
    have hpassed := hinvariant.lasting.passed s.linkSide.peer
      (houter.closing (by rw [hs.fd]; exact hshut))
    have hended := hpassed.ended
    have hunbroken := hpassed.intact
    have hnothing := hpassed.rest
    have hall := hpassed.all
    rw [Side.peer_peer] at hended hunbroken hnothing hall
    obtain ⟨hunread, hend, _⟩ := hlinkRecords.tracked.ended hended
    refine ⟨hunread, hend, (hwhole hunbroken).trans hnothing, ?_⟩
    rw [houterSent]
    exact hall
  · rintro ⟨d, hd⟩
    rw [← hr, side_mapPipes] at hd
    have hd : (r.side d).pipe.pipe.violated = true := (violated_link _).symm.trans hd
    rcases Side.eq_or_eq_peer s.linkSide d with rfl | rfl
    · exact hspoiled hd
    · exact absurd (hintact.symm.trans hd) Bool.false_ne_true

end RelayState

end DuplexRelay
