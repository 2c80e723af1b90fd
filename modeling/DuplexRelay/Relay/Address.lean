import DuplexRelay.Scan

/-!
# Socket addresses

A version 4 address is four decimal numbers joined by dots. A version 6 address is eight
hexadecimal groups joined by colons, and stands in brackets. Two adjacent colons stand for one or
more zero groups, and the last two groups may be given as a version 4 address. The number of a
service on that host follows behind a further colon.
-/

namespace DuplexRelay

structure IPv4 where
  a : UInt8
  b : UInt8
  c : UInt8
  d : UInt8
  deriving DecidableEq

structure IPv6 where
  groups : Vector UInt16 8
  deriving DecidableEq

/-- A service on a host. -/
inductive SocketAddress where
  | v4 (ip : IPv4) (service : UInt16)
  /-- a scope other than zero tells on which link the address is meant -/
  | v6 (ip : IPv6) (scope : UInt32) (service : UInt16)
  deriving DecidableEq

namespace IPv4

def text (ip : IPv4) : String := s!"{ip.a}.{ip.b}.{ip.c}.{ip.d}"

/-- One of the four numbers. A leading zero is refused, since it might be meant as octal. -/
def octet : Scan UInt8 := do return .ofNat (← Scan.number 10 (some 3) false 255)

def scan : Scan IPv4 := do
  let a ← octet
  Scan.char '.'
  let b ← octet
  Scan.char '.'
  let c ← octet
  Scan.char '.'
  let d ← octet
  return { a, b, c, d }

/-- The address as the last two groups of a version 6 address. -/
def groups (ip : IPv4) : List UInt16 :=
  [ip.a.toUInt16 * 256 + ip.b.toUInt16, ip.c.toUInt16 * 256 + ip.d.toUInt16]

/-- The address that two groups stand for. -/
def ofGroups (high low : UInt16) : IPv4 where
  a := (high / 256).toUInt8
  b := high.toUInt8
  c := (low / 256).toUInt8
  d := low.toUInt8

end IPv4

namespace IPv6

/-- Zero groups between what stands before and behind two adjacent colons. -/
def ofEnds (head tail : List UInt16) : Option IPv6 :=
  let all := head ++ List.replicate (8 - head.length - tail.length) 0 ++ tail
  if h : all.length = 8 then some ⟨⟨all.toArray, by simpa using h⟩⟩ else none

def group : Scan UInt16 := do return .ofNat (← Scan.number 16 (some 4) true 65535)

/-- Something behind a colon, except at the very beginning. -/
def behindColon {α : Type} (first : Bool) (scan : Scan α) : Scan α := do
  if !first then Scan.char ':'
  scan

/-- Up to `room` groups joined by colons. A version 4 address in place of two groups ends them.
Tells whether there was one. -/
def groupsUpTo (first : Bool) : (room : Nat) → List Char → (List UInt16 × Bool) × List Char
  | 0, s => (([], false), s)
  | room + 1, s =>
    match if room = 0 then none else behindColon first IPv4.scan s with
    | some (ip, s) => ((ip.groups, true), s)
    | none =>
      match behindColon first group s with
      | none => (([], false), s)
      | some (g, s) =>
        let ((gs, embedded), s) := groupsUpTo false room s
        ((g :: gs, embedded), s)

def scan : Scan IPv6 := do
  let (head, embedded) ← fun s => some (groupsUpTo true 8 s)
  if head.length = 8 then
    StateT.lift (ofEnds head [])
  else if embedded then
    failure
  else
    Scan.char ':'
    Scan.char ':'
    let (tail, _) ← fun s => some (groupsUpTo true (7 - head.length) s)
    StateT.lift (ofEnds head tail)

/-- The version 4 address that an address stands for. -/
def mapped? (ip : IPv6) : Option IPv4 :=
  match ip.groups.toList with
  | [0, 0, 0, 0, 0, 0xffff, high, low] => some (.ofGroups high low)
  | _ => none

def zerosAhead (groups : List UInt16) : Nat := (groups.takeWhile (· = 0)).length

/-- Where the first of the longest runs of zeros starts, and its length. -/
def longestZeros (groups : List UInt16) : Nat × Nat :=
  (List.range groups.length).foldl
    (fun best start =>
      let length := zerosAhead (groups.drop start)
      if best.2 < length then (start, length) else best)
    (0, 0)

def joined (groups : List UInt16) : String :=
  ":".intercalate (groups.map fun g => String.ofList (Nat.toDigits 16 g.toNat))

/-- The text of an address. The longest run of two or more zero groups is left out. -/
def text (ip : IPv6) : String :=
  match ip.mapped? with
  | some v4 => "::ffff:" ++ v4.text
  | none =>
    let groups := ip.groups.toList
    let (start, length) := longestZeros groups
    if 1 < length then joined (groups.take start) ++ "::" ++ joined (groups.drop (start + length))
    else joined groups

end IPv6

namespace SocketAddress

def text : SocketAddress → String
  | v4 ip service => s!"{ip.text}:{service}"
  | v6 ip scope service =>
    if scope = 0 then s!"[{ip.text}]:{service}" else s!"[{ip.text}%{scope}]:{service}"

def service : Scan UInt16 := do
  Scan.char ':'
  return .ofNat (← Scan.number 10 none true 65535)

def scope : Scan UInt32 := do
  Scan.char '%'
  return .ofNat (← Scan.number 10 none true 4294967295)

def scanV4 : Scan SocketAddress := do
  let ip ← IPv4.scan
  return .v4 ip (← service)

def scanV6 : Scan SocketAddress := do
  Scan.char '['
  let ip ← IPv6.scan
  let scope ← scope.orElse 0
  Scan.char ']'
  return .v6 ip scope (← service)

def parse (text : String) : Option SocketAddress :=
  (scanV4.whole text).or (scanV6.whole text)

end SocketAddress

end DuplexRelay
