/-!
# Scanning text

A scanner takes a value off the front of a text, or fails. A scanner that fails has taken nothing,
so an alternative can be tried at the same place.
-/

namespace DuplexRelay

/-- Takes a value off the front of a text. -/
abbrev Scan := StateT (List Char) Option

namespace Scan

/-- The value of a digit, which is below the radix. -/
def digit? (radix : Nat) (c : Char) : Option Nat :=
  let value :=
    if '0' ≤ c ∧ c ≤ '9' then some (c.toNat - '0'.toNat)
    else if 'a' ≤ c ∧ c ≤ 'z' then some (c.toNat - 'a'.toNat + 10)
    else if 'A' ≤ c ∧ c ≤ 'Z' then some (c.toNat - 'A'.toNat + 10)
    else none
  value.filter (· < radix)

/-- The number that digits stand for, the highest first. -/
def value (radix : Nat) (digits : List Nat) : Nat :=
  digits.foldl (fun n d => n * radix + d) 0

def char (c : Char) : Scan Unit
  | [] => none
  | d :: rest => if d = c then some ((), rest) else none

def digits (radix : Nat) : List Char → List Nat × List Char
  | [] => ([], [])
  | c :: rest =>
    match digit? radix c with
    | some d =>
      let (ds, rest) := digits radix rest
      (d :: ds, rest)
    | none => ([], c :: rest)

/-- A number without sign, up to a limit. All digits that follow each other belong to it, and it
must not have more of them than `maxDigits`. -/
def number (radix : Nat) (maxDigits : Option Nat) (leadingZeros : Bool) (limit : Nat) : Scan Nat :=
  fun s =>
    let (ds, rest) := digits radix s
    if ds.isEmpty then none
    else if maxDigits.any (· < ds.length) then none
    else if !leadingZeros && ds.head? = some 0 && 1 < ds.length then none
    else if limit < value radix ds then none
    else some (value radix ds, rest)

def orElse {α : Type} (default : α) (scan : Scan α) : Scan α := fun s =>
  some ((scan s).getD (default, s))

def whole {α : Type} (scan : Scan α) (text : String) : Option α :=
  match scan text.toList with
  | some (a, []) => some a
  | _ => none

end Scan

end DuplexRelay
