import DuplexRelay.Text.Hidden
import DuplexRelay.Text.Joining

/-!
# Text in double quotes

A text is quoted so that each of its characters can be told: quotes and backslashes stand behind
a backslash, some control characters have a letter of their own, and characters that can not be
seen by themselves are given by their number in base sixteen.
-/

namespace DuplexRelay.Text

/-- The character can be seen by itself. -/
def isVisible (c : Char) : Bool :=
  if 0x20 ≤ c.toNat ∧ c.toNat ≤ 0x7e then true
  else !hidden.contains c && !joining.contains c

/-- The letter that stands behind a backslash for a character. -/
def letter? (c : Char) : Option Char :=
  match c with
  | '"' => some '"'
  | '\\' => some '\\'
  | '\n' => some 'n'
  | '\r' => some 'r'
  | '\t' => some 't'
  | '\x00' => some '0'
  | _ => none

def escaped (c : Char) : List Char :=
  match letter? c with
  | some letter => ['\\', letter]
  | none =>
    if isVisible c then [c]
    else ['\\', 'u', '\x7b'] ++ Nat.toDigits 16 c.toNat ++ ['\x7d']

def quoted (text : String) : String :=
  .ofList ('"' :: text.toList.flatMap escaped ++ ['"'])

/-- Visible characters stand for themselves unless they have a letter. -/
theorem escaped_of_isVisible {c : Char} (h : letter? c = none) (hc : isVisible c = true) :
    escaped c = [c] := by
  simp [escaped, h, hc]

end DuplexRelay.Text
