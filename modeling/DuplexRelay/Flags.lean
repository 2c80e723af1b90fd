/-!
# Text of flag sets

A flag set is shown by the names of the flags that are set, lowest flag first.
-/

namespace DuplexRelay.Flags

/-- The names of the flags that are set. -/
def names (flags : List (String × Bool)) : List String :=
  (flags.filter (·.2)).map (·.1)

/-- The names joined by bars, without blanks. -/
def compact (flags : List (String × Bool)) : String :=
  "|".intercalate (names flags)

/-- The name of the set's type with the flags in parentheses. A set without flags is shown as the
number zero. -/
def described (kind : String) (flags : List (String × Bool)) : String :=
  match names flags with
  | [] => s!"{kind}(0x0)"
  | set => s!"{kind}(" ++ " | ".intercalate set ++ ")"

end DuplexRelay.Flags
