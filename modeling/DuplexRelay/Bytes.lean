/-!
# Byte strings

Everything that a relay moves is a finite string of bytes. Lists are used throughout, so that the
stream of a direction is plain concatenation.
-/

namespace DuplexRelay

/-- A finite string of bytes. -/
abbrev Bytes := List UInt8

end DuplexRelay
