import DuplexRelay.OsError

/-!
# Errors of pipe operations

`wouldBlock` is the only error that leaves a pipe usable.
-/

namespace DuplexRelay

inductive PipeError where
  /-- nothing can be done right now -/
  | wouldBlock
  | io (e : OsError)
  /-- the other end violated the framing -/
  | protocol (reason : String)
  /-- the pipe was broken before -/
  | broken
  deriving DecidableEq

namespace PipeError

def message : PipeError → String
  | wouldBlock => "operation would block"
  | io e => s!"I/O error: {e.message}"
  | protocol reason => s!"protocol violation: {reason}"
  | broken => "pipe is broken"

def isFatal : PipeError → Bool
  | wouldBlock => false
  | _ => true

end PipeError

abbrev PipeResult := Except PipeError

end DuplexRelay
