import DuplexRelay.OsError
import DuplexRelay.Violation

/-!
# Faults that are reported

`ConfigError` is a fault of a configuration or of its text. `Failure` is why something could not
be set up or driven. Both are ordinary results with a wording of their own.
-/

namespace DuplexRelay

inductive ConfigError where
  | addressSyntax
  | unknownMode (text : String)
  | receiveSizeZero
  | budgetBelowReceiveSize (budget receiveSize : Nat)
  | backlogNotPositive
  | pollIntervalZero
  | statusIntervalZero
  | datagramSizeRange (limit : Nat)
  | framedReceiveTooSmall (receiveSize datagramSize : Nat)
  | unframedReceiveTooLarge (receiveSize datagramSize : Nat)
  deriving DecidableEq

def ConfigError.message : ConfigError → String
  | addressSyntax => "invalid socket address syntax"
  | unknownMode text =>
    "unknown relay mode '" ++ text ++ "', expected plain, client or server"
  | receiveSizeZero => "receive sizes must be positive"
  | budgetBelowReceiveSize budget receiveSize =>
    s!"relay budget per event ({budget}) must be at least the larger receive size ({receiveSize})"
  | backlogNotPositive => "listen backlog must be positive"
  | pollIntervalZero => "poll interval must be positive"
  | statusIntervalZero => "status interval must be positive"
  | datagramSizeRange limit => s!"maximum datagram size must be between 1 and {limit}"
  | framedReceiveTooSmall receiveSize datagramSize =>
    s!"receive size of the framed connection ({receiveSize}) is smaller than the maximum " ++
      s!"datagram size ({datagramSize})"
  | unframedReceiveTooLarge receiveSize datagramSize =>
    s!"receive size of the unframed connection ({receiveSize}) exceeds the maximum " ++
      s!"datagram size ({datagramSize})"

/-- Why something could not be set up or driven. -/
inductive Failure where
  | reactorDiscarded
  | descriptorOutOfRange (fd : Fd)
  | selectFailed (e : OsError)
  | scriptedInit (name : String)
  | config (e : ConfigError)
  /-- an address could not be listened on -/
  | binding (address : String)
  | socket (e : OsError)
  deriving DecidableEq

def Failure.message : Failure → String
  | reactorDiscarded => "reactor was discarded"
  | descriptorOutOfRange fd => s!"descriptor {fd} is out of range for select()"
  | selectFailed e => s!"select() failed: {e.message}"
  | scriptedInit name => s!"scripted init failure on {name}"
  | config e => e.message
  | binding address => s!"binding to {address}"
  | socket e => e.message

end DuplexRelay
