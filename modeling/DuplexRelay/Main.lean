import DuplexRelay.CommandLine
import DuplexRelay.Relay.Offline

/-!
# The program

Reads the command line and starts a relay. There are no sockets in this build, so a relay ends
where it would listen.
-/

/-- Does what the command line says, and gives the exit code. -/
def main (arguments : List String) : IO UInt32 := do
  let err ← IO.getStderr
  match DuplexRelay.CommandLine.outcome arguments with
  | .stopped .help =>
    (← IO.getStdout).putStr DuplexRelay.CommandLine.usage
    return .ofNat DuplexRelay.CommandLine.Stop.help.exitCode
  | .stopped .misuse =>
    err.putStr DuplexRelay.CommandLine.usage
    return .ofNat DuplexRelay.CommandLine.Stop.misuse.exitCode
  | .refused e =>
    err.putStr (DuplexRelay.CommandLine.report e.message)
    return .ofNat DuplexRelay.CommandLine.failedExitCode
  | .aborted v =>
    err.putStr (v.message.getD "")
    return .ofNat DuplexRelay.CommandLine.abortedExitCode
  | .accepted c =>
    match DuplexRelay.Relay.serve [] c DuplexRelay.Offline.mk with
    | .ok (.error e, _) =>
      err.putStr (DuplexRelay.CommandLine.report e.message)
      return .ofNat DuplexRelay.CommandLine.failedExitCode
    | .error v =>
      err.putStr (v.message.getD "")
      return .ofNat DuplexRelay.CommandLine.abortedExitCode
    | _ => return 0
