import DuplexRelay.Relay.Run
import DuplexRelay.Session.FarEnd

/-!
# Sessions with a whole relay

The far ends of both connections write what they have to say and end their streams. After that the
relay runs undisturbed, and what arrived at the far ends is read.
-/

namespace DuplexRelay.Session.Relay

inductive Ending where
  | fin
  | close
  | reset
  deriving DecidableEq

structure Party where
  fd : Fd
  data : Bytes := []
  ending : Ending := .fin

def Party.play (p : Party) (net : SocketPairs) : SocketPairs :=
  let written := ((FarAction.write p.data).run p.fd net).2
  let last : FarAction := match p.ending with
    | .fin => .fin
    | .close => .close
    | .reset => .reset
  (last.run p.fd written).2

structure Outcome where
  graceful : Bool
  /-- what arrived at the far end of the accepted connection -/
  left : Bytes
  /-- what arrived at the far end of the connection to the target -/
  right : Bytes

def stage (left right : Party) : SocketPairs :=
  let net : SocketPairs := ({} : SocketPairs).connect left.fd |>.connect right.fd
  right.play (left.play net)

/-- A number of passes within which a relay ends: each pass moves a byte at least. -/
def passes (left right : Party) (net : SocketPairs) : Nat :=
  64 + 2 * (Sockets.queued left.fd net + Sockets.queued right.fd net)

/-- Runs a relay over two connections. There is no outcome if it is still at work after all its
passes. -/
def run (c : RelayConfig) (left right : Party) : Checked (Except Failure (Option Outcome)) := do
  let net := stage left right
  let undisturbed := List.replicate (passes left right net) id
  let (result, net) ← DuplexRelay.Relay.run undisturbed c left.fd right.fd net
  return result.map fun ending => ending.map fun graceful =>
    let (atLeft, net) := readFar left.fd net
    let (atRight, _) := readFar right.fd net
    { graceful, left := atLeft.data, right := atRight.data }

end DuplexRelay.Session.Relay
