import DuplexRelay.Relay.Run

/-!
# A relay from its address to its end

A relay accepts one client, connects to its target, and bridges the two connections. Settings that
can not be used are refused before anything is opened. If the target can not be reached at all,
the relay ends abruptly, which is no failure of the relay.
-/

namespace DuplexRelay

/-- Networks on which connections can be made. -/
class Connections (N : Type) where
  /-- opens a socket that listens on an address, with room for so many waiting clients -/
  listen : SocketAddress → Int → N → Except Failure Fd × N
  accept : Fd → N → Except OsError Fd × N
  /-- opens a socket and starts to connect it; an error may only say that this takes time -/
  connect : SocketAddress → N → (Fd × Option OsError) × N

namespace Relay

variable {N : Type} [Sockets N] [Polls N] [Connections N]

def reach (others : List (N → N)) (c : RelayConfig) (accepted : Fd) (net : N) :
    Checked (Except Failure (Option Bool) × N) :=
  let ((target, error), net) := Connections.connect c.target net
  if error.any (·.fatalForConnect) then
    .ok (.ok (some false), Sockets.close accepted (Sockets.close target net))
  else run others c accepted target net

/-- Serves one client, and tells how its connection ended. -/
def serve (others : List (N → N)) (c : RelayConfig) (net : N) :
    Checked (Except Failure (Option Bool) × N) := do
  match c.validate with
  | .error e => return (.error (.config e), net)
  | .ok () =>
    let (listener, net) := Connections.listen c.listen c.backlog net
    match listener with
    | .error e => return (.error e, net)
    | .ok listener =>
      let (accepted, net) := Connections.accept listener net
      let net := Sockets.close listener net
      match accepted with
      | .error e => return (.error (.socket e), net)
      | .ok accepted => reach others c accepted net

end Relay

end DuplexRelay
