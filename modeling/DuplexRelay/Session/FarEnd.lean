import DuplexRelay.Socket.Pairs

/-!
# The other party of a connection

A session plays the far end of each connection itself.
-/

namespace DuplexRelay.Session

inductive FarAction where
  | write (data : Bytes)
  | read
  | drain
  | fin
  | close
  | reset
  | fill

structure Received where
  data : Bytes := []
  /-- the near end will send nothing more -/
  ended : Bool := false

def readFar (fd : Fd) (net : SocketPairs) : Received × SocketPairs :=
  let ((data, ended), net) := net.farRead fd
  (⟨data, ended⟩, net)

/-- Does something at the far end of a connection, and tells what was read if that was asked
for. -/
def FarAction.run (fd : Fd) (net : SocketPairs) : FarAction → Option Received × SocketPairs
  | write data => (none, net.update fd (·.farWrite data))
  | read =>
    let (received, net) := readFar fd net
    (some received, net)
  | drain => (none, (readFar fd net).2)
  | fin => (none, net.update fd (·.farFin))
  | close => (none, net.update fd (·.farClose))
  | reset => (none, net.update fd (·.farReset))
  | fill => (none, net.update fd (·.fill))

end DuplexRelay.Session
