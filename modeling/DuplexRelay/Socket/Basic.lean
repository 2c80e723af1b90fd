import DuplexRelay.Bytes
import DuplexRelay.Reactor.Basic

/-!
# Sockets as a relay sees them

`Sockets N` lists what a pipe asks of the sockets of a network `N`. Nothing is said here about
what the answers are, so whatever is proved of a pipe over an arbitrary `N` holds for all
behaviours of its sockets: short reads, partial sends, refusals and errors in any order.
-/

namespace DuplexRelay

/-- The operations on connected, non-blocking sockets. -/
class Sockets (N : Type) where
  /-- takes up to so many bytes that arrived; none at all mean the end of the stream -/
  read : Fd → Nat → N → Except OsError Bytes × N
  /-- offers bytes to be sent, and tells how many were taken from the front -/
  send : Fd → Bytes → N → Except OsError Nat × N
  shutdown : Fd → N → Except OsError Unit × N
  takeError : Fd → N → Option OsError × N
  close : Fd → N → N
  /-- a bound on the bytes that can be read before more arrive -/
  queued : Fd → N → Nat

/-- Networks that can be asked what their sockets are ready for. -/
class Polls (N : Type) where
  poll : List Fd → N → Except OsError (Fd → SocketEvents)

structure Host (N C : Type) where
  net : N
  reactor : Reactor C

end DuplexRelay
