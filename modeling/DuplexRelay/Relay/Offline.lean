import DuplexRelay.Relay.Serve

/-!
# Hosts without a network

Nothing can be opened, so no descriptor is ever in use.
-/

namespace DuplexRelay

/-- A host without a network. -/
structure Offline where
  deriving DecidableEq

namespace Offline

instance : Sockets Offline where
  read _ _ net := (.error (.number OsError.ebadf), net)
  send _ _ net := (.error (.number OsError.ebadf), net)
  shutdown _ net := (.error (.number OsError.ebadf), net)
  takeError _ net := (none, net)
  close _ net := net
  queued _ _ := 0

instance : Polls Offline where
  poll fds _ := if fds.isEmpty then .ok fun _ => .none else .error (.number OsError.ebadf)

instance : Connections Offline where
  listen address _ net := (.error (.binding address.text), net)
  accept _ net := (.error (.number OsError.ebadf), net)
  connect _ net := ((-1, some (.number OsError.enetdown)), net)

/-- Without a network no client is ever served. -/
theorem serve_ne_ok (others : List (Offline → Offline)) (c : RelayConfig) (b : Option Bool) :
    (Relay.serve others c ⟨⟩).map (·.1) ≠ .ok (.ok b) := by
  simp only [Relay.serve]
  cases c.validate <;> simp [Except.map, pure, Except.pure, Connections.listen]

end Offline

end DuplexRelay
