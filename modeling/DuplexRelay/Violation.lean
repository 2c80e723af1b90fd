/-!
# Violated contracts

Some calls are never right, whatever the network does: sending after the end of the stream was
announced, say. They end the run at once. All other faults are ordinary results.
-/

namespace DuplexRelay

abbrev Fd := Int

/-- A call that its callee's contract forbids. -/
inductive Violation where
  | bufferBounds
  | capacityExceeded
  | sizeOverflow
  /-- a receive for a pipe that has bytes of a previous one queued -/
  | queuePassedOver
  /-- a report due every so many passes, where that number is zero -/
  | reportIntervalZero
  /-- more receives succeeded than the transport had announced -/
  | backlogExceeded
  | tcpInitializedTwice
  | tcpSendAfterFin (fd : Fd)
  | tcpFinTwice (fd : Fd)
  | atomicSendAfterFin
  | atomicFinTwice
  | datagramLimit (size : Nat)
  | bridgeInitializedTwice
  | registeredAlready (fd : Fd)
  | notRegistered (fd : Fd)
  | discardedTwice
  | nestedMonitor
  | scriptedSendAfterFin
  | scriptedFinTwice
  | memoryAfterFin
  deriving DecidableEq

/-- The wording of a violation. Violated bounds and conditions have none. -/
def Violation.message : Violation → Option String
  | bufferBounds => none
  | capacityExceeded => none
  | sizeOverflow => none
  | queuePassedOver => none
  | reportIntervalZero => none
  | backlogExceeded => none
  | tcpInitializedTwice => some "TCP pipe was initialized twice"
  | tcpSendAfterFin fd => some s!"send() on TCP pipe {fd} after FIN"
  | tcpFinTwice fd => some s!"FIN on TCP pipe {fd} sent twice"
  | atomicSendAfterFin => some "send() on atomic pipe after FIN"
  | atomicFinTwice => some "FIN on atomic pipe requested twice"
  | datagramLimit size => some s!"maximum datagram size {size} exceeds the framing limit"
  | bridgeInitializedTwice => some "bridge was initialized twice"
  | registeredAlready fd => some s!"descriptor {fd} is registered already"
  | notRegistered fd => some s!"modifying descriptor {fd} which is not registered"
  | discardedTwice => some "reactor was discarded twice"
  | nestedMonitor => some "monitor() must not be called from a reactor callback"
  | scriptedSendAfterFin => some "send() on scripted pipe after FIN"
  | scriptedFinTwice => some "FIN on scripted pipe sent twice"
  | memoryAfterFin => none

abbrev Checked := Except Violation

end DuplexRelay
