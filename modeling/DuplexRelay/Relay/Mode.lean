import DuplexRelay.Failure

/-!
# Modes of a relay

A relay in client mode and one in server mode, one behind the other, carry a byte stream as
datagrams over the link between them.
-/

namespace DuplexRelay

inductive RelayMode where
  /-- byte streams on both sides -/
  | plain
  /-- the connection to the target is framed -/
  | client
  /-- the accepted connection is framed -/
  | server
  deriving DecidableEq

namespace RelayMode

def framesAccepted (m : RelayMode) : Bool := m = server

def framesTarget (m : RelayMode) : Bool := m = client

def text : RelayMode → String
  | plain => "plain"
  | client => "client"
  | server => "server"

def parse (text : String) : Except ConfigError RelayMode :=
  if text = "plain" then .ok plain
  else if text = "client" then .ok client
  else if text = "server" then .ok server
  else .error (.unknownMode text)

end RelayMode

end DuplexRelay
