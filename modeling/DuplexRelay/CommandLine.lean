import DuplexRelay.Relay.Config

/-!
# The command line

Arguments are read from left to right, and the first thing that stops the reading decides: a fault,
or the wish for help. Options take their value from behind an equals sign or from the next
argument, which must not look like an option itself. Everything can be given once at most.
-/

namespace DuplexRelay.CommandLine

inductive Stop where
  | help
  | misuse
  deriving DecidableEq

abbrev Reading := Except Stop

structure Arguments where
  listen : Option String := none
  target : Option String := none
  mode : Option String := none
  recvSize : Option Nat := none
  maxDatagramSize : Option Nat := none
  maxRelayPerEvent : Option Nat := none
  verbose : Bool := false
  veryVerbose : Bool := false
  deriving DecidableEq

/-- A form that an argument can have. -/
inductive Form where
  /-- two dashes, a name, and possibly a value behind an equals sign -/
  | long (name : String) (value : Option String)
  /-- one dash and letters -/
  | short (letters : List Char)
  /-- two dashes: no options follow -/
  | separator
  | value
  deriving DecidableEq

def form (argument : String) : Form :=
  match argument.toList with
  | ['-', '-'] => .separator
  | '-' :: '-' :: rest =>
    let name := rest.takeWhile (· ≠ '=')
    match rest.dropWhile (· ≠ '=') with
    | [] => .long (.ofList name) none
    | _ :: value => .long (.ofList name) (some (.ofList value))
  | '-' :: c :: rest => .short (c :: rest)
  | _ => .value

inductive Setting where
  | listen
  | target
  | mode
  | recvSize
  | maxDatagramSize
  | maxRelayPerEvent
  deriving DecidableEq

def Setting.ofName (name : String) : Option Setting :=
  if name = "listen" then some listen
  else if name = "upstream" then some target
  else if name = "mode" then some mode
  else if name = "recv-size" then some recvSize
  else if name = "max-datagram-size" then some maxDatagramSize
  else if name = "max-relay-per-event" then some maxRelayPerEvent
  else none

inductive Switch where
  | verbose
  | veryVerbose
  | help
  deriving DecidableEq

def Switch.ofName (name : String) : Option Switch :=
  if name = "verbose" then some verbose
  else if name = "very-verbose" then some veryVerbose
  else if name = "help" then some help
  else none

def Switch.ofLetter (c : Char) : Option Switch :=
  if c = 'v' then some verbose else if c = 'h' then some help else none

def size : Scan Nat := do
  (Scan.char '+').orElse ()
  Scan.number 10 none true (RelayConfig.sizeLimit - 1)

inductive Item where
  | setting (s : Setting) (value : String)
  | switch (s : Switch)
  /-- something that is not understood -/
  | fault
  deriving DecidableEq

def Item.ofSwitch : Option Switch → Item
  | some s => switch s
  | none => fault

/-- What the arguments say, up to the first fault of form. -/
def items : List String → List Item
  | [] => []
  | argument :: rest =>
    match form argument with
    | .value => [.fault]
    | .separator => if rest.isEmpty then [] else [.fault]
    | .short letters => letters.map (fun c => .ofSwitch (Switch.ofLetter c)) ++ items rest
    | .long name none =>
      match Setting.ofName name with
      | none => .ofSwitch (Switch.ofName name) :: items rest
      | some s =>
        match rest with
        | [] => [.fault]
        | value :: rest =>
          if form value = .value then .setting s value :: items rest else [.fault]
    | .long name (some value) =>
      match Setting.ofName name with
      | some s => .setting s value :: items rest
      | none => [.fault]

/-- Something that can be given once at most. -/
def once {α : Type} (present : Option α) (given : Option α) : Reading (Option α) :=
  match present, given with
  | none, some a => .ok (some a)
  | _, _ => .error .misuse

namespace Arguments

def set (a : Arguments) (s : Setting) (value : String) : Reading Arguments :=
  match s with
  | .listen => do return { a with listen := ← once a.listen (some value) }
  | .target => do return { a with target := ← once a.target (some value) }
  | .mode => do return { a with mode := ← once a.mode (some value) }
  | .recvSize => do return { a with recvSize := ← once a.recvSize (size.whole value) }
  | .maxDatagramSize => do
    return { a with maxDatagramSize := ← once a.maxDatagramSize (size.whole value) }
  | .maxRelayPerEvent => do
    return { a with maxRelayPerEvent := ← once a.maxRelayPerEvent (size.whole value) }

def take (a : Arguments) : Item → Reading Arguments
  | .setting s value => a.set s value
  | .switch .verbose => if a.verbose then .error .misuse else .ok { a with verbose := true }
  | .switch .veryVerbose =>
    if a.veryVerbose then .error .misuse else .ok { a with veryVerbose := true }
  | .switch .help => .error .help
  | .fault => .error .misuse

def read (arguments : List String) : Reading Arguments := (items arguments).foldlM take {}

/-- The settings that the arguments describe. Sizes are applied in the order in which they depend
on each other. -/
def config (a : Arguments) : Checked (Except ConfigError RelayConfig) := do
  match RelayConfig.parse (a.listen.getD "0.0.0.0:55555") (a.target.getD "127.0.0.1:22")
    (a.mode.getD "plain") with
  | .error e => return .error e
  | .ok c =>
    let c ← match a.recvSize with
      | some recvSize => c.setRecvSize recvSize
      | none => pure c
    let c := { c with
      maxDatagramSize := a.maxDatagramSize.getD c.maxDatagramSize
      maxRelayPerEvent := a.maxRelayPerEvent.getD c.maxRelayPerEvent }
    return c.validate.map fun () => c

end Arguments

inductive Outcome where
  /-- the arguments were not understood, or asked for help -/
  | stopped (s : Stop)
  /-- the settings can not be used -/
  | refused (e : ConfigError)
  /-- the settings can not even be computed -/
  | aborted (v : Violation)
  | accepted (c : RelayConfig)

def outcome (arguments : List String) : Outcome :=
  match Arguments.read arguments with
  | .error s => .stopped s
  | .ok a =>
    match a.config with
    | .error v => .aborted v
    | .ok (.error e) => .refused e
    | .ok (.ok c) => .accepted c

def Stop.exitCode : Stop → Nat
  | help => 0
  | misuse => 2

/-- The exit code for settings that can not be used, and for a relay that fails. -/
def failedExitCode : Nat := 1

def abortedExitCode : Nat := 101

def usage : String :=
  "\n".intercalate [
    "Usage: duplex-relay [OPTIONS]",
    "",
    "Options:",
    "      --listen <ADDRESS>             where to accept the client [default: 0.0.0.0:55555]",
    "      --upstream <ADDRESS>           where to relay to [default: 127.0.0.1:22]",
    "      --mode <MODE>                  plain, client or server [default: plain]",
    "      --recv-size <BYTES>            bytes received at once",
    "      --max-datagram-size <BYTES>    largest datagram of a framed connection",
    "      --max-relay-per-event <BYTES>  bytes relayed before other connections get their turn",
    "  -v, --verbose",
    "      --very-verbose",
    "  -h, --help",
    ""]

/-- The report of a fault that was found after the arguments had been read. -/
def report (message : String) : String := s!"Error: {message}\n"

end DuplexRelay.CommandLine
