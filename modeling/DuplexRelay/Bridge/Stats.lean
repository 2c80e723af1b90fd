import DuplexRelay.Pipe.State

/-! # Figures of a bridge -/

namespace DuplexRelay

inductive Side where
  | left
  | right
  deriving DecidableEq

def Side.peer : Side → Side
  | left => right
  | right => left

def Side.letter : Side → String
  | left => "L"
  | right => "R"

/-- What went through one side so far: bytes received from its pipe, and bytes sent into it. The
counters are 64 bits wide in the system that is modelled. Here they are unbounded, so what happens
when one of them overflows is left out. -/
structure Traffic where
  received : Nat := 0
  sent : Nat := 0
  /-- how often the pipe did not take all of a chunk, so that the rest had to be queued -/
  congestions : Nat := 0
  deriving DecidableEq

structure SideStats where
  traffic : Traffic := {}
  state : PipeState := {}
  deriving DecidableEq

def SideStats.text (s : SideStats) : String :=
  s!"[{s.state.letters} {s.traffic.sent} {s.traffic.received} {s.traffic.congestions}]"

structure BridgeStats where
  left : SideStats := {}
  right : SideStats := {}
  deriving DecidableEq

namespace BridgeStats

def side (s : BridgeStats) : Side → SideStats
  | .left => s.left
  | .right => s.right

def text (s : BridgeStats) : String := s!"L {s.left.text}  R {s.right.text}"

/-- The line that a relay reports from time to time: the count of passes, right-aligned, and the
figures. -/
def statusLine (tick : Nat) (s : BridgeStats) : String :=
  let count := toString tick
  String.ofList (List.replicate (6 - count.length) ' ') ++ count ++ " | " ++ s.text

end BridgeStats

end DuplexRelay
