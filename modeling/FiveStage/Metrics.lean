import FiveStage.State

/-!
# Metrics

The figures of a run. A program without instructions has no cycles per instruction, and a run
without cycles no speedup.
-/
namespace FiveStage

structure Metrics where
  totalCycles : Nat
  instructionCount : Nat
  fetched : Nat
  stallCount : Nat
  hazardCount : Nat
  /-- Cycles per instruction. -/
  cpi : Option Float
  nonPipelinedCpi : Float
  /-- The baseline over the cycles per instruction. -/
  speedup : Option Float

namespace Metrics

/-- The quotient of two counters, each rounded to a double first. -/
def perInstruction (cycles count : Nat) : Option Float :=
  if count = 0 then none else some (Float.ofNat cycles / Float.ofNat count)

def speedupOver (baseline : Float) (cpi : Float) : Option Float :=
  if 0 < cpi then some (baseline / cpi) else none

def collect (s : State) (instructionCount : Nat) (nonPipelinedCpi : Float) : Metrics :=
  let cpi := perInstruction s.cycle instructionCount
  { totalCycles := s.cycle
    instructionCount
    fetched := s.fetched
    stallCount := s.events.countP fun event => event.resolution == .stallInserted
    hazardCount := s.events.length
    cpi
    nonPipelinedCpi
    speedup := cpi.bind (speedupOver nonPipelinedCpi) }

end Metrics

end FiveStage
