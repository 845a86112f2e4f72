import FiveStage.Isa.Program
import FiveStage.State

/-!
# Timelines

The grid of instructions by recorded cycles: which stage held the instruction, if any.
-/
namespace FiveStage

structure TimelineRow where
  instruction : InstructionId
  text : String
  /-- The stage in each column. -/
  cells : List (Option Stage)
  deriving DecidableEq, Repr

structure Timeline where
  /-- The cycle of each column. -/
  cycles : List Nat
  rows : List TimelineRow
  deriving DecidableEq, Repr

/-- The grid over the oldest snapshots of a trace, at most so many. -/
def Timeline.build (trace : List Snapshot) (program : Program) (width : Nat) : Timeline :=
  let columns := trace.take width
  { cycles := columns.map (·.cycle)
    rows := program.map fun instruction =>
      { instruction := instruction.id
        text := instruction.sourceOrText
        cells := columns.map fun snapshot => snapshot.pipeline.stageOf? instruction.id } }

end FiveStage
