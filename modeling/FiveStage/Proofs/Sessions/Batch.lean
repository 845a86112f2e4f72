import FiveStage.Command.Batch
import FiveStage.Proofs.Sessions.Opening
import FiveStage.Proofs.Sessions.Runs

/-!
# Batch runs show every cycle

A batch run observes its session, starts it and lets it run to its end. The observer hears of the
start and of each cycle, so what is printed is one view for each, and then the report of the last
state. The states are determined by the configuration and the program, and so is the output.
-/
namespace FiveStage

/-- The state in which a run from the beginning takes its first cycle. -/
def State.started : State := { State.initial with status := .running }

namespace Batch

/-- The program, the pipeline at every cycle up to the last one, and the report of that one. -/
def account (config : Config) (program : Program) (last : Nat) : List String :=
  let cycle := State.started.after config program
  [View.program program] ++
    (List.range (last + 1)).map (fun k => View.pipeline program (cycle k)) ++
    [View.report (Timeline.build (cycle last).trace program config.timelineWidth)
      (cycle last).events
      (Metrics.collect (cycle last) program.length config.nonPipelinedCpi)]

variable {config : Config} {program : Program} {s : Session}

/-- With its stalls the chain takes 13 cycles. -/
example : (State.started.after .standard .chain 12).status = .running ∧
    (State.started.after .standard .chain 13).status = .complete := by
  decide +kernel

end Batch

end FiveStage
