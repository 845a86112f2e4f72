import FiveStage.Command.Opening
import FiveStage.View.Simulation

/-!
# Batch runs

A batch run prints the program, then the pipeline at every change up to the last cycle, then the
report.
-/
namespace FiveStage.Batch

/-- The session after an observed run of its program. -/
def finished (s : Session) : Session := (s.observe.start.2.run none).2

def ofSession (s : Session) : Transcript :=
  let last := (finished s).simulator
  { printed :=
      [View.program s.simulator.program] ++ last.log.map View.notification ++
        [View.simulationReport last] }

def run (setup : Setup) (timing : Timing) : Transcript := setup.transcript timing ofSession

end FiveStage.Batch
