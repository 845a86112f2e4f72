import FiveStage.Simulator.Basic
import FiveStage.View.Pipeline
import FiveStage.View.Report

/-!
# A simulation, shown

The views of what a simulator holds, and of what it told an observer.
-/
namespace FiveStage.View

variable {σ : Type}

def simulation (s : Simulator σ) : String := pipeline s.program s.state

def notification (n : Notification) : String := pipeline n.program n.state

def simulationReport (s : Simulator σ) : String := report s.timeline s.state.events s.metrics

end FiveStage.View
