import FiveStage.Command.Opening

/-!
# Requests

What a user can ask for. The options set the pace, the stalls and the width of the timeline. The
baseline for the speedup is no option and keeps its standard value.
-/
namespace FiveStage

/-- The part of a configuration that a user can set. -/
structure Options where
  /-- Milliseconds between automatic cycles. -/
  interval : Nat := Config.standard.cycleInterval
  loadStall : Nat := Config.standard.loadStall
  defaultStall : Nat := Config.standard.defaultStall
  timelineWidth : Nat := Config.standard.timelineWidth
  deriving DecidableEq, Repr

def Options.config (o : Options) : Config where
  cycleInterval := o.interval
  loadStall := o.loadStall
  defaultStall := o.defaultStall
  timelineWidth := o.timelineWidth
  nonPipelinedCpi := Config.standard.nonPipelinedCpi

/-- A simulation of a file, or of the demo program if none is named. -/
structure SimulationRequest where
  path : Option String := none
  options : Options := {}
  banner : Bool := true
  batch : Bool := false
  deriving DecidableEq, Repr

/-- The setup for a simulation, with what was read at its path. -/
def SimulationRequest.setup (r : SimulationRequest) (file : Option Reading) : Setup where
  config := r.options.config
  banner := r.banner
  file := file

structure CheckRequest where
  path : String
  /-- Where to write the listing. -/
  output : Option String := none
  strict : Bool := false
  deriving DecidableEq, Repr

inductive Request
  | simulation (request : SimulationRequest)
  | check (request : CheckRequest)
  deriving DecidableEq, Repr

end FiveStage
