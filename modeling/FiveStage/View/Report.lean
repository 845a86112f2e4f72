import FiveStage.Decimal.Fixed
import FiveStage.Metrics
import FiveStage.View.Timeline

/-!
# Reports

The hazard log and the figures of a run. Ratios have two decimal places; a dash stands for a ratio
that does not exist.
-/
namespace FiveStage.View

def hazardLine (event : HazardEvent) : String :=
  "Cycle " ++ Text.padStart 3 (Nat.repr event.cycle) ++ "  " ++ event.kind.text ++ "  " ++
    event.description ++ "  (" ++ event.resolution.text ++ ")"

def hazards (events : List HazardEvent) : String :=
  match events with
  | [] => Text.unlines ["No hazards recorded"]
  | events => Text.unlines (events.map hazardLine)

def ratioText (ratio : Option Float) : String :=
  match ratio with
  | some ratio => Decimal.fixed 2 ratio
  | none => "-"

def metrics (m : Metrics) : String :=
  Text.unlines
    ["Total cycles: " ++ Nat.repr m.totalCycles,
     "CPI (pipelined): " ++ ratioText m.cpi,
     "CPI (non-pipelined): " ++ Decimal.fixed 2 m.nonPipelinedCpi,
     "Speedup: " ++ ratioText m.speedup,
     "Stalls: " ++ Nat.repr m.stallCount,
     "Hazards: " ++ Nat.repr m.hazardCount]

/-- Timeline, hazard log and figures, an empty line between them. -/
def report (t : Timeline) (events : List HazardEvent) (m : Metrics) : String :=
  timeline t ++ "\n" ++ hazards events ++ "\n" ++ metrics m

end FiveStage.View
