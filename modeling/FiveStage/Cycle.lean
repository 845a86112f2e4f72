import FiveStage.Hazard
import FiveStage.State

/-!
# One cycle

Advancing is a function of the configuration, the program and the state. A running stall is served
first and moves nothing. Otherwise the pipe is recorded and shifted, the instruction that came to
ID is checked against the others, and the next one is fetched unless it has to wait.
-/
namespace FiveStage

/-- What an advance did. -/
inductive Outcome
  /-- The state is idle or complete. -/
  | ignored
  /-- A stall cycle was served. -/
  | stalled (remaining : Nat)
  /-- The instructions moved one stage. -/
  | advanced (retired : Option InstructionId) (hazard : Hazard)
  /-- The last instruction left the pipe. -/
  | completed
  deriving DecidableEq, Repr

namespace Pipeline

/-- The hazard of the instruction in ID. -/
def hazard (config : Config) (program : Program) (p : Pipeline) : Hazard :=
  match p.decode.instruction with
  | some consumer => Hazard.detect config program consumer p.slots
  | none => .clear

/-- Marks ID with the hazard found there. -/
def mark (p : Pipeline) : Hazard → Pipeline
  | .stall .. => { p with decode := { p.decode with tag := some .stall, stalled := true } }
  | .forward _ stage => { p with decode := { p.decode with tag := some (.forward stage) } }
  | .clear => p

/-- Puts a fetched instruction, or none, into IF. -/
def fetchNext (p : Pipeline) (id : Option InstructionId) : Pipeline :=
  { p with fetch := { instruction := id } }

end Pipeline

namespace State

/-- Serves one cycle of a running stall. The last one takes the stall marks away. -/
def serveStall (s : State) : Outcome × State :=
  let remaining := s.stallCounter - 1
  (.stalled remaining,
   { s with
     cycle := s.cycle + 1
     stallCounter := remaining
     pipeline := if remaining = 0 then s.pipeline.release else s.pipeline })

/-- The log entries for a hazard of the instruction in ID: one for a stall. -/
def newEvents (cycle : Nat) (consumer : Option InstructionId) : Hazard → List HazardEvent
  | .stall producer _ _ => consumer.toList.map (HazardEvent.stalled cycle producer)
  | _ => []

/-- Everything is fetched and has left the pipe. -/
def isDone (program : Program) (s : State) : Bool :=
  program.length ≤ s.fetched && s.pipeline.isEmpty

/-- Moves every instruction one stage on, up to the decision whether this was the last cycle. -/
def moveOn (config : Config) (program : Program) (s : State) : Hazard × State :=
  let shifted := s.pipeline.shift
  let hazard := shifted.hazard config program
  let fetched :=
    if hazard.needsStall then none else program[s.fetched]?.map (·.id)
  (hazard,
   { s with
     cycle := s.cycle + 1
     fetched := s.fetched + fetched.toList.length
     stallCounter := hazard.stallCycles?.getD s.stallCounter
     pipeline := (shifted.mark hazard).fetchNext fetched
     events := s.events ++ newEvents s.cycle shifted.decode.instruction hazard
     trace := s.trace ++ [s.toSnapshot] })

/-- One cycle of a state that is running or paused, and nothing for any other. -/
def advance (config : Config) (program : Program) (s : State) : Outcome × State :=
  match s.status with
  | .idle | .complete => (.ignored, s)
  | .running | .paused =>
    if 0 < s.stallCounter then s.serveStall
    else
      let (hazard, moved) := s.moveOn config program
      if moved.isDone program then (.completed, (moved.moveTo? .complete).getD moved)
      else (.advanced s.pipeline.writeBack.instruction hazard, moved)

end State

end FiveStage
