import FiveStage.Isa.Instruction
import FiveStage.Pipeline.Stage

/-!
# The pipeline

Five slots, one for each stage. A shift moves every instruction and its tag one stage on, so the
instructions in flight lose just the oldest when it leaves the last stage: `inFlight_shift`. The
mark of a stalled slot belongs to the stage and stays where it is.
-/
namespace FiveStage

structure Slot where
  instruction : Option InstructionId := none
  tag : Option Tag := none
  stalled : Bool := false
  deriving DecidableEq, Repr

namespace Slot

def isEmpty (slot : Slot) : Bool := slot.instruction.isNone

/-- The slot with what another one holds. -/
def receive (slot source : Slot) : Slot :=
  { slot with instruction := source.instruction, tag := source.tag }

end Slot

structure Pipeline where
  fetch : Slot := {}
  decode : Slot := {}
  execute : Slot := {}
  memory : Slot := {}
  writeBack : Slot := {}
  deriving DecidableEq, Repr

namespace Pipeline

/-- The slots with their stages, from IF to WB. -/
def slots (p : Pipeline) : List (Stage × Slot) :=
  [(.fetch, p.fetch), (.decode, p.decode), (.execute, p.execute), (.memory, p.memory),
   (.writeBack, p.writeBack)]

def slot (p : Pipeline) : Stage → Slot
  | .fetch => p.fetch
  | .decode => p.decode
  | .execute => p.execute
  | .memory => p.memory
  | .writeBack => p.writeBack

def setSlot (p : Pipeline) (stage : Stage) (slot : Slot) : Pipeline :=
  match stage with
  | .fetch => { p with fetch := slot }
  | .decode => { p with decode := slot }
  | .execute => { p with execute := slot }
  | .memory => { p with memory := slot }
  | .writeBack => { p with writeBack := slot }

def isEmpty (p : Pipeline) : Bool := p.slots.all fun entry => entry.2.isEmpty

/-- The first stage from IF on that holds the instruction. -/
def stageOf? (p : Pipeline) (id : InstructionId) : Option Stage :=
  (p.slots.find? fun entry => entry.2.instruction == some id).map (·.1)

/-- The instructions in the pipe, the oldest first. -/
def inFlight (p : Pipeline) : List InstructionId :=
  [p.writeBack, p.memory, p.execute, p.decode, p.fetch].filterMap (·.instruction)

/-- Moves every instruction one stage on. The one in WB leaves and IF is left empty. -/
def shift (p : Pipeline) : Pipeline where
  fetch := p.fetch.receive {}
  decode := p.decode.receive p.fetch
  execute := p.execute.receive p.decode
  memory := p.memory.receive p.execute
  writeBack := p.writeBack.receive p.memory

/-- Takes the stall marks from all stages. -/
def release (p : Pipeline) : Pipeline where
  fetch := { p.fetch with stalled := false }
  decode := { p.decode with stalled := false }
  execute := { p.execute with stalled := false }
  memory := { p.memory with stalled := false }
  writeBack := { p.writeBack with stalled := false }

theorem inFlight_shift (p : Pipeline) :
    p.inFlight = p.writeBack.instruction.toList ++ p.shift.inFlight := by
  cases h : p.writeBack.instruction <;> simp [inFlight, shift, Slot.receive, List.filterMap_cons, h]

theorem inFlight_eq_nil_iff (p : Pipeline) : p.inFlight = [] ↔ p.isEmpty = true := by
  simp [inFlight, isEmpty, slots, Slot.isEmpty, List.filterMap_eq_nil_iff]
  grind

end Pipeline

end FiveStage
