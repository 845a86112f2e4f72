import FiveStage.Config
import FiveStage.Isa.Program
import FiveStage.Pipeline.Basic

/-!
# Read-after-write hazards

An instruction that reads a register conflicts with each other one in the pipe that still has to
write it. Slots are scanned in the order given and the first conflict decides: from MEM and WB the
value is forwarded, anywhere else the reader has to wait.
-/
namespace FiveStage

inductive Hazard
  | clear
  /-- The producer's result is taken from this stage. -/
  | forward (producer : InstructionId) (stage : Stage)
  /-- The reader waits so many cycles for the producer. -/
  | stall (producer : InstructionId) (stage : Stage) (cycles : Nat)
  deriving DecidableEq, Repr

namespace Hazard

def needsStall : Hazard → Bool
  | stall .. => true
  | _ => false

def canForward : Hazard → Bool
  | forward .. => true
  | _ => false

def stallCycles? : Hazard → Option Nat
  | stall _ _ cycles => some cycles
  | _ => none

def producer? : Hazard → Option (InstructionId × Stage)
  | clear => none
  | forward producer stage | stall producer stage _ => some (producer, stage)

/-- How a conflict with a producer in the given stage is resolved. -/
def resolve (config : Config) (stage : Stage) (producer : Instruction) : Hazard :=
  if stage.canForward then forward producer.id stage
  else stall producer.id stage (config.stallCycles producer.opcode)

/-- The producer in a slot, if it conflicts with the reader. A slot that is empty, holds the reader
itself or holds a number without an instruction conflicts with nothing. -/
def conflict? (program : Program) (consumer : Instruction) (slot : Slot) : Option Instruction :=
  match slot.instruction with
  | none => none
  | some id =>
    if id = consumer.id then none
    else (program.lookup id).filter fun producer => consumer.dependsOn producer

/-- The hazard of the instruction with the given number among the slots. -/
def detect (config : Config) (program : Program) (consumer : InstructionId)
    (slots : List (Stage × Slot)) : Hazard :=
  match program.lookup consumer with
  | none => clear
  | some reader =>
    (slots.findSome? fun (stage, slot) =>
      (conflict? program reader slot).map (resolve config stage)).getD clear

end Hazard

end FiveStage
