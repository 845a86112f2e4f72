import FiveStage.Isa.Program
import FiveStage.State
import FiveStage.Text.Column

/-!
# The pipeline, shown

A line for the counters and a line for each stage. A slot shows its instruction with its tag and
stall mark, and `ERR` where its number stands for no instruction.
-/
namespace FiveStage.View

def slotText (program : Program) (slot : Slot) : String :=
  match slot.instruction with
  | none => ""
  | some id =>
    match program.lookup id with
    | none => "ERR"
    | some instruction =>
      let tag := match slot.tag with
        | some tag => " [" ++ tag.text ++ "]"
        | none => ""
      instruction.label ++ tag ++ if slot.stalled then " (stalled)" else ""

/-- The counters. A running stall shows the cycles left. -/
def headline (program : Program) (s : State) : String :=
  let stalling :=
    if 0 < s.stallCounter then
      " | stalling, " ++ Nat.repr s.stallCounter ++ " cycle(s) left"
    else ""
  "Cycle " ++ Nat.repr s.cycle ++ " | " ++ s.status.text ++ " | " ++ Nat.repr s.fetched ++ " / " ++
    Nat.repr program.length ++ " fetched" ++ stalling

def slotLine (program : Program) (stage : Stage) (slot : Slot) : String :=
  "  " ++ Text.padEnd 4 stage.text ++ "| " ++ slotText program slot

def pipeline (program : Program) (s : State) : String :=
  Text.unlines (headline program s ::
    s.pipeline.slots.map fun (stage, slot) => slotLine program stage slot)

/-- The listing of a program: number, category and source. -/
def programLine (i : Instruction) : String :=
  Text.padEnd 4 (InstructionId.text i.id) ++ " " ++ Text.padEnd 7 i.category.text ++ " " ++
    i.sourceOrText

def program (program : Program) : String := Text.unlines (program.map programLine)

end FiveStage.View
