import FiveStage.Text.Column
import FiveStage.Timeline

/-!
# The timeline, shown

A label column and a narrow column for each cycle. Labels are cut to leave a blank at their end,
so every row has the same width.
-/
namespace FiveStage.View

def labelWidth : Nat := 24

def cellWidth : Nat := 5

def timelineHeader (cycles : List Nat) : String :=
  Text.padEnd labelWidth "Instruction" ++
    String.join (cycles.map fun cycle => Text.padEnd cellWidth ("C" ++ Nat.repr cycle))

def cellText (cell : Option Stage) : String :=
  match cell with
  | some stage => stage.text
  | none => ""

def timelineRow (row : TimelineRow) : String :=
  Text.padEnd labelWidth
      (Text.cut (labelWidth - 1) (InstructionId.text row.instruction ++ " " ++ row.text)) ++
    String.join (row.cells.map fun cell => Text.padEnd cellWidth (cellText cell))

def timeline (t : Timeline) : String :=
  Text.unlines (timelineHeader t.cycles :: t.rows.map timelineRow)

end FiveStage.View
