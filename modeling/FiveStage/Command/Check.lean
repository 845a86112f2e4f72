import FiveStage.Command.Transcript

/-!
# Checking a file

The checker prints a line for each line it skipped and for each instruction it read. Where it
finds no fault it leaves the canonical listing of the program.
-/
namespace FiveStage

structure Check extends Transcript where
  /-- The canonical listing, none if the check failed. -/
  listing : Option String := none

namespace Check

def diagnosticLine (d : Diagnostic) : String :=
  "Line " ++ Nat.repr d.line ++ ": " ++ d.error.message ++ " (`" ++ d.text ++ "`)"

/-- Number, opcode, category and canonical text. -/
def instructionLine (i : Instruction) : String :=
  Text.padEnd 4 (InstructionId.text i.id) ++ " " ++ Text.padEnd 8 i.opcode.name ++ " " ++
    Text.padEnd 7 i.category.text ++ " " ++ i.text

def lines (assembly : Assembly) : List String :=
  assembly.diagnostics.map diagnosticLine ++ assembly.instructions.map instructionLine

/-- There has to be an instruction, and for a strict check nothing else. -/
def fault? (strict : Bool) (path : String) (assembly : Assembly) : Option CommandError :=
  if assembly.instructions.isEmpty then some (.noInstructions path)
  else if strict && !assembly.diagnostics.isEmpty then
    some (.skippedLines assembly.diagnostics.length)
  else none

/-- Checks the text of a file. -/
def ofText (strict : Bool) (path text : String) : Check :=
  let assembly := Assembly.ofText text
  let fault := fault? strict path assembly
  { printed := lines assembly
    error := fault
    listing := if fault.isNone then some assembly.instructions.text else none }

/-- Checks the file that was read at a path. -/
def run (strict : Bool) (path : String) : Reading → Check
  | .error error => { printed := [], error := some (.file error) }
  | .ok file => ofText strict path file.text

end Check

end FiveStage
