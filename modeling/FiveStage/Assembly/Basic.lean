import FiveStage.Assembly.Statement
import FiveStage.Isa.Program

/-!
# Assembly texts

A source text is read line by line. A line yields an instruction, a diagnostic or nothing, and
only an instruction takes a number. A text can be loaded when it yields at least one instruction.
-/
namespace FiveStage

/-- A line that was skipped, counted from 1, with its statement. -/
structure Diagnostic where
  line : Nat
  text : String
  error : LineError
  deriving DecidableEq, Repr

/-- What a source text holds. -/
structure Assembly where
  instructions : Program
  diagnostics : List Diagnostic
  deriving DecidableEq, Repr

/-- Why a source text cannot be loaded. -/
inductive LoadError
  | emptySource
  | noInstructions (skipped : Nat)
  deriving DecidableEq, Repr

def LoadError.message : LoadError → String
  | emptySource => "no source code was given"
  | noInstructions skipped =>
    "no valid instructions could be parsed (" ++ Nat.repr skipped ++ " line(s) skipped)"

namespace Assembly

def empty : Assembly := ⟨[], []⟩

/-- Reads lines, the first of which has this line number and its instruction this number. -/
def readLines (line : Nat) (id : InstructionId) : List (List Char) → Assembly
  | [] => empty
  | text :: rest =>
    let code := statement text
    if code.isEmpty then readLines (line + 1) id rest
    else
      match readStatement id code with
      | .ok instruction =>
        let tail := readLines (line + 1) (id + 1) rest
        { tail with instructions := instruction :: tail.instructions }
      | .error error =>
        let tail := readLines (line + 1) id rest
        { tail with diagnostics := ⟨line, String.ofList code, error⟩ :: tail.diagnostics }

def ofText (source : String) : Assembly := readLines 1 1 (Text.lines source.toList)

/-- The program of a text, or why it has none. -/
def load (source : String) : Except LoadError Program :=
  if (Text.trim source.toList).isEmpty then .error .emptySource
  else
    let assembly := ofText source
    if assembly.instructions.isEmpty then .error (.noInstructions assembly.diagnostics.length)
    else .ok assembly.instructions

theorem load_ne_nil {source : String} {program : Program} (h : load source = .ok program) :
    program ≠ [] := by
  simp only [load] at h
  split at h
  · cases h
  · split at h
    · cases h
    · next hi => cases h; simpa using hi

end Assembly

end FiveStage
