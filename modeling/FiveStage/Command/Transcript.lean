import FiveStage.Assembly.Basic
import FiveStage.Command.SourceFile
import FiveStage.Config
import FiveStage.Text.Column

/-!
# Transcripts

A command prints items, each followed by a line feed, and may end in an error. An error makes it
exit with status 1.
-/
namespace FiveStage

/-- Why a command fails. -/
inductive CommandError
  | config (error : ConfigError)
  | file (error : FileError)
  /-- A file that was read holds no program. -/
  | rejected (name : String) (error : LoadError)
  /-- A checked file holds no instruction. -/
  | noInstructions (path : String)
  /-- A strict check met lines that hold no instruction. -/
  | skippedLines (count : Nat)
  /-- The menu was started without a terminal. -/
  | noTerminal

def CommandError.message : CommandError → String
  | config error => error.message
  | file error => error.message
  | rejected name error => "Failed to load " ++ name ++ ": " ++ error.message
  | noInstructions path => "No valid instructions in " ++ path
  | skippedLines count => Nat.repr count ++ " line(s) could not be parsed"
  | noTerminal => "IO error: not a terminal"

structure Transcript where
  printed : List String
  error : Option CommandError := none

namespace Transcript

def stdout (t : Transcript) : String := Text.unlines t.printed

def exitStatus (t : Transcript) : Nat := if t.error.isSome then 1 else 0

/-- The last line on standard error. -/
def errorLine (t : Transcript) : Option String :=
  t.error.map fun error => "Error: " ++ error.message

end Transcript

end FiveStage
