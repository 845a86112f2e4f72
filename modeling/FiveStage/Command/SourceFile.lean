/-!
# Source files

What a command gets for the name of a file: its canonical name and its text, or the reason why it
cannot be read.
-/
namespace FiveStage

inductive FileError
  | missing
  | notDirectory
  | isDirectory
  | nameTooLong
  /-- The bytes of the file are no text. -/
  | notText
  | other (reason : String)
  deriving DecidableEq, Repr

namespace FileError

/-- The words for an error of the system. -/
def systemMessage (reason : String) (code : Nat) : String :=
  reason ++ " (os error " ++ Nat.repr code ++ ")"

def message : FileError → String
  | missing => systemMessage "No such file or directory" 2
  | notDirectory => systemMessage "Not a directory" 20
  | isDirectory => systemMessage "Is a directory" 21
  | nameTooLong => systemMessage "File name too long" 36
  | notText => "stream did not contain valid UTF-8"
  | other reason => reason

end FileError

structure SourceFile where
  /-- The path without detours. -/
  name : String
  text : String
  deriving DecidableEq, Repr

/-- The outcome of reading a file. -/
abbrev Reading := Except FileError SourceFile

end FiveStage
