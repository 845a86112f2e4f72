import FiveStage.Assembly.Immediate

/-!
# Prompts

A prompt asks until a line is accepted.
-/
namespace FiveStage.Prompt

/-- The cycles to run when nothing is typed. -/
def defaultCycles : Nat := 5

/-- Counters lie below this bound. -/
def counterBound : Nat := Nat.pow 2 64

/-- A counter: decimal digits, with a plus sign in front of them or not. -/
def counter? (line : List Char) : Option Nat :=
  let digits := match line with
    | '+' :: digits => digits
    | digits => digits
  (Assembly.natural? 10 digits).filter (· < counterBound)

def cycles? (line : String) : Option Nat :=
  if line.isEmpty then some defaultCycles else counter? line.toList

/-- A path is any line but the empty one. -/
def path? (line : String) : Option String := if line.isEmpty then none else some line

/-- The first line that is accepted. -/
def ask {α : Type} (accept : String → Option α) (typed : List String) : Option α :=
  typed.findSome? accept

end FiveStage.Prompt
