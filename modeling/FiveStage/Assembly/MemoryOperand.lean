import FiveStage.Assembly.Immediate
import FiveStage.Isa.Register
import FiveStage.Text.Fields

/-!
# Memory operands

The address of a load or store: `offset(base)` with blanks anywhere, or the two words
`offset base`, or an offset alone. An offset that is missing or no immediate is zero.
-/
namespace FiveStage

structure MemoryOperand where
  offset : Int
  base : Option Register
  deriving DecidableEq, Repr

namespace MemoryOperand

def isParen (c : Char) : Bool := c == '(' || c == ')'

def offsetOrZero (token : List Char) : Int := (Assembly.immediate? token).getD 0

/-- Splits `offset(base)`, the offset possibly empty and the base not. -/
def enclosed? (cs : List Char) : Option (List Char × List Char) :=
  match cs.dropWhile fun c => !isParen c with
  | '(' :: rest =>
    let base := rest.takeWhile fun c => !isParen c
    let close := rest.dropWhile fun c => !isParen c
    if !base.isEmpty && close == [')'] then some (cs.takeWhile fun c => !isParen c, base) else none
  | _ => none

def ofChars (cs : List Char) : MemoryOperand :=
  let compact := Text.squeeze cs
  match enclosed? compact, Text.words cs with
  | some (offset, base), _ => ⟨offsetOrZero offset, some (Register.ofChars base)⟩
  | none, offset :: base :: _ => ⟨offsetOrZero offset, some (Register.ofChars base)⟩
  | none, _ => ⟨offsetOrZero compact, none⟩

def ofText (s : String) : MemoryOperand := ofChars s.toList

end MemoryOperand

end FiveStage
