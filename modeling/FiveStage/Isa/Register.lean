import FiveStage.Text.Ascii
import FiveStage.Text.Blank

/-!
# Registers

Registers are told apart by a normal form of their names: trimmed, without one leading dollar
sign, in capitals. So `$v0` and `V0` are one register.
-/
namespace FiveStage

structure Register where
  name : String
  deriving DecidableEq, Repr

namespace Register

def dropDollar : List Char → List Char
  | '$' :: cs => cs
  | cs => cs

/-- The register that a written name stands for. -/
def ofChars (cs : List Char) : Register :=
  ⟨String.ofList (Text.upperCase (dropDollar (Text.trim cs)))⟩

def ofText (s : String) : Register := ofChars s.toList

end Register

end FiveStage
