/-!
# ASCII case and names

Letter case is folded for the letters A to Z alone. A label is made of ASCII letters, digits and
underscores and does not start with a digit.
-/
namespace FiveStage.Text

/-- Folds `a` to `z` upwards and keeps every other character. -/
def upperCase (cs : List Char) : List Char := cs.map Char.toUpper

def isLabelChar (c : Char) : Bool := c.isAlphanum || c == '_'

def isLabelStart (c : Char) : Bool := c.isAlpha || c == '_'

end FiveStage.Text
