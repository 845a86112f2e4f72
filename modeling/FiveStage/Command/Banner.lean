import FiveStage.Text.Column

/-!
# The banner

The word shown at start-up in block letters, yellow with a blue edge.
-/
namespace FiveStage.Banner

inductive Colour
  | plain | yellow | blue
  deriving DecidableEq, Repr

/-- A run of characters in a colour, as a terminal understands it. -/
def paint : Colour → String → String
  | .plain, s => s
  | .yellow, s => "\x1b[33m" ++ s ++ "\x1b[39m"
  | .blue, s => "\x1b[34m" ++ s ++ "\x1b[39m"

def rows : List (List (Colour × String)) :=
  [[(.plain, " "), (.yellow, "███"), (.blue, "╗"), (.yellow, "   ███"), (.blue, "╗"),
    (.plain, " "), (.yellow, "██"), (.blue, "╗"), (.plain, " "), (.yellow, "██████"),
    (.blue, "╗ "), (.plain, " "), (.yellow, "███████"), (.blue, "╗")],
   [(.plain, " "), (.yellow, "████"), (.blue, "╗"), (.yellow, " ████"), (.blue, "║"),
    (.plain, " "), (.yellow, "██"), (.blue, "║"), (.plain, " "), (.yellow, "██"), (.blue, "╔══"),
    (.yellow, "██"), (.blue, "╗"), (.plain, " "), (.yellow, "██"), (.blue, "╔════╝")],
   [(.plain, " "), (.yellow, "██"), (.blue, "╔"), (.yellow, "████"), (.blue, "╔"), (.yellow, "██"),
    (.blue, "║"), (.plain, " "), (.yellow, "██"), (.blue, "║"), (.plain, " "), (.yellow, "██████"),
    (.blue, "╔╝"), (.plain, " "), (.yellow, "███████"), (.blue, "╗")],
   [(.plain, " "), (.yellow, "██"), (.blue, "║╚"), (.yellow, "██"), (.blue, "╔╝"), (.yellow, "██"),
    (.blue, "║"), (.plain, " "), (.yellow, "██"), (.blue, "║"), (.plain, " "), (.yellow, "██"),
    (.blue, "╔═══╝ "), (.plain, " "), (.blue, "╚════"), (.yellow, "██"), (.blue, "║")],
   [(.plain, " "), (.yellow, "██"), (.blue, "║ ╚═╝"), (.yellow, " ██"), (.blue, "║"),
    (.plain, " "), (.yellow, "██"), (.blue, "║"), (.plain, " "), (.yellow, "██"),
    (.blue, "║     "), (.plain, " "), (.yellow, "███████"), (.blue, "║")],
   [(.plain, " "), (.blue, "╚═╝     ╚═╝"), (.plain, " "), (.blue, "╚═╝"), (.plain, " "),
    (.blue, "╚═╝     "), (.plain, " "), (.blue, "╚══════╝")]]

def row (runs : List (Colour × String)) : String :=
  String.join (runs.map fun run => paint run.1 run.2)

/-- Two empty lines and the rows. -/
def text : String := "\n\n" ++ Text.unlines (rows.map row)

end FiveStage.Banner
