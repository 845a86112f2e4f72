/-!
# Columns

Texts padded with blanks to a width counted in characters, and lines closed by a line feed.
Padding never cuts: a text that is too long stays as it is.
-/
namespace FiveStage.Text

def blanks (n : Nat) : String := String.ofList (List.replicate n ' ')

/-- The text at the left of a column. -/
def padEnd (width : Nat) (s : String) : String := s ++ blanks (width - s.length)

/-- The text at the right of a column. -/
def padStart (width : Nat) (s : String) : String := blanks (width - s.length) ++ s

/-- The first characters of a text, at most so many. -/
def cut (width : Nat) (s : String) : String := String.ofList (s.toList.take width)

/-- Every line is followed by a line feed. -/
def unlines (lines : List String) : String := String.join (lines.map fun line => line ++ "\n")

theorem length_padEnd (width : Nat) (s : String) :
    (padEnd width s).length = max width s.length := by
  simp only [padEnd, blanks, String.length_append, String.length_ofList, List.length_replicate]
  omega

theorem length_cut_le (width : Nat) (s : String) : (cut width s).length ≤ width := by
  simp only [cut, String.length_ofList, List.length_take]
  omega

theorem unlines_cons (line : String) (rest : List String) :
    unlines (line :: rest) = line ++ "\n" ++ unlines rest := by
  simp [unlines, String.join_cons]

end FiveStage.Text
