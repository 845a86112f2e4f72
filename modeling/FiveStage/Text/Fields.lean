import FiveStage.Text.Blank

/-!
# Fields

A text cut at separators. `pieces` keeps the empty pieces, so that it loses nothing but the
separators. `fields` keeps the others. Both treat a longer text piece by piece:
`pieces_append_cons` and `fields_append_cons`.
-/
namespace FiveStage.Text

/-- The pieces of a text between separators, empty ones included. -/
def pieces (sep : Char → Bool) : List Char → List (List Char)
  | [] => [[]]
  | c :: cs => if sep c then [] :: pieces sep cs else (pieces sep cs).modifyHead (c :: ·)

/-- The maximal runs without a separator. -/
def fields (sep : Char → Bool) (cs : List Char) : List (List Char) :=
  (pieces sep cs).filter fun piece => !piece.isEmpty

def isLineFeed (c : Char) : Bool := c == '\n'

/-- The lines of a text. A line feed at the very end opens one more, empty line. -/
def lines (cs : List Char) : List (List Char) := pieces isLineFeed cs

/-- The runs of characters between blanks. -/
def words (cs : List Char) : List (List Char) := fields isBlank cs

theorem pieces_ne_nil (sep : Char → Bool) (cs : List Char) : pieces sep cs ≠ [] := by
  induction cs with
  | nil => simp [pieces]
  | cons c cs ih =>
    rw [pieces]
    split
    · simp
    · cases h : pieces sep cs with
      | nil => exact absurd h ih
      | cons _ _ => simp

theorem pieces_append_cons {sep : Char → Bool} {c : Char} (hc : sep c = true)
    (as bs : List Char) : pieces sep (as ++ c :: bs) = pieces sep as ++ pieces sep bs := by
  induction as with
  | nil => simp [pieces, hc]
  | cons a as ih =>
    rw [List.cons_append, pieces, pieces, ih]
    split
    · rfl
    · cases h : pieces sep as with
      | nil => exact absurd h (pieces_ne_nil sep as)
      | cons _ _ => rfl

theorem fields_append_cons {sep : Char → Bool} {c : Char} (hc : sep c = true)
    (as bs : List Char) : fields sep (as ++ c :: bs) = fields sep as ++ fields sep bs := by
  rw [fields, pieces_append_cons hc, List.filter_append, fields, fields]

end FiveStage.Text
