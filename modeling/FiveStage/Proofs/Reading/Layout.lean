import FiveStage.Proofs.Reading.Cleaning
import FiveStage.Proofs.Reading.Extras
import FiveStage.Proofs.Reading.Lines

/-!
# The layout of a text

What a text holds depends on its statements alone, but for the numbers of the lines that
diagnostics give. So the layout may be changed line by line in every way that keeps the statements:
lines closed by a carriage return and a line feed, blanks at the ends of a line, a comment behind
it, a label in front of a line that has none, and lines without a statement anywhere.
-/
namespace FiveStage

open Text (Free)

/-- A diagnostic without the number of its line. -/
def Diagnostic.fault (d : Diagnostic) : String × LineError := (d.text, d.error)

namespace Assembly

/-- The statements of lines, without the lines that hold none. -/
def statements (texts : List (List Char)) : List (List Char) :=
  (texts.map statement).filter fun code => !code.isEmpty

/-- The instructions that statements hold, not numbered yet. -/
def decoded (codes : List (List Char)) : List Instruction :=
  codes.filterMap fun code => (readStatement 0 code).toOption

/-- Instructions with numbers that count on from the first one. -/
def numberedFrom (id : InstructionId) (instructions : List Instruction) : Program :=
  (instructions.zipIdx id).map fun placed => placed.1.numbered placed.2

/-- What is wrong with a statement, if anything is. -/
def fault? (code : List Char) : Option (String × LineError) :=
  match readStatement 0 code with
  | .ok _ => none
  | .error error => some (String.ofList code, error)

theorem statements_append (above below : List (List Char)) :
    statements (above ++ below) = statements above ++ statements below := by
  rw [statements, List.map_append, List.filter_append, statements, statements]

section Statements

variable {line : List Char}

theorem statements_cons_of_none (h : statement line = []) (rest : List (List Char)) :
    statements (line :: rest) = statements rest := by
  rw [statements, List.map_cons, h]
  rfl

theorem statements_cons_of_some (h : statement line ≠ []) (rest : List (List Char)) :
    statements (line :: rest) = statement line :: statements rest :=
  List.filter_cons_of_pos (by simpa using h)

end Statements

/-- The instructions of lines are those of their statements, counted on from the first number. -/
theorem instructions_readLines (line : Nat) (id : InstructionId) (texts : List (List Char)) :
    (readLines line id texts).instructions = numberedFrom id (decoded (statements texts)) := by
  have hread : texts.filterMap instruction? = decoded (statements texts) := by
    induction texts with
    | nil => rfl
    | cons text rest ih =>
      rw [List.filterMap_cons, instruction?]
      by_cases h : statement text = []
      · rw [reading?_of_none h, statements_cons_of_none h]
        exact ih
      · rw [reading?_of_some h, statements_cons_of_some h, decoded, List.filterMap_cons, ih]
        rfl
  rw [readLines_eq, hread, numberedFrom]

/-- The diagnostics of lines are the faults of their statements. -/
theorem faults_readLines (line : Nat) (id : InstructionId) (texts : List (List Char)) :
    (readLines line id texts).diagnostics.map Diagnostic.fault =
      (statements texts).filterMap fault? := by
  induction texts generalizing line id with
  | nil => rfl
  | cons text rest ih =>
    rw [readLines_cons]
    by_cases h : statement text = []
    · rw [reading?_of_none h, statements_cons_of_none h]
      exact ih (line + 1) id
    · rw [reading?_of_some h, statements_cons_of_some h, List.filterMap_cons, fault?]
      cases readStatement 0 (statement text) with
      | ok i => exact ih (line + 1) (id + 1)
      | error e => exact congrArg (_ :: ·) (ih (line + 1) id)

/-- Texts with the same statements hold the same, but for the numbers of lines. -/
theorem ofText_congr {source source' : String}
    (h : statements (Text.lines source'.toList) = statements (Text.lines source.toList)) :
    (ofText source').instructions = (ofText source).instructions ∧
      (ofText source').diagnostics.map Diagnostic.fault =
        (ofText source).diagnostics.map Diagnostic.fault := by
  simp only [ofText, instructions_readLines, faults_readLines, h, and_self]

section Lines

variable {line front back name : List Char}

theorem marker_of_blank {c : Char} (h : Text.isBlank c = true) : isMarker c = false :=
  marker_of_gap (by rw [isGap, h, Bool.true_or])

/-- Before a comment the line is cut, wherever the comment stands behind a part without one. -/
theorem takeWhile_append (h : Free isMarker front) (line : List Char) :
    (front ++ line).takeWhile (fun c => !isMarker c) =
      front ++ line.takeWhile fun c => !isMarker c :=
  List.takeWhile_append_of_pos fun c hc => by rw [h c hc]; rfl

theorem statement_blanks_append (h : ∀ c ∈ front, Text.isBlank c = true) (line : List Char) :
    statement (front ++ line) = statement line := by
  rw [statement, takeWhile_append fun c hc => marker_of_blank (h c hc),
    Text.trim_blanks_append h, statement]

theorem statement_append_blanks (h : ∀ c ∈ back, Text.isBlank c = true) (line : List Char) :
    statement (line ++ back) = statement line := by
  by_cases hline : Free isMarker line
  · have hwhole : Free isMarker (line ++ back) :=
      List.forall_mem_append.mpr ⟨hline, fun c hc => marker_of_blank (h c hc)⟩
    rw [statement_of_free hwhole, Text.trim_append_blanks h, statement_of_free hline]
  · exact statement_append_of_comment hline back

theorem statement_append_comment {marker : Char} (h : isMarker marker = true)
    (line text : List Char) : statement (line ++ marker :: text) = statement line := by
  by_cases hline : Free isMarker line
  · have hcut : (marker :: text).takeWhile (fun c => !isMarker c) = [] :=
      List.takeWhile_cons_of_neg (by simp [h])
    rw [statement, takeWhile_append hline, hcut, List.append_nil, ← statement_of_free hline]
  · exact statement_append_of_comment hline _

/-- A label in front of a text keeps its place when the text is trimmed. -/
theorem IsLabel.trim (h : IsLabel name) (rest : List Char) :
    Text.trim (name ++ ':' :: rest) = name ++ ':' :: Text.trimEnd rest := by
  have hblank := h.free.blank
  have htrim := Text.trim_append hblank (List.append_ne_nil_of_right_ne_nil _ (by simp)) rest
  simpa only [List.append_assoc, List.singleton_append] using htrim

/-- A label at the front of a text stands there too if the text goes on. -/
theorem labelled_trim_append (h : Labelled (Text.trim line)) (tail : List Char) :
    Labelled (Text.trim (line ++ tail)) := by
  obtain ⟨name, rest, hname, hlabel⟩ := h
  obtain ⟨before, after, hsplit, hbefore, _⟩ := Text.exists_trim line
  have hwhole : line ++ tail = before ++ (name ++ ':' :: (rest ++ after ++ tail)) := by
    rw [hsplit, hlabel]
    simp only [List.append_assoc, List.cons_append]
  rw [hwhole, Text.trim_blanks_append hbefore, hname.trim]
  exact ⟨name, _, hname, rfl⟩

theorem statement_label (hname : IsLabel name) (h : ¬ Labelled (Text.trim line)) :
    statement (name ++ ':' :: line) = statement line := by
  have hmarker := hname.free.marker
  let code := line.takeWhile fun c => !isMarker c
  have hcode : ¬ Labelled (Text.trim code) := by
    intro hlabelled
    have hlonger := labelled_trim_append hlabelled (line.dropWhile fun c => !isMarker c)
    rw [List.takeWhile_append_dropWhile] at hlonger
    exact h hlonger
  obtain ⟨back, hsplit, hback⟩ := Text.exists_trimEnd code
  have hend : Text.trim (Text.trimEnd code) = Text.trim code := by
    rw [← Text.trim_append_blanks hback, ← hsplit]
  rw [← List.singleton_append, ← List.append_assoc, statement, takeWhile_append hmarker,
    List.append_assoc, List.singleton_append, hname.trim, dropLabel_of_label hname, hend,
    statement, dropLabel_of_unlabelled hcode]

end Lines

/-- The lines that hold no statement: blank ones, and those with a comment or a label alone. -/
inductive Hollow : List Char → Prop
  | blank {line : List Char} (h : ∀ c ∈ line, Text.isBlank c = true) : Hollow line
  | comment {front : List Char} {marker : Char} (h : ∀ c ∈ front, Text.isBlank c = true)
      (hmarker : isMarker marker = true) (text : List Char) : Hollow (front ++ marker :: text)
  | label {front name back : List Char} (hfront : ∀ c ∈ front, Text.isBlank c = true)
      (hname : IsLabel name) (hback : ∀ c ∈ back, Text.isBlank c = true) :
      Hollow (front ++ (name ++ ':' :: back))

theorem Hollow.statement_eq {line : List Char} (h : Hollow line) : statement line = [] := by
  cases h with
  | blank h => exact statement_of_blank h
  | comment h hmarker text =>
    rw [statement_append_comment hmarker]
    exact statement_of_blank h
  | label hfront hname hback =>
    have htrim : Text.trim _ = [] := (Text.trim_eq_nil_iff _).mpr hback
    have hunlabelled : ¬ Labelled [] := by
      rintro ⟨name, rest, _, hnil⟩
      simp at hnil
    rw [statement_blanks_append hfront, statement_label hname (htrim ▸ hunlabelled)]
    exact statement_of_blank hback

/-- Lines on the left may be laid out as those on the right. -/
inductive Redressed : List (List Char) → List (List Char) → Prop
  | blanks {front back : List Char} (hfront : ∀ c ∈ front, Text.isBlank c = true)
      (hback : ∀ c ∈ back, Text.isBlank c = true) (line : List Char) :
      Redressed [line] [front ++ line ++ back]
  | comment {marker : Char} (h : isMarker marker = true) (line text : List Char) :
      Redressed [line] [line ++ marker :: text]
  | label {name line : List Char} (hname : IsLabel name) (h : ¬ Labelled (Text.trim line)) :
      Redressed [line] [name ++ ':' :: line]
  | inserted {line : List Char} (h : Hollow line) : Redressed [] [line]

theorem statements_cons_congr {line line' : List Char} {rest rest' : List (List Char)}
    (h : statement line' = statement line) (hrest : statements rest' = statements rest) :
    statements (line' :: rest') = statements (line :: rest) := by
  by_cases hnone : statement line = []
  · rw [statements_cons_of_none hnone, statements_cons_of_none (h.trans hnone), hrest]
  · rw [statements_cons_of_some hnone, statements_cons_of_some (h ▸ hnone), h, hrest]

/-- None of these changes adds a statement, takes one away or alters one. -/
theorem Redressed.statements_eq {old new : List (List Char)} (h : Redressed old new) :
    statements new = statements old := by
  cases h with
  | blanks hfront hback line =>
    refine statements_cons_congr ?_ rfl
    rw [statement_append_blanks hback, statement_blanks_append hfront]
  | comment h line text => exact statements_cons_congr (statement_append_comment h line text) rfl
  | label hname h => exact statements_cons_congr (statement_label hname h) rfl
  | inserted h => exact statements_cons_of_none h.statement_eq []

/-- A text with a carriage return before each of its line feeds. -/
def withReturns (cs : List Char) : List Char :=
  cs.flatMap fun c => if c = '\n' then ['\r', '\n'] else [c]

theorem withReturns_line_feed (cs : List Char) :
    withReturns ('\n' :: cs) = '\r' :: '\n' :: withReturns cs := rfl

theorem withReturns_of_ne {c : Char} (h : c ≠ '\n') (cs : List Char) :
    withReturns (c :: cs) = c :: withReturns cs := by
  rw [withReturns, List.flatMap_cons, if_neg h]
  rfl

/-- The carriage return before a line feed is a blank at the end of its line. The part of the line
that was passed already stands in front. -/
theorem statements_append_withReturns {front : List Char} (h : Free Text.isLineFeed front)
    (cs : List Char) : statements (Text.lines (front ++ withReturns cs)) =
      statements (Text.lines (front ++ cs)) := by
  induction cs generalizing front with
  | nil => rfl
  | cons c cs ih =>
    by_cases hc : c = '\n'
    · subst hc
      have hreturn : Free Text.isLineFeed (front ++ ['\r']) :=
        List.forall_mem_append.mpr ⟨h, List.forall_mem_singleton.mpr (by decide)⟩
      have hblank : ∀ c ∈ ['\r'], Text.isBlank c = true :=
        List.forall_mem_singleton.mpr (by decide)
      rw [withReturns_line_feed, List.append_cons, Text.lines_append_of_free hreturn,
        Text.lines_append_of_free h]
      exact statements_cons_congr (statement_append_blanks hblank front)
        (ih (List.forall_mem_nil _))
    · have hlonger : Free Text.isLineFeed (front ++ [c]) :=
        List.forall_mem_append.mpr
          ⟨h, List.forall_mem_singleton.mpr (by rwa [Text.isLineFeed, beq_eq_false_iff_ne])⟩
      have hrest := ih hlonger
      rw [List.append_assoc, List.append_assoc] at hrest
      rw [withReturns_of_ne hc]
      exact hrest

/-- One text is another one with its lines laid out differently, at one place or, for carriage
returns, at all. -/
inductive Relaid : String → String → Prop
  | returns (source : String) :
      Relaid source (String.ofList (withReturns source.toList))
  | lines {source source' : String} {above old new below : List (List Char)}
      (h : Redressed old new) (hold : Text.lines source.toList = above ++ old ++ below)
      (hnew : Text.lines source'.toList = above ++ new ++ below) : Relaid source source'

theorem Relaid.statements_eq {source source' : String} (h : Relaid source source') :
    statements (Text.lines source'.toList) = statements (Text.lines source.toList) := by
  cases h with
  | returns =>
    rw [String.toList_ofList]
    exact statements_append_withReturns (List.forall_mem_nil _) source.toList
  | lines h hold hnew =>
    rw [hold, hnew, statements_append, statements_append, statements_append, statements_append,
      h.statements_eq]

/-- However often a text is laid out anew, it holds the same instructions with the same numbers and
the same statements, and the same diagnostics but for the numbers of their lines. -/
theorem layout_makes_no_difference {source source' : String}
    (h : Relation.ReflTransGen Relaid source source') :
    (ofText source').instructions = (ofText source).instructions ∧
      (ofText source').diagnostics.map Diagnostic.fault =
        (ofText source).diagnostics.map Diagnostic.fault := by
  have hstatements : statements (Text.lines source'.toList) =
      statements (Text.lines source.toList) := by
    induction h with
    | refl => rfl
    | tail _ hstep ih => exact hstep.statements_eq.trans ih
  exact ofText_congr hstatements

/-- A label, a line with a comment alone, and carriage returns. -/
theorem layout_makes_no_difference_to_loop :
    let source := "addi r1, r1, 1\nbne r1, r2"
    let source' := "loop:addi r1, r1, 1\r\n\t# until r2\r\nbne r1, r2"
    Relation.ReflTransGen Relaid source source' ∧
      (ofText source').instructions.map (fun i => (i.id, i.source)) = [(1, "addi r1, r1, 1")] ∧
      (ofText source').diagnostics.map Diagnostic.fault =
        [("bne r1, r2", .missingOperands .bne 3 2)] := by
  intro source source'
  have hlabel : Relaid source "loop:addi r1, r1, 1\nbne r1, r2" := by
    have hname : IsLabel "loop".toList := ⟨⟨'l', rfl, rfl⟩, List.all_eq_true.mp (by decide)⟩
    have hunlabelled : ¬ Labelled (Text.trim "addi r1, r1, 1".toList) := by decide +kernel
    refine @Relaid.lines _ _ [] _ _ ["bne r1, r2".toList] (.label hname hunlabelled) ?_ ?_
    · decide +kernel
    · decide +kernel
  have hcomment : Relaid "loop:addi r1, r1, 1\nbne r1, r2"
      "loop:addi r1, r1, 1\n\t# until r2\nbne r1, r2" := by
    refine @Relaid.lines _ _ ["loop:addi r1, r1, 1".toList] _ _ ["bne r1, r2".toList]
      (.inserted (@Hollow.comment "\t".toList '#' ?_ rfl " until r2".toList)) ?_ ?_
    · exact List.all_eq_true.mp (by decide)
    · decide +kernel
    · decide +kernel
  have hreturns : Relaid "loop:addi r1, r1, 1\n\t# until r2\nbne r1, r2" source' :=
    .returns _
  have h := ((Relation.ReflTransGen.single hlabel).tail hcomment).tail hreturns
  obtain ⟨hinstructions, hfaults⟩ := layout_makes_no_difference h
  refine ⟨h, ?_, ?_⟩
  · rw [hinstructions]
    decide +kernel
  · rw [hfaults]
    decide +kernel

end Assembly

end FiveStage
