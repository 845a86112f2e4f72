import FiveStage.Assembly.Basic
import FiveStage.Proofs.Reading.Fields

/-!
# Line by line

What a source line holds depends on that line alone. The lines before it only settle the number of
its instruction, which counts the instructions, and that of its diagnostic, which counts the lines.
So two texts can be read apart and put together, with the numbers of the second one raised.
-/
namespace FiveStage

namespace Instruction

/-- The same instruction with another number. -/
def numbered (id : InstructionId) (i : Instruction) : Instruction := { i with id }

/-- The same instruction so many places later. -/
def raise (offset : Nat) (i : Instruction) : Instruction := i.numbered (i.id + offset)

end Instruction

/-- The same diagnostic so many lines further down. -/
def Diagnostic.lower (offset : Nat) (d : Diagnostic) : Diagnostic :=
  { d with line := d.line + offset }

namespace Text

theorem length_pieces (sep : Char → Bool) (cs : List Char) :
    (pieces sep cs).length = cs.countP sep + 1 := by
  induction cs with
  | nil => rfl
  | cons c cs ih =>
    rw [pieces]
    split
    · next hc => rw [List.length_cons, ih, List.countP_cons_of_pos hc]
    · next hc => rw [List.length_modifyHead, ih, List.countP_cons_of_neg hc]

theorem length_lines (cs : List Char) : (lines cs).length = cs.count '\n' + 1 :=
  length_pieces isLineFeed cs

theorem lines_append_cons (as bs : List Char) : lines (as ++ '\n' :: bs) = lines as ++ lines bs :=
  pieces_append_cons rfl as bs

theorem lines_append_of_free {line : List Char} (h : Free isLineFeed line) (rest : List Char) :
    lines (line ++ '\n' :: rest) = line :: lines rest :=
  pieces_append_cons_of_free rfl h rest

end Text

namespace Assembly

theorem withOffset_numbered (id : InstructionId) (i : Instruction) (token : List Char) :
    withOffset (i.numbered id) token = (withOffset i token).numbered id := by
  unfold withOffset
  split <;> rfl

/-- Operands are read without a look at the number of the instruction. -/
theorem readOperands_numbered (id : InstructionId) (i : Instruction) (code : List Char)
    (operands : List (List Char)) : readOperands (i.numbered id) code operands =
      (readOperands i code operands).map (Instruction.numbered id) := by
  have hop : (i.numbered id).opcode = i.opcode := rfl
  unfold readOperands
  rw [hop]
  split
  · rfl
  · cases immediate _ <;> rfl
  · rfl
  · cases immediate _ <;> rfl
  · next rs rt token _ _ =>
    exact congrArg Except.ok (withOffset_numbered id
      { i with rs := some (.ofChars rs), rt := some (.ofChars rt) } token)
  · next rs token _ _ =>
    exact congrArg Except.ok (withOffset_numbered id { i with rs := some (.ofChars rs) } token)
  · rfl
  · rfl
  · rfl
  · rfl

theorem readStatement_numbered (id : InstructionId) (code : List Char) :
    readStatement id code = (readStatement 0 code).map (Instruction.numbered id) := by
  unfold readStatement
  split
  · rfl
  · split
    · rfl
    · next op _ =>
      exact readOperands_numbered id { id := 0, opcode := op, source := String.ofList code } code _

/-- What a line holds when it is read on its own: nothing, an instruction or an error. -/
def reading? (line : List Char) : Option (Except LineError Instruction) :=
  if (statement line).isEmpty then none else some (readStatement 0 (statement line))

theorem reading?_of_none {line : List Char} (h : statement line = []) : reading? line = none :=
  if_pos (List.isEmpty_iff.mpr h)

theorem reading?_of_some {line : List Char} (h : statement line ≠ []) :
    reading? line = some (readStatement 0 (statement line)) :=
  if_neg (mt List.isEmpty_iff.mp h)

/-- The instruction on a line, not numbered yet. -/
def instruction? (line : List Char) : Option Instruction := (reading? line).bind Except.toOption

/-- The diagnostic for a line, if the line has this number. -/
def diagnostic? (line : List Char) (number : Nat) : Option Diagnostic :=
  match reading? line with
  | some (.error error) => some ⟨number, String.ofList (statement line), error⟩
  | _ => none

/-- What a line adds to the lines after it. -/
theorem readLines_cons (line : Nat) (id : InstructionId) (text : List Char)
    (rest : List (List Char)) : readLines line id (text :: rest) =
      match reading? text with
      | none => readLines (line + 1) id rest
      | some (.ok i) =>
        let tail := readLines (line + 1) (id + 1) rest
        { tail with instructions := i.numbered id :: tail.instructions }
      | some (.error error) =>
        let tail := readLines (line + 1) id rest
        { tail with
          diagnostics := ⟨line, String.ofList (statement text), error⟩ :: tail.diagnostics } := by
  rw [readLines, reading?]
  split
  · rfl
  · rw [readStatement_numbered]
    cases readStatement 0 (statement text) <;> rfl

/-- Lines are read one by one. Their instructions count on from the first number, and a diagnostic
has the number of its line. -/
theorem readLines_eq (line : Nat) (id : InstructionId) (texts : List (List Char)) :
    readLines line id texts =
      ⟨((texts.filterMap instruction?).zipIdx id).map fun placed => placed.1.numbered placed.2,
       (texts.zipIdx line).filterMap fun placed => diagnostic? placed.1 placed.2⟩ := by
  induction texts generalizing line id with
  | nil => rfl
  | cons text rest ih =>
    rw [readLines_cons, List.zipIdx_cons]
    simp only [List.filterMap_cons, instruction?, diagnostic?.eq_def text line]
    -- Every line takes the number of a line, and only an instruction that of an instruction.
    cases reading? text with
    | none => exact ih (line + 1) id
    | some result =>
      cases result with
      | ok i => simp only [ih]; rfl
      | error e => simp only [ih]; rfl

/-- Reading on from later numbers raises all numbers. -/
theorem readLines_add (line : Nat) (id : InstructionId) (lines count : Nat)
    (texts : List (List Char)) : readLines (line + lines) (id + count) texts =
      ⟨(readLines line id texts).instructions.map (Instruction.raise count),
       (readLines line id texts).diagnostics.map (Diagnostic.lower lines)⟩ := by
  induction texts generalizing line id with
  | nil => rfl
  | cons text rest ih =>
    rw [readLines_cons, readLines_cons, Nat.add_right_comm line, Nat.add_right_comm id]
    split
    · exact ih (line + 1) id
    · rw [ih (line + 1) (id + 1)]; rfl
    · rw [ih (line + 1) id]; rfl

/-- Lines after other lines are read on from the numbers that those have left. -/
theorem readLines_append (line : Nat) (id : InstructionId) (first second : List (List Char)) :
    readLines line id (first ++ second) =
      let above := readLines line id first
      let below := readLines (line + first.length) (id + above.instructions.length) second
      ⟨above.instructions ++ below.instructions, above.diagnostics ++ below.diagnostics⟩ := by
  simp only [readLines_eq, List.filterMap_append, List.zipIdx_append, List.map_append,
    List.length_map, List.length_zipIdx]

/-- The instructions count on without a gap. -/
theorem ids_readLines (line : Nat) (id : InstructionId) (texts : List (List Char)) :
    (readLines line id texts).instructions.map Instruction.id =
      List.range' id (readLines line id texts).instructions.length := by
  simp only [readLines_eq, List.map_map, List.length_map, List.length_zipIdx]
  exact List.zipIdx_map_snd id _

/-- A diagnostic keeps the number of the line that it was made for. -/
theorem line_of_diagnostic? {text : List Char} {line : Nat} {d : Diagnostic}
    (h : diagnostic? text line = some d) : d.line = line := by
  unfold diagnostic? at h
  split at h
  · exact (Option.some.inj h) ▸ rfl
  · cases h

theorem ordered_readLines (line : Nat) (id : InstructionId) (texts : List (List Char)) :
    (readLines line id texts).diagnostics.Pairwise fun d e => d.line < e.line := by
  rw [readLines_eq]
  refine List.pairwise_filterMap.mpr ?_
  have hplaces : ((texts.zipIdx line).map Prod.snd).Pairwise (· < ·) := by
    rw [List.zipIdx_map_snd]
    exact List.pairwise_lt_range'
  refine (List.pairwise_map.mp hplaces).imp ?_
  intro p q hlt d hd e he
  rwa [line_of_diagnostic? hd, line_of_diagnostic? he]

/-- The number of lines of a text. A line feed at its end opens one more. -/
def height (text : String) : Nat := text.toList.count '\n' + 1

theorem height_append (a b : String) : height (a ++ "\n" ++ b) = height a + height b := by
  simp only [height, String.toList_append, List.count_append]
  have hbreak : "\n".toList.count '\n' = 1 := by decide
  omega

/-- Two texts joined by a line feed, read apart and put together. -/
theorem ofText_append (a b : String) : ofText (a ++ "\n" ++ b) =
    ⟨(ofText a).instructions ++
       (ofText b).instructions.map (Instruction.raise (ofText a).instructions.length),
     (ofText a).diagnostics ++ (ofText b).diagnostics.map (Diagnostic.lower (height a))⟩ := by
  have hlines : Text.lines (a ++ "\n" ++ b).toList =
      Text.lines a.toList ++ Text.lines b.toList := by
    rw [String.toList_append, String.toList_append, List.append_assoc]
    exact Text.lines_append_cons a.toList b.toList
  rw [ofText, hlines, readLines_append]
  simp only [Text.length_lines, readLines_add]
  rfl

/-- Two texts joined by a line feed hold the instructions of the one and then those of the other,
numbered on, and the diagnostics of the one and then those of the other, so many lines further down.
Hence the instructions of a text count from 1 without a gap, the lines of its diagnostics rise, and
a part without an instruction only moves the diagnostics below it. -/
theorem reading_is_line_local (a b : String) :
    ofText (a ++ "\n" ++ b) =
        ⟨(ofText a).instructions ++
           (ofText b).instructions.map (Instruction.raise (ofText a).instructions.length),
         (ofText a).diagnostics ++ (ofText b).diagnostics.map (Diagnostic.lower (height a))⟩ ∧
      (ofText a).instructions.map Instruction.id =
        List.range' 1 (ofText a).instructions.length ∧
      (ofText a).diagnostics.Pairwise (fun d e => d.line < e.line) ∧
      ∀ skipped, (ofText skipped).instructions = [] →
        ofText (a ++ "\n" ++ skipped ++ "\n" ++ b) =
          ⟨(ofText (a ++ "\n" ++ b)).instructions,
           (ofText a).diagnostics ++
             (ofText skipped).diagnostics.map (Diagnostic.lower (height a)) ++
             (ofText b).diagnostics.map (Diagnostic.lower (height a + height skipped))⟩ := by
  refine ⟨ofText_append a b, ids_readLines 1 1 _, ordered_readLines 1 1 _, ?_⟩
  intro skipped hskipped
  have hupper : ofText (a ++ "\n" ++ skipped) = ⟨(ofText a).instructions,
      (ofText a).diagnostics ++
        (ofText skipped).diagnostics.map (Diagnostic.lower (height a))⟩ := by
    rw [ofText_append, hskipped, List.map_nil, List.append_nil]
  rw [ofText_append (a ++ "\n" ++ skipped), hupper, height_append, ofText_append a b]

/-- A carriage return and a comment at the joint, and two lines skipped between the texts. -/
theorem reading_is_line_local_across_skipped :
    let a := "loop: ADDI r1, r1, 1 ; count\r"
    let skipped := "FOO R1\r\n\n# ADD R1, R2"
    let b := "ADD R1, R2\nLW r2, 4(r1)\n"
    (ofText skipped).instructions = [] ∧
      (ofText (a ++ "\n" ++ skipped ++ "\n" ++ b)).instructions.map
        (fun i => (i.id, i.text)) = [(1, "ADDI R1, R1, 1"), (2, "LW R2, 4(R1)")] ∧
      (ofText (a ++ "\n" ++ skipped ++ "\n" ++ b)).diagnostics =
        [⟨2, "FOO R1", .unknownOpcode "FOO"⟩, ⟨5, "ADD R1, R2", .missingOperands .add 3 2⟩] := by
  intro a skipped b
  have hskipped : (ofText skipped).instructions = [] := by decide +kernel
  obtain ⟨_, _, _, hpart⟩ := reading_is_line_local a b
  refine ⟨hskipped, ?_, ?_⟩
  · rw [hpart skipped hskipped]
    decide +kernel
  · rw [hpart skipped hskipped]
    decide +kernel

end Assembly

end FiveStage
