import FiveStage.Proofs.Reading.Answers
import FiveStage.Proofs.Reading.Layout

/-!
# The statement an instruction keeps

An instruction keeps the statement it was read from. Such a statement begins with the name of an
opcode or a separator, so that it has no label, no comment and no blanks at its ends, and is its own
statement. Hence the kept statements, one a line, are a text of the same program.
-/
namespace FiveStage

open Text (Free)

namespace Assembly

section Cleaned

variable {line : List Char}

theorem trim_dropLabel {cs : List Char} (h : Text.trim cs = cs) :
    Text.trim (dropLabel cs) = dropLabel cs := by
  by_cases hlabelled : Labelled cs
  · obtain ⟨name, rest, hname, rfl⟩ := hlabelled
    rw [dropLabel_of_label hname, Text.trim_trim]
  · rw [dropLabel_of_unlabelled hlabelled, h]

theorem trim_statement (line : List Char) : Text.trim (statement line) = statement line :=
  trim_dropLabel (Text.trim_trim _)

/-- A statement without a label is its own statement. -/
theorem statement_statement (h : ¬ Labelled (statement line)) :
    statement (statement line) = statement line := by
  rw [statement_of_free (free_statement line), trim_statement, dropLabel_of_unlabelled h]

theorem mem_of_mem_statement {c : Char} (h : c ∈ statement line) : c ∈ line :=
  (List.takeWhile_prefix _).subset (Text.mem_of_mem_trim (mem_of_mem_dropLabel h))

theorem not_labelled_of_readStatement {id : InstructionId} {code : List Char} {i : Instruction}
    (h : readStatement id code = .ok i) : ¬ Labelled code := by
  obtain ⟨name, operands, op, htokens, hop, _⟩ := readStatement_eq_ok_iff.mp h
  exact (sourceOpcode?_eq_some_iff.mp hop).2.not_labelled htokens

end Cleaned

/-- The instruction can be read again from the statement that it keeps, on a line of its own. -/
structure Kept (i : Instruction) : Prop where
  read : readStatement 0 i.source.toList = .ok i
  statement_eq : statement i.source.toList = i.source.toList
  line : Free Text.isLineFeed i.source.toList

theorem Kept.ne_nil {i : Instruction} (h : Kept i) : i.source.toList ≠ [] := by
  intro hnil
  have hread := h.read
  rw [hnil] at hread
  cases hread

theorem Kept.uncommented {i : Instruction} (h : Kept i) : Free isMarker i.source.toList := by
  rw [← h.statement_eq]
  exact free_statement _

theorem sources_numberedFrom (id : InstructionId) (instructions : List Instruction) :
    (numberedFrom id instructions).map Instruction.source =
      instructions.map Instruction.source := by
  have hfirst := congrArg (List.map Instruction.source) (List.zipIdx_map_fst id instructions)
  rw [List.map_map] at hfirst
  rw [numberedFrom, List.map_map]
  exact hfirst

theorem exists_of_mem_numberedFrom {id : InstructionId} {instructions : List Instruction}
    {i : Instruction} (h : i ∈ numberedFrom id instructions) :
    ∃ unnumbered ∈ instructions, ∃ number, i = unnumbered.numbered number := by
  obtain ⟨⟨unnumbered, number⟩, hplaced, rfl⟩ := List.mem_map.mp h
  exact ⟨unnumbered, List.fst_mem_of_mem_zipIdx hplaced, number, rfl⟩

theorem exists_of_mem_statements {texts : List (List Char)} {code : List Char}
    (h : code ∈ statements texts) : ∃ text ∈ texts, statement text = code :=
  List.mem_map.mp (List.mem_filter.mp h).1

theorem mem_decoded_iff {codes : List (List Char)} {i : Instruction} :
    i ∈ decoded codes ↔ ∃ code ∈ codes, readStatement 0 code = .ok i := by
  rw [decoded, List.mem_filterMap]
  refine exists_congr fun code => and_congr_right fun _ => ?_
  cases readStatement 0 code <;> simp [Except.toOption]

/-- Whatever is read from lines keeps a statement that it can be read from again. -/
theorem kept_of_mem_decoded {texts : List (List Char)}
    (hlines : ∀ text ∈ texts, Free Text.isLineFeed text) {i : Instruction}
    (hi : i ∈ decoded (statements texts)) : Kept i := by
  obtain ⟨code, hcode, hread⟩ := mem_decoded_iff.mp hi
  obtain ⟨text, htext, rfl⟩ := exists_of_mem_statements hcode
  obtain ⟨_, _, _, _, _, hreads⟩ := readStatement_eq_ok_iff.mp hread
  have hsource : i.source.toList = statement text := by
    rw [hreads.opcode_source_eq.2, String.toList_ofList]
  constructor
  · rwa [hsource]
  · rw [hsource]
    exact statement_statement (not_labelled_of_readStatement hread)
  · rw [hsource]
    exact fun c hc => hlines text htext c (mem_of_mem_statement hc)

/-- Statements, one a line, are told apart again. -/
theorem statements_intercalate {codes : List (List Char)}
    (h : ∀ code ∈ codes, statement code = code ∧ code ≠ [] ∧ Free Text.isLineFeed code) :
    statements (Text.lines (List.intercalate ['\n'] codes)) = codes := by
  match codes with
  | [] => rfl
  | [code] =>
    obtain ⟨hcode, hne, hline⟩ := h code List.mem_cons_self
    have hone : Text.lines code = [code] := Text.pieces_of_free hline
    rw [List.intercalate_singleton, hone, statements_cons_of_some (by rwa [hcode]), hcode]
    rfl
  | code :: next :: rest =>
    obtain ⟨⟨hcode, hne, hline⟩, hrest⟩ := List.forall_mem_cons.mp h
    rw [List.intercalate_cons_cons, List.append_assoc, List.singleton_append,
      Text.lines_append_of_free hline, statements_cons_of_some (by rwa [hcode]), hcode,
      statements_intercalate hrest]

section Reread

variable {instructions : List Instruction} (h : ∀ i ∈ instructions, Kept i)
include h

theorem decoded_sources :
    decoded (instructions.map fun i => i.source.toList) = instructions := by
  induction instructions with
  | nil => rfl
  | cons i rest ih =>
    obtain ⟨hi, hrest⟩ := List.forall_mem_cons.mp h
    rw [List.map_cons, decoded, List.filterMap_cons, hi.read]
    exact congrArg (i :: ·) (ih hrest)

theorem faults_sources :
    (instructions.map fun i => i.source.toList).filterMap fault? = [] := by
  rw [List.filterMap_eq_nil_iff, List.forall_mem_map]
  intro i hi
  rw [fault?, (h i hi).read]

/-- Kept statements, one a line, are read as their instructions, counted from 1. -/
theorem ofText_sources :
    ofText (String.intercalate "\n" (instructions.map Instruction.source)) =
      ⟨numberedFrom 1 instructions, []⟩ := by
  let codes := instructions.map fun i => i.source.toList
  have htext : (String.intercalate "\n" (instructions.map Instruction.source)).toList =
      List.intercalate ['\n'] codes := by
    rw [String.toList_intercalate, List.map_map]
    rfl
  have hcodes : statements (Text.lines (List.intercalate ['\n'] codes)) = codes := by
    refine statements_intercalate (List.forall_mem_map.mpr fun i hi => ?_)
    exact ⟨(h i hi).statement_eq, (h i hi).ne_nil, (h i hi).line⟩
  have hinstructions := instructions_readLines 1 1 (Text.lines (List.intercalate ['\n'] codes))
  have hfaults := faults_readLines 1 1 (Text.lines (List.intercalate ['\n'] codes))
  rw [hcodes, decoded_sources h] at hinstructions
  rw [hcodes, faults_sources h, List.map_eq_nil_iff] at hfaults
  rw [ofText, htext, ← hinstructions, ← hfaults]

end Reread

/-- The statements that the instructions of a text keep, one a line, are a text of the same program,
without a diagnostic. Each of them has neither a comment nor a label, and alone it is a text of its
instruction, which is then the first one. -/
theorem kept_sources_read_back (source : String) :
    let program := (ofText source).instructions
    ofText (String.intercalate "\n" (program.map Instruction.source)) = ⟨program, []⟩ ∧
      ∀ i ∈ program, Free isMarker i.source.toList ∧ ¬ Labelled i.source.toList ∧
        ofText i.source = ⟨[i.numbered 1], []⟩ := by
  intro program
  let read := decoded (statements (Text.lines source.toList))
  have hkept : ∀ i ∈ read, Kept i :=
    fun i hi => kept_of_mem_decoded (fun text => Text.free_of_mem_pieces) hi
  have hprogram : program = numberedFrom 1 read := instructions_readLines 1 1 _
  constructor
  · rw [hprogram, sources_numberedFrom, ofText_sources hkept]
  · intro i hi
    rw [hprogram] at hi
    obtain ⟨first, hfirst, number, rfl⟩ := exists_of_mem_numberedFrom hi
    have hfirst := hkept first hfirst
    have hone := ofText_sources (List.forall_mem_singleton.mpr hfirst)
    rw [List.map_singleton, String.intercalate_singleton] at hone
    exact ⟨hfirst.uncommented, not_labelled_of_readStatement hfirst.read, hone⟩

/-- A label and a comment are gone, and so is the line that was skipped. -/
theorem kept_sources_read_back_of_loop :
    let source := "loop: lw $r2, 4 (R1) ; next\nhalt\n\tbne R2,R0 loop\r\n"
    let program := (ofText source).instructions
    program.map (fun i => (i.id, i.source)) = [(1, "lw $r2, 4 (R1)"), (2, "bne R2,R0 loop")] ∧
      ofText "lw $r2, 4 (R1)\nbne R2,R0 loop" = ⟨program, []⟩ := by
  intro source program
  refine ⟨by decide +kernel, ?_⟩
  have hsources : String.intercalate "\n" (program.map Instruction.source) =
      "lw $r2, 4 (R1)\nbne R2,R0 loop" := by decide +kernel
  rw [← hsources]
  exact (kept_sources_read_back source).1

end Assembly

end FiveStage
