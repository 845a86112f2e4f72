import FiveStage.Command.Check
import FiveStage.Proofs.Reading.Lines
import FiveStage.Proofs.Reading.Rereading

/-!
# Listings

A listing is read as the program that it lists if every register of the program is plain, and only
then. Well-formed instructions have plain registers. A program that was read from a text need not:
`$` alone is a register without a name, of `$$A` the name begins with a dollar sign, and a base that
is a word of its own may hold a parenthesis.
-/
namespace FiveStage

open Text (Free)
open Assembly (isDelimiter)

theorem Text.lines_unlines {texts : List String} (h : ∀ text ∈ texts, '\n' ∉ text.toList) :
    lines (unlines texts).toList = texts.map String.toList ++ [[]] := by
  induction texts with
  | nil => rfl
  | cons text rest ih =>
    obtain ⟨htext, hrest⟩ := List.forall_mem_cons.mp h
    have hfree : Free isLineFeed text.toList := by
      intro c hc
      rw [isLineFeed, beq_eq_false_iff_ne]
      rintro rfl
      exact htext hc
    rw [unlines_cons, String.toList_append, String.toList_append, List.append_assoc]
    calc lines (text.toList ++ '\n' :: (unlines rest).toList)
        = text.toList :: lines (unlines rest).toList := lines_append_of_free hfree _
      _ = text.toList :: (rest.map String.toList ++ [[]]) := by rw [ih hrest]

namespace Instruction

/-- Exactly the operands of the format, with names that can be told from the text around them. -/
structure WellFormed (i : Instruction) : Prop where
  formed : i.Formed
  register : ∀ r ∈ i.registers,
    r.Written isDelimiter ∧ r.name ≠ "" ∧ r.name.toList.head? ≠ some '$'
  immediate : ∀ value ∈ i.immediate, Assembly.fitsWord value = true
  target : ∀ t ∈ i.target, t.toList ≠ [] ∧ Free isDelimiter t.toList

section WellFormed

variable {i : Instruction} (h : i.WellFormed)
include h

theorem WellFormed.accepted : i.Accepted where
  formed := h.formed
  rd r hr := (h.register r (mem_registers.mpr (.inl hr))).1
  rs r hr := (h.register r (mem_registers.mpr (.inr (.inl hr)))).1.loose
  unenclosed _ r hr := (h.register r (mem_registers.mpr (.inr (.inl hr)))).1
  rt r hr := (h.register r (mem_registers.mpr (.inr (.inr hr)))).1
  immediate := h.immediate
  target := h.target

theorem WellFormed.plain : ∀ r ∈ i.registers, r.Plain := by
  intro r hr
  obtain ⟨hwritten, hne, hdollar⟩ := h.register r hr
  exact ⟨hne, hdollar, hwritten.2.paren⟩

end WellFormed

section Lines

variable {i : Instruction} (h : i.Accepted)
include h

theorem Accepted.line_feed_not_mem_text : '\n' ∉ i.text.toList := by
  intro hc
  rcases h.loose_of_mem_text hc with heq | heq | hloose
  · exact absurd heq (by decide)
  · exact absurd heq (by decide)
  · exact absurd hloose (by decide)

/-- A line of a listing holds a statement. -/
theorem Accepted.reading?_text : Assembly.reading? i.text.toList =
    some (Assembly.readStatement 0 (Assembly.statement i.text.toList)) := by
  refine Assembly.reading?_of_some ?_
  intro hempty
  have htokens := (spelled_trim_text h.formed.ne_pseudo).tokens
  rw [← h.statement_text, hempty] at htokens
  cases htokens

end Lines

end Instruction

namespace Program

/-- The lines of the listing. -/
def printedLines (program : Program) : List (List Char) :=
  program.map (fun i => i.text.toList) ++ [[]]

/-- The program with its instructions counted on from a number, each with its canonical text as the
statement. -/
def printedFrom (id : InstructionId) (program : Program) : Program :=
  (program.zipIdx id).map fun placed =>
    { placed.1 with id := placed.2, source := placed.1.text }

theorem printedLines_cons (i : Instruction) (rest : Program) :
    printedLines (i :: rest) = i.text.toList :: printedLines rest := rfl

section Listed

variable {program : Program} (h : ∀ i ∈ program, i.Accepted)
include h

theorem ofText_text :
    Assembly.ofText program.text = Assembly.readLines 1 1 program.printedLines := by
  have hbreak : ∀ text ∈ program.map Instruction.text, '\n' ∉ text.toList := by
    intro text htext
    obtain ⟨i, hi, rfl⟩ := List.mem_map.mp htext
    exact (h i hi).line_feed_not_mem_text
  rw [Assembly.ofText, text, Text.lines_unlines hbreak, List.map_map]
  rfl

/-- A listing of instructions with plain registers is read line by line as these instructions. -/
theorem readLines_printedLines (hplain : ∀ i ∈ program, ∀ r ∈ i.registers, r.Plain) (line : Nat)
    (id : InstructionId) :
    Assembly.readLines line id program.printedLines = ⟨program.printedFrom id, []⟩ := by
  induction program generalizing line id with
  | nil => rfl
  | cons i rest ih =>
    obtain ⟨hi, hrest⟩ := List.forall_mem_cons.mp h
    obtain ⟨hri, hrrest⟩ := List.forall_mem_cons.mp hplain
    rw [printedLines_cons, Assembly.readLines_cons, hi.reading?_text, hi.readStatement_text hri]
    dsimp only
    rw [ih hrest hrrest]
    rfl

/-- Where the lines of a listing are read without a fault as instructions with the same registers,
all of these are plain. -/
theorem plain_of_readLines (line : Nat) (id : InstructionId)
    (hclean : (Assembly.readLines line id program.printedLines).diagnostics = [])
    (hsame : (Assembly.readLines line id program.printedLines).instructions.map
      (fun i => (i.rd, i.rs, i.rt)) = program.map fun i => (i.rd, i.rs, i.rt)) :
    ∀ i ∈ program, ∀ r ∈ i.registers, r.Plain := by
  induction program generalizing line id with
  | nil => exact List.forall_mem_nil _
  | cons i rest ih =>
    obtain ⟨hi, hrest⟩ := List.forall_mem_cons.mp h
    rw [printedLines_cons, Assembly.readLines_cons, hi.reading?_text] at hclean hsame
    -- An error would leave a diagnostic, so line and instruction correspond one by one.
    cases hread : Assembly.readStatement 0 (Assembly.statement i.text.toList) with
    | error e =>
      rw [hread] at hclean
      cases hclean
    | ok j =>
      rw [hread] at hclean hsame
      obtain ⟨hj, htail⟩ := List.cons.inj hsame
      simp only [Instruction.numbered, Prod.mk.injEq] at hj
      have hspelled := Instruction.spelled_trim_text hi.formed.ne_pseudo
      rw [hi.statement_text] at hread
      have hreads := (Instruction.readStatement_spelled_iff hi.formed hspelled).mp hread
      exact List.forall_mem_cons.mpr
        ⟨hi.plain_of_reads hspelled hreads hj.1 hj.2.1 hj.2.2, ih hrest _ _ hclean htail⟩

end Listed

/-- Where the instructions are counted from the number on, they keep their numbers. -/
theorem printedFrom_of_ids {program : Program} {id : InstructionId}
    (hids : program.map Instruction.id = List.range' id program.length) :
    program.printedFrom id = program.map fun i => { i with source := i.text } := by
  induction program generalizing id with
  | nil => rfl
  | cons i rest ih =>
    obtain ⟨rfl, hrest⟩ := List.cons.inj hids
    exact congrArg (_ :: ·) (ih hrest)

/-- The listing of well-formed instructions is read as these instructions, counted from 1, each with
its line as the statement. -/
theorem reading_undoes_printing {program : Program} (hprogram : ∀ i ∈ program, i.WellFormed) :
    Assembly.ofText program.text =
      ⟨(program.zipIdx 1).map fun placed =>
         { placed.1 with id := placed.2, source := placed.1.text }, []⟩ := by
  have haccepted (i : Instruction) (hi : i ∈ program) := (hprogram i hi).accepted
  rw [ofText_text haccepted]
  exact readLines_printedLines haccepted (fun i hi => (hprogram i hi).plain) 1 1

/-- Each layout of the operands, with the least and the greatest immediate, an address without a
base, and a jump to a target that is a number. -/
theorem reading_undoes_printing_of_layouts :
    let program : Program :=
      [{ id := 9, opcode := .add, rd := some (.ofText "$t0"), rs := some (.ofText "r1"),
         rt := some (.ofText "R2"), source := "add" },
       { id := 9, opcode := .addi, rs := some (.ofText "r1"), rt := some (.ofText "r1"),
         immediate := some (-2147483648) },
       { id := 0, opcode := .lw, rt := some (.ofText "r1"), rs := some (.ofText "sp"),
         immediate := some (-4) },
       { id := 0, opcode := .sw, rt := some (.ofText "r1"), immediate := some 8 },
       { id := 0, opcode := .lui, rt := some (.ofText "r1"), immediate := some 2147483647 },
       { id := 0, opcode := .bne, rs := some (.ofText "r1"), rt := some (.ofText "r2"),
         target := some "loop" },
       { id := 0, opcode := .bgtz, rs := some (.ofText "r1"), immediate := some 0 },
       { id := 0, opcode := .j, target := some "12" },
       { id := 0, opcode := .jr, rs := some (.ofText "ra") }]
    (∀ i ∈ program, i.WellFormed) ∧
      program.text = "ADD T0, R1, R2\nADDI R1, R1, -2147483648\nLW R1, -4(SP)\nSW R1, 8\n" ++
        "LUI R1, 2147483647\nBNE R1, R2, loop\nBGTZ R1, 0\nJ 12\nJR RA\n" ∧
      (Assembly.ofText program.text).diagnostics = [] ∧
      (Assembly.ofText program.text).instructions.map (fun i => (i.id, i.opcode, i.source)) =
        [(1, .add, "ADD T0, R1, R2"), (2, .addi, "ADDI R1, R1, -2147483648"),
         (3, .lw, "LW R1, -4(SP)"), (4, .sw, "SW R1, 8"), (5, .lui, "LUI R1, 2147483647"),
         (6, .bne, "BNE R1, R2, loop"), (7, .bgtz, "BGTZ R1, 0"), (8, .j, "J 12"),
         (9, .jr, "JR RA")] := by
  intro program
  have hprogram : ∀ i ∈ program, i.WellFormed := by
    simp only [program, List.forall_mem_cons]
    refine ⟨⟨.registerRegister _ _ _, ?_, ?_, ?_⟩, ⟨.registerImmediate _ _ _, ?_, ?_, ?_⟩,
      ⟨.memory _ _ _, ?_, ?_, ?_⟩, ⟨.memory _ _ _, ?_, ?_, ?_⟩, ⟨.loadUpper _ _, ?_, ?_, ?_⟩,
      ⟨.branchEqual _ _ (.target _ (by decide +kernel)), ?_, ?_, ?_⟩,
      ⟨.branchZero _ (.number _), ?_, ?_, ?_⟩, ⟨.jump _, ?_, ?_, ?_⟩,
      ⟨.jumpRegister _, ?_, ?_, ?_⟩, List.forall_mem_nil _⟩
    all_goals decide +kernel
  have hread := reading_undoes_printing hprogram
  refine ⟨hprogram, by decide +kernel, ?_, ?_⟩
  · rw [hread]
  · rw [hread]
    decide +kernel

end Program

/-- What is read from a text is formed as its format asks for. -/
theorem Assembly.accepted_of_mem_readLines (line : Nat) (id : InstructionId)
    (texts : List (List Char)) : ∀ i ∈ (readLines line id texts).instructions, i.Accepted := by
  induction texts generalizing line id with
  | nil => exact List.forall_mem_nil _
  | cons text rest ih =>
    rw [readLines]
    dsimp only
    split
    · exact ih (line + 1) id
    · split
      · next i hread =>
        exact List.forall_mem_cons.mpr
          ⟨accepted_of_readStatement (free_statement text) hread, ih (line + 1) (id + 1)⟩
      · exact ih (line + 1) id

/-- The instruction without the statement it was read from. -/
def Instruction.bare (i : Instruction) : Instruction := { i with source := "" }

namespace Check

/-- A strict check leaves a listing if it found an instruction and skipped no line. -/
theorem listing_eq_some_iff {path text listing : String} :
    (ofText true path text).listing = some listing ↔
      (Assembly.ofText text).instructions ≠ [] ∧ (Assembly.ofText text).diagnostics = [] ∧
        (Assembly.ofText text).instructions.text = listing := by
  cases hi : (Assembly.ofText text).instructions with
  | nil => simp [ofText, fault?, hi]
  | cons i rest =>
    cases hd : (Assembly.ofText text).diagnostics with
    | nil => simp [ofText, fault?, hi, hd]
    | cons d more => simp [ofText, fault?, hi, hd]

/-- The listing that a strict check leaves is read without a fault as the instructions it lists if
all their registers are plain, and only then. It is then its own listing. -/
theorem listing_loads_back_iff {path source listing : String}
    (h : (ofText true path source).listing = some listing) :
    let program := (Assembly.ofText source).instructions
    let again := Assembly.ofText listing
    (again.diagnostics = [] ∧
          again.instructions.map Instruction.bare = program.map Instruction.bare ↔
        ∀ i ∈ program, ∀ r ∈ i.registers, r.Plain) ∧
      ((∀ i ∈ program, ∀ r ∈ i.registers, r.Plain) →
        (ofText true path listing).listing = some listing) := by
  intro program again
  obtain ⟨hne, -, rfl⟩ := listing_eq_some_iff.mp h
  have haccepted : ∀ i ∈ program, i.Accepted := Assembly.accepted_of_mem_readLines 1 1 _
  have hlines : again = Assembly.readLines 1 1 program.printedLines :=
    Program.ofText_text haccepted
  have hagain (hplain : ∀ i ∈ program, ∀ r ∈ i.registers, r.Plain) :
      again = ⟨program.map fun i => { i with source := i.text }, []⟩ := by
    have hids : program.map Instruction.id = List.range' 1 program.length :=
      Assembly.ids_readLines 1 1 _
    rw [hlines, Program.readLines_printedLines haccepted hplain, Program.printedFrom_of_ids hids]
  refine ⟨⟨?_, fun hplain => ?_⟩, fun hplain => ?_⟩
  · rintro ⟨hclean, hsame⟩
    have hregisters := congrArg (List.map fun i => (i.rd, i.rs, i.rt)) hsame
    rw [List.map_map, List.map_map, hlines] at hregisters
    exact Program.plain_of_readLines haccepted 1 1 (hlines ▸ hclean) hregisters
  · rw [hagain hplain]
    exact ⟨rfl, List.map_map⟩
  · refine listing_eq_some_iff.mpr ?_
    rw [show Assembly.ofText program.text = _ from hagain hplain]
    refine ⟨mt List.map_eq_nil_iff.mp hne, rfl, ?_⟩
    exact congrArg Text.unlines List.map_map

theorem listing_loads_back_of_loop :
    let source := "loop: addi $t0, $t0, 1 ; count\n\nlw $t1, 4 ($t0)\nbeq $t1, $zero, loop\n"
    let listing := "ADDI T0, T0, 1\nLW T1, 4(T0)\nBEQ T1, ZERO, loop\n"
    (ofText true "prog.s" source).listing = some listing ∧
      (Assembly.ofText listing).diagnostics = [] ∧
      (Assembly.ofText listing).instructions.map Instruction.bare =
        (Assembly.ofText source).instructions.map Instruction.bare ∧
      (ofText true "prog.s" listing).listing = some listing := by
  intro source listing
  have h : (ofText true "prog.s" source).listing = some listing := by decide +kernel
  have hplain : ∀ i ∈ (Assembly.ofText source).instructions, ∀ r ∈ i.registers, r.Plain := by
    decide +kernel
  obtain ⟨hiff, hfix⟩ := listing_loads_back_iff h
  exact ⟨h, (hiff.mpr hplain).1, (hiff.mpr hplain).2, hfix hplain⟩

/-- A register without a name is listed as an operand that is missing. A name with a dollar sign in
front loses it, and a base with a parenthesis is lost together with the offset. -/
theorem listing_of_unplain_registers :
    (ofText true "prog.s" "ADD $, R1, R2").listing = some "ADD , R1, R2\n" ∧
      Assembly.ofText "ADD , R1, R2\n" =
        ⟨[], [⟨1, "ADD , R1, R2", .missingOperands .add 3 2⟩]⟩ ∧
      (ofText true "prog.s" "ADD $$A, R1, R2").listing = some "ADD $A, R1, R2\n" ∧
      (ofText true "prog.s" "ADD $A, R1, R2\n").listing = some "ADD A, R1, R2\n" ∧
      (ofText true "prog.s" "LW R1, 4 (R2").listing = some "LW R1, 4((R2)\n" ∧
      (ofText true "prog.s" "LW R1, 4((R2)\n").listing = some "LW R1, 0\n" := by
  decide +kernel

end Check

end FiveStage
