import FiveStage.Isa.Instruction
import FiveStage.Text.Column

/-!
# Programs

A program is a list of instructions, looked up by number. Numbers may repeat: the first
instruction with a number is the one it stands for. `demo` is the program shown when no source
is given; its ADD uses the word that the LW before it loads.
-/
namespace FiveStage

abbrev Program := List Instruction

namespace Program

def lookup (program : Program) (id : InstructionId) : Option Instruction :=
  program.find? fun instruction => instruction.id == id

private def r (name : String) : Option Register := some ⟨name⟩

/-- A loop body that prints a title, counts, then loads and uses a value before it branches back. -/
def demo : Program :=
  [{ id := 1, opcode := .li, rt := r "V0", immediate := some 4
     source := "LI $V0, 4        ; Load System Call (Print String)" },
   { id := 2, opcode := .la, rt := r "A0"
     source := "LA $A0, title    ; Load Title Address" },
   { id := 3, opcode := .syscall
     source := "SYSCALL          ; Display Project Title" },
   { id := 4, opcode := .addi, rt := r "R1", rs := r "R1", immediate := some 1
     source := "ADDI R1, R1, 1   ; Increment Cycle Counter" },
   { id := 5, opcode := .lw, rt := r "R2", rs := r "R1", immediate := some 0
     source := "LW R2, 0(R1)     ; Data Load (Potential RAW Hazard)" },
   { id := 6, opcode := .add, rd := r "R4", rs := r "R2", rt := r "R3"
     source := "ADD R4, R2, R3   ; ALU Operation (RAW on R2)" },
   { id := 7, opcode := .beq, rs := r "R4", rt := r "R0", immediate := some (-3)
     source := "BEQ R4, R0, LOOP ; Branch Control Hazard" }]

/-- The canonical listing: one instruction a line. -/
def text (program : Program) : String := Text.unlines (program.map Instruction.text)

theorem lookup_id {program : Program} {id : InstructionId} {instruction : Instruction}
    (h : program.lookup id = some instruction) : instruction.id = id := by
  simpa using List.find?_some h

end Program

end FiveStage
