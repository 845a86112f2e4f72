import FiveStage.Isa.Opcode
import FiveStage.Isa.Register

/-!
# Instructions

A decoded instruction, the registers it reads and writes, and its canonical text. Only these two
register lists decide which instructions depend on each other.
-/
namespace FiveStage

/-- The number of an instruction within its program. A parsed program counts from 1. -/
abbrev InstructionId := Nat

def InstructionId.text (id : InstructionId) : String := "I" ++ Nat.repr id

structure Instruction where
  id : InstructionId
  opcode : Opcode
  rd : Option Register := none
  rs : Option Register := none
  rt : Option Register := none
  immediate : Option Int := none
  target : Option String := none
  /-- The statement the instruction was read from, empty if there is none. -/
  source : String := ""
  deriving DecidableEq, Repr

namespace Instruction

def category (i : Instruction) : Category := i.opcode.category

/-- The registers read: rs, then rt. A store reads its data and its base alike. -/
def reads (i : Instruction) : List Register := i.rs.toList ++ i.rt.toList

/-- The registers written: rd, then the rt of a load. -/
def writes (i : Instruction) : List Register :=
  i.rd.toList ++ if i.opcode.isLoad then i.rt.toList else []

/-- Some register read by the one is written by the other. -/
def dependsOn (consumer producer : Instruction) : Bool :=
  consumer.reads.any fun register => producer.writes.contains register

/-- The short form shown in a stage, such as `LW I5`. -/
def label (i : Instruction) : String := i.opcode.name ++ " " ++ InstructionId.text i.id

/-- A missing register shows as a question mark. -/
def registerText (register : Option Register) : String :=
  match register with
  | some register => register.name
  | none => "?"

def immediateText (i : Instruction) : String := Int.repr (i.immediate.getD 0)

/-- The offset of a branch is a number if there is one, else a target. -/
def offsetText (i : Instruction) : String :=
  match i.immediate, i.target with
  | some offset, _ => Int.repr offset
  | none, some target => target
  | none, none => "0"

def pseudoOperands (i : Instruction) : String :=
  match i.opcode, i.rt, i.immediate with
  | .li, rt, some immediate => " " ++ registerText rt ++ ", " ++ Int.repr immediate
  | _, some rt, _ => " " ++ rt.name
  | _, none, _ => ""

/-- The operands in the order of the format, with the blank that separates them from the name. -/
def operands (i : Instruction) : String :=
  let rd := registerText i.rd
  let rs := registerText i.rs
  let rt := registerText i.rt
  match i.opcode.format with
  | .registerRegister => " " ++ rd ++ ", " ++ rs ++ ", " ++ rt
  | .registerImmediate => " " ++ rt ++ ", " ++ rs ++ ", " ++ i.immediateText
  | .memory =>
    match i.rs with
    | some base => " " ++ rt ++ ", " ++ i.immediateText ++ "(" ++ base.name ++ ")"
    | none => " " ++ rt ++ ", " ++ i.immediateText
  | .loadUpper => " " ++ rt ++ ", " ++ i.immediateText
  | .branchEqual => " " ++ rs ++ ", " ++ rt ++ ", " ++ i.offsetText
  | .branchZero => " " ++ rs ++ ", " ++ i.offsetText
  | .jump => " " ++ i.target.getD "?"
  | .jumpRegister => " " ++ rs
  | .pseudo => i.pseudoOperands

/-- The canonical text of an instruction. -/
def text (i : Instruction) : String := i.opcode.name ++ i.operands

/-- The statement as it was written, or the canonical text of an instruction without one. -/
def sourceOrText (i : Instruction) : String := if i.source = "" then i.text else i.source

end Instruction

end FiveStage
