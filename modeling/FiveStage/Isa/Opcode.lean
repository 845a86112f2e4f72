import FiveStage.Text.Ascii

/-!
# Opcodes

The operations of the machine. Each has an operand format, a display category, and a name in
capitals. LI, LA and SYSCALL are pseudo operations: a program may hold them, a source line may not.
-/
namespace FiveStage

inductive Opcode
  | add | sub | and | or | nor | xor | slt | sltu
  | addi | andi | ori | xori | slti
  | lw | sw | lh | lhu | lbu | lb | sh | sb
  | lui
  | beq | bne | bltz | bgtz | blez | bgez
  | j | jr | jal
  | li | la | syscall
  deriving DecidableEq, Repr

/-- The operands an instruction family is written with, in order. -/
inductive Format
  /-- rd, rs, rt -/
  | registerRegister
  /-- rt, rs, immediate -/
  | registerImmediate
  /-- rt, immediate(rs) -/
  | memory
  /-- rt, immediate -/
  | loadUpper
  /-- rs, rt, offset -/
  | branchEqual
  /-- rs, offset -/
  | branchZero
  /-- target -/
  | jump
  /-- rs -/
  | jumpRegister
  /-- Not written in a source text. -/
  | pseudo
  deriving DecidableEq, Repr

/-- The operands a statement of this format needs. -/
def Format.operandCount : Format → Nat
  | registerRegister | registerImmediate | branchEqual => 3
  | memory | loadUpper | branchZero => 2
  | jump | jumpRegister => 1
  | pseudo => 0

/-- The groups that listings show. -/
inductive Category
  | arithmetic | memory | branch | jump | system | unknown
  deriving DecidableEq, Repr

namespace Category

def all : List Category := [arithmetic, memory, branch, jump, system, unknown]

def text : Category → String
  | arithmetic => "arith"
  | memory => "mem"
  | branch => "branch"
  | jump => "jump"
  | system => "sys"
  | unknown => "unknown"

/-- Reads a category as it is shown, letter for letter. -/
def ofText? (s : String) : Option Category := all.find? fun category => category.text == s

end Category

namespace Opcode

/-- All opcodes, family by family. -/
def all : List Opcode :=
  [add, sub, and, or, nor, xor, slt, sltu, addi, andi, ori, xori, slti,
   lw, sw, lh, lhu, lbu, lb, sh, sb, lui, beq, bne, bltz, bgtz, blez, bgez, j, jr, jal,
   li, la, syscall]

def name : Opcode → String
  | add => "ADD" | sub => "SUB" | and => "AND" | or => "OR"
  | nor => "NOR" | xor => "XOR" | slt => "SLT" | sltu => "SLTU"
  | addi => "ADDI" | andi => "ANDI" | ori => "ORI" | xori => "XORI" | slti => "SLTI"
  | lw => "LW" | sw => "SW" | lh => "LH" | lhu => "LHU"
  | lbu => "LBU" | lb => "LB" | sh => "SH" | sb => "SB"
  | lui => "LUI"
  | beq => "BEQ" | bne => "BNE" | bltz => "BLTZ" | bgtz => "BGTZ" | blez => "BLEZ" | bgez => "BGEZ"
  | j => "J" | jr => "JR" | jal => "JAL"
  | li => "LI" | la => "LA" | syscall => "SYSCALL"

/-- Reads the name of an opcode in any letter case. -/
def ofName? (token : List Char) : Option Opcode :=
  all.find? fun op => op.name.toList == Text.upperCase token

def format : Opcode → Format
  | add | sub | and | or | nor | xor | slt | sltu => .registerRegister
  | addi | andi | ori | xori | slti => .registerImmediate
  | lw | sw | lh | lhu | lbu | lb | sh | sb => .memory
  | lui => .loadUpper
  | beq | bne => .branchEqual
  | bltz | bgtz | blez | bgez => .branchZero
  | j | jal => .jump
  | jr => .jumpRegister
  | li | la | syscall => .pseudo

def category (op : Opcode) : Category :=
  match op.format with
  | .registerRegister | .registerImmediate => .arithmetic
  | .memory | .loadUpper => .memory
  | .branchEqual | .branchZero => .branch
  | .jump | .jumpRegister => .jump
  | .pseudo =>
    match op with
    | li => .arithmetic
    | la => .memory
    | syscall => .system
    | _ => .unknown

/-- Loads write their rt operand. -/
def isLoad : Opcode → Bool
  | lw | lh | lhu | lb | lbu => true
  | _ => false

def isStore : Opcode → Bool
  | sw | sh | sb => true
  | _ => false

theorem mem_all (op : Opcode) : op ∈ all := by cases op <;> decide

theorem ofName?_name (op : Opcode) : ofName? op.name.toList = some op := by
  cases op <;> decide +kernel

end Opcode

end FiveStage
