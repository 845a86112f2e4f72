import FiveStage.Assembly.MemoryOperand
import FiveStage.Isa.Instruction

/-!
# Statements

A line without its comment, its label and the blanks around them is a statement: an opcode and its
operands. Blanks, commas and parentheses separate tokens. Of several faults the first of these is
reported: an unknown opcode, too few operands, an invalid immediate. Extra operands are ignored.
-/
namespace FiveStage.Assembly

/-- The characters that open a comment. -/
def isMarker (c : Char) : Bool := c == '#' || c == ';'

/-- Drops one label from the front, with the blanks after it. -/
def dropLabel (cs : List Char) : List Char :=
  match cs.takeWhile Text.isLabelChar, cs.dropWhile Text.isLabelChar with
  | c :: _, ':' :: rest => if Text.isLabelStart c then Text.trim rest else cs
  | _, _ => cs

/-- The statement on a line, empty if there is none. -/
def statement (line : List Char) : List Char :=
  dropLabel (Text.trim (line.takeWhile fun c => !isMarker c))

def isSeparator (c : Char) : Bool := Text.isBlank c || c == ',' || c == '(' || c == ')'

def tokens (code : List Char) : List (List Char) := Text.fields isSeparator code

/-- The separators between the parts of a load or store, parentheses left to the operand. -/
def isGap (c : Char) : Bool := Text.isBlank c || c == ','

/-- What follows the opcode and rt of a load or store. -/
def memoryText (code : List Char) : List Char :=
  List.intercalate [' '] ((Text.fields isGap code).drop 2)

/-- The opcodes a statement may use. -/
def sourceOpcode? (token : List Char) : Option Opcode :=
  (Opcode.ofName? token).filter fun op => op.format != .pseudo

/-- A branch goes to a numeric offset if its token is one, and else to a target. -/
def withOffset (i : Instruction) (token : List Char) : Instruction :=
  match immediate? token with
  | some offset => { i with immediate := some offset }
  | none => { i with target := some (String.ofList token) }

/-- Sets the operand fields of the instruction's format. -/
def readOperands (i : Instruction) (code : List Char) (operands : List (List Char)) :
    Except LineError Instruction :=
  let register (token : List Char) := some (Register.ofChars token)
  match i.opcode.format, operands with
  | .registerRegister, rd :: rs :: rt :: _ =>
    .ok { i with rd := register rd, rs := register rs, rt := register rt }
  | .registerImmediate, rt :: rs :: token :: _ =>
    (immediate token).map fun value =>
      { i with rt := register rt, rs := register rs, immediate := some value }
  | .memory, rt :: _ :: _ =>
    let address := MemoryOperand.ofChars (memoryText code)
    .ok { i with rt := register rt, immediate := some address.offset, rs := address.base }
  | .loadUpper, rt :: token :: _ =>
    (immediate token).map fun value => { i with rt := register rt, immediate := some value }
  | .branchEqual, rs :: rt :: token :: _ =>
    .ok (withOffset { i with rs := register rs, rt := register rt } token)
  | .branchZero, rs :: token :: _ => .ok (withOffset { i with rs := register rs } token)
  | .jump, target :: _ => .ok { i with target := some (String.ofList target) }
  | .jumpRegister, rs :: _ => .ok { i with rs := register rs }
  | .pseudo, _ => .error (.unknownOpcode i.opcode.name)
  | format, _ => .error (.missingOperands i.opcode format.operandCount operands.length)

/-- Reads a statement as the instruction with the given number. -/
def readStatement (id : InstructionId) (code : List Char) : Except LineError Instruction :=
  match tokens code with
  | [] => .error (.unknownOpcode "")
  | name :: operands =>
    match sourceOpcode? name with
    | none => .error (.unknownOpcode (String.ofList (Text.upperCase name)))
    | some op => readOperands { id, opcode := op, source := String.ofList code } code operands

end FiveStage.Assembly
