import FiveStage.Isa.Opcode

/-!
# Line errors

Why a source line holds no instruction.
-/
namespace FiveStage

inductive LineError
  /-- The first token, in capitals, is no opcode of the source language. -/
  | unknownOpcode (token : String)
  | missingOperands (opcode : Opcode) (expected found : Nat)
  | invalidImmediate (token : String)
  deriving DecidableEq, Repr

def LineError.message : LineError → String
  | unknownOpcode token => "unknown opcode `" ++ token ++ "`"
  | missingOperands opcode expected found =>
    opcode.name ++ " expects " ++ Nat.repr expected ++ " operand(s), found " ++ Nat.repr found
  | invalidImmediate token => "invalid immediate `" ++ token ++ "`"

end FiveStage
