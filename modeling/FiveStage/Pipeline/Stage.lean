/-!
# Stages

The five stages in the order an instruction passes them, and the marks that hazards leave on the
instruction in a stage.
-/
namespace FiveStage

inductive Stage
  | fetch | decode | execute | memory | writeBack
  deriving DecidableEq, Repr

namespace Stage

def all : List Stage := [fetch, decode, execute, memory, writeBack]

def text : Stage → String
  | fetch => "IF"
  | decode => "ID"
  | execute => "EX"
  | memory => "MEM"
  | writeBack => "WB"

/-- Stages passed before this one. -/
def index : Stage → Nat
  | fetch => 0
  | decode => 1
  | execute => 2
  | memory => 3
  | writeBack => 4

/-- In the last two stages a result is far enough along to be forwarded. -/
def canForward : Stage → Bool
  | memory | writeBack => true
  | fetch | decode | execute => false

end Stage

/-- What a hazard left on an instruction, carried along as it moves. -/
inductive Tag
  | stall
  /-- A value came from the producer in this stage. -/
  | forward (stage : Stage)
  deriving DecidableEq, Repr

def Tag.text : Tag → String
  | stall => "STALL"
  | forward stage => "FWD-" ++ stage.text

end FiveStage
