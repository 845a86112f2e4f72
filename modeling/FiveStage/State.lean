import FiveStage.Pipeline.Basic

/-!
# Simulation states

A snapshot is the pipeline at the start of a cycle with the counters that belong to it. A state
adds two histories that only grow: the hazard log and the trace of snapshots.
-/
namespace FiveStage

inductive Status
  | idle | running | paused | complete
  deriving DecidableEq, Repr

namespace Status

def all : List Status := [idle, running, paused, complete]

def text : Status → String
  | idle => "IDLE"
  | running => "RUNNING"
  | paused => "PAUSED"
  | complete => "COMPLETE"

/-- Idle runs, a run pauses or completes, a pause runs on or completes. Going back to idle is a
reset and no move. -/
def canMoveTo : Status → Status → Bool
  | idle, running | paused, running => true
  | running, paused => true
  | running, complete | paused, complete => true
  | _, _ => false

end Status

inductive HazardKind
  | readAfterWrite
  deriving DecidableEq, Repr

def HazardKind.text : HazardKind → String
  | readAfterWrite => "RAW"

inductive Resolution
  | stallInserted
  deriving DecidableEq, Repr

def Resolution.text : Resolution → String
  | stallInserted => "Stall inserted"

/-- An entry of the hazard log. -/
structure HazardEvent where
  cycle : Nat
  kind : HazardKind := .readAfterWrite
  /-- The instruction that had to wait. -/
  instruction : InstructionId
  producer : InstructionId
  description : String
  resolution : Resolution := .stallInserted
  deriving DecidableEq, Repr

/-- The entry for a reader that was stalled behind a producer. -/
def HazardEvent.stalled (cycle : Nat) (producer consumer : InstructionId) : HazardEvent where
  cycle := cycle
  instruction := consumer
  producer := producer
  description :=
    "RAW hazard: " ++ InstructionId.text producer ++ " → " ++ InstructionId.text consumer

structure Snapshot where
  cycle : Nat := 0
  status : Status := .idle
  /-- Instructions fetched, and so the place of the next one in the program. -/
  fetched : Nat := 0
  /-- Stall cycles still to be served. -/
  stallCounter : Nat := 0
  pipeline : Pipeline := {}
  deriving DecidableEq, Repr

structure State extends Snapshot where
  events : List HazardEvent := []
  trace : List Snapshot := []
  deriving DecidableEq, Repr

namespace State

/-- Idle at cycle zero with nothing fetched and nothing recorded. -/
def initial : State := {}

/-- Changes the status where the move is allowed. -/
def moveTo? (s : State) (next : Status) : Option State :=
  if s.status.canMoveTo next then some { s with status := next } else none

end State

end FiveStage
