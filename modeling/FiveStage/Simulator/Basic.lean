import FiveStage.Assembly.Basic
import FiveStage.Cycle
import FiveStage.Metrics
import FiveStage.Tick.Source
import FiveStage.Timeline

/-!
# The simulator

A program with its state, a tick source that drives automatic runs, and observers. At most one
tick is pending, and only its handle advances the run. Each change is told to all observers in the
order they were added; the log keeps what they were told. A refused operation changes nothing and
tells nobody.
-/
namespace FiveStage

/-- What one observer was told once. Observers are numbered from 0. -/
structure Notification where
  observer : Nat
  state : State
  program : Program
  deriving DecidableEq, Repr

structure Simulator (σ : Type) where
  config : Config
  program : Program
  state : State := .initial
  ticks : σ
  /-- The handle that the next automatic cycle waits for. -/
  pending : Option TickHandle := none
  /-- The number of observers. -/
  observers : Nat := 0
  log : List Notification := []

namespace Simulator

variable {σ : Type}

/-- Tells every observer the state and the program. -/
def notify (s : Simulator σ) : Simulator σ :=
  { s with log := s.log ++ (List.range s.observers).map fun k => ⟨k, s.state, s.program⟩ }

/-- Adds an observer and answers its number. -/
def observe (s : Simulator σ) : Nat × Simulator σ :=
  (s.observers, { s with observers := s.observers + 1 })

def lookup (s : Simulator σ) (id : InstructionId) : Option Instruction := s.program.lookup id

def timeline (s : Simulator σ) : Timeline :=
  Timeline.build s.state.trace s.program s.config.timelineWidth

def metrics (s : Simulator σ) : Metrics :=
  Metrics.collect s.state s.program.length s.config.nonPipelinedCpi

/-- One cycle, told to the observers unless nothing happened. -/
def advance (s : Simulator σ) : Outcome × Simulator σ :=
  match s.state.advance s.config s.program with
  | (.ignored, _) => (.ignored, s)
  | (outcome, state) => (outcome, { s with state }.notify)

variable [TickSource σ]

/-- Gives up the pending tick. -/
def release (s : Simulator σ) : Simulator σ :=
  match s.pending with
  | none => s
  | some handle => { s with pending := none, ticks := TickSource.cancel s.ticks handle }

/-- Asks for the next tick, in place of any that is pending. -/
def arm (s : Simulator σ) : Simulator σ :=
  let s := s.release
  let (handle, ticks) := TickSource.schedule s.ticks s.config.cycleInterval
  { s with ticks, pending := some handle }

/-- Goes back to the initial state. -/
def init (s : Simulator σ) : Simulator σ := { s.release with state := .initial }.notify

def reset (s : Simulator σ) : Simulator σ := s.init

/-- Begins an automatic run. Refused while one is running and once it is complete. -/
def start (s : Simulator σ) : Bool × Simulator σ :=
  if s.state.status = .running then (false, s)
  else
    match s.state.moveTo? .running with
    | none => (false, s)
    | some state => (true, ({ s with state }.arm).notify)

/-- Halts an automatic run. The pending tick is given up in any case. -/
def pause (s : Simulator σ) : Simulator σ :=
  let s := s.release
  { s with state := (s.state.moveTo? .paused).getD s.state }.notify

/-- One cycle by hand. An automatic run is paused first. -/
def step (s : Simulator σ) : Outcome × Simulator σ :=
  (if s.state.status = .running then s.pause else s).advance

/-- Takes a tick. The pending one is used up and drives a running simulation by one cycle. Any
other handle is stale. -/
def onTick (s : Simulator σ) (handle : TickHandle) : Outcome × Simulator σ :=
  if s.pending = some handle then
    let s := { s with pending := none }
    if s.state.status = .running then
      let (outcome, s) := s.advance
      (outcome, if s.state.status = .running then s.arm else s)
    else (.ignored, s)
  else (.ignored, s)

/-- Takes over the program of a source text and starts from the initial state. -/
def load (s : Simulator σ) (source : String) : Except LoadError Nat × Simulator σ :=
  match Assembly.load source with
  | .error e => (.error e, s)
  | .ok program =>
    (.ok program.length, { s.release with state := .initial, program }.notify)

end Simulator

end FiveStage
