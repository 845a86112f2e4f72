import FiveStage.Command.Opening
import FiveStage.View.Simulation

/-!
# The menu

Each choice acts on the session and prints some items. A choice that is refused says so and leaves
the session as it is. The menu ends when there is no further choice.
-/
namespace FiveStage

inductive Choice
  | step
  | run
  | runCycles (limit : Nat)
  | reset
  | load (file : Reading)
  | showProgram
  | showTimeline
  | showReport

namespace Menu

def view (s : Session) : String := View.simulation s.simulator

def program (s : Session) : String := View.program s.simulator.program

/-- The answer to a choice that the status does not allow. -/
def refusal (s : Session) (wish : String) : String :=
  "Simulation is " ++ s.status.text ++ ", reset to " ++ wish ++ " again"

/-- One cycle by hand. An idle simulation is started first. -/
def step (s : Session) : List String × Session :=
  let (outcome, s) := (if s.status = .idle then s.start.2 else s).step
  ((if outcome = .ignored then [refusal s "step"] else []) ++ [view s], s)

/-- An automatic run up to the end or a limit. -/
def run (limit : Option Nat) (s : Session) : List String × Session :=
  let (accepted, s) := if s.status = .running then (true, s) else s.start
  if accepted then
    let (seen, s) := s.run limit
    (seen.map View.simulation, s)
  else ([refusal s "run"], s)

def load (file : Reading) (s : Session) : List String × Session :=
  match s.loadFile file with
  | (.ok count, s) => (["Loaded " ++ Nat.repr count ++ " instruction(s)", program s], s)
  | (.error error, s) => ([error.message ++ ". Please check the syntax and try again."], s)

def perform (s : Session) : Choice → List String × Session
  | .step => step s
  | .run => run none s
  | .runCycles limit => run (some limit) s
  | .reset => ([view s.reset], s.reset)
  | .load file => load file s
  | .showProgram => ([program s], s)
  | .showTimeline => ([View.timeline s.simulator.timeline], s)
  | .showReport =>
    ([View.hazards s.simulator.state.events, View.metrics s.simulator.metrics], s)

/-- Performs the choices one after the other. -/
def performAll (s : Session) : List Choice → List String × Session
  | [] => ([], s)
  | choice :: rest =>
    let (printed, next) := perform s choice
    let (later, last) := performAll next rest
    (printed ++ later, last)

/-- What is printed before the first choice. -/
def greeting (s : Session) : List String := [program s, view s]

def ofSession (terminal : Bool) (choices : List Choice) (s : Session) : Transcript :=
  if terminal then { printed := greeting s ++ (performAll s choices).1 }
  else { printed := greeting s, error := some .noTerminal }

def transcript (setup : Setup) (timing : Timing) (terminal : Bool) (choices : List Choice) :
    Transcript :=
  setup.transcript timing (ofSession terminal choices)

end Menu

end FiveStage
