import FiveStage.Command.Arguments
import FiveStage.Command.Batch
import FiveStage.Command.Check
import FiveStage.Command.Menu

/-!
# The command line

Files, the terminal and the clock. All else is decided by the commands.
-/
namespace FiveStage.Main

def fileError : IO.Error → FileError
  | .noFileOrDirectory .. => .missing
  | error => .other (toString error)

def readFile (path : String) : IO Reading := do
  try
    let name ← IO.FS.realPath path
    return .ok ⟨name.toString, ← IO.FS.readFile name⟩
  catch error => return .error (fileError error)

def readNamed (path : Option String) : IO (Option Reading) :=
  match path with
  | some path => return some (← readFile path)
  | none => return none

/-- Prints the items of a transcript and answers the exit status. -/
def finish (t : Transcript) : IO UInt32 := do
  IO.print t.stdout
  if let some line := t.errorLine then IO.eprintln line
  return t.exitStatus.toUInt32

def check (request : CheckRequest) : IO UInt32 := do
  let result := Check.run request.strict request.path (← readFile request.path)
  if let (some output, some listing) := (request.output, result.listing) then
    IO.FS.writeFile output listing
  finish result.toTranscript

/-- Timers that keep still until they are waited for. -/
def still : Timing := fun _ => []

def labels : List String :=
  ["Step one cycle", "Run to completion", "Run N cycles", "Reset", "Load program file",
   "Show instructions", "Show timeline", "Show hazard log and metrics", "Quit"]

/-- Asks for a line, and answers none at the end of the input. -/
def prompt (text : String) : IO (Option String) := do
  IO.eprint (text ++ ": ")
  let line ← (← IO.getStdin).getLine
  if line.isEmpty then return none
  return some (String.ofList (line.toList.takeWhile (· != '\n')))

/-- Asks until a line is accepted. -/
partial def promptFor {α : Type} (text : String) (accept : String → Option α) : IO (Option α) := do
  match ← prompt text with
  | none => return none
  | some line =>
    match accept line with
    | some answer => return some answer
    | none => promptFor text accept

/-- The next choice, none to quit. -/
partial def choose : IO (Option Choice) := do
  for (number, label) in (List.range labels.length).zip labels do
    IO.eprintln (Nat.repr (number + 1) ++ " " ++ label)
  match ← prompt "Action" with
  | some "1" => return some .step
  | some "2" => return some .run
  | some "3" => return (← promptFor "Cycles" Prompt.cycles?).map .runCycles
  | some "4" => return some .reset
  | some "5" =>
    match ← promptFor "Program path" Prompt.path? with
    | some path => return some (.load (← readFile path))
    | none => return none
  | some "6" => return some .showProgram
  | some "7" => return some .showTimeline
  | some "8" => return some .showReport
  | some "9" | none => return none
  | some _ => choose

/-- Milliseconds to wait before each item that a choice prints. -/
def pace (s : Session) : Choice → Nat
  | .run | .runCycles _ => s.simulator.config.cycleInterval
  | _ => 0

def printPaced (pause : Nat) (items : List String) : IO Unit := do
  for item in items do
    IO.sleep pause.toUInt32
    IO.println item

partial def menu (s : Session) : IO Unit := do
  match ← choose with
  | none => return
  | some choice =>
    let (printed, next) := Menu.perform s choice
    printPaced (pace s choice) printed
    menu next

def simulate (request : SimulationRequest) : IO UInt32 := do
  let setup := request.setup (← readNamed request.path)
  let terminal ← (← IO.getStdin).isTty
  if request.batch then finish (Batch.run setup still)
  else
    let opening := Menu.transcript setup still terminal []
    let status ← finish opening
    if let (0, (_, .ok session)) := (status, setup.opening still) then menu session
    return status

end FiveStage.Main

def main (words : List String) : IO UInt32 := do
  match FiveStage.Arguments.read words with
  | .ok (.check request) => FiveStage.Main.check request
  | .ok (.simulation request) => FiveStage.Main.simulate request
  | .error error =>
    IO.eprintln ("error: " ++ error.message)
    return 2
