import FiveStage.Command.Prompt
import FiveStage.Command.Request

/-!
# Arguments

The words after the program's name. The first word `check` asks for a check of a file, and all
others are a simulation. An option that takes a value has it in the next word or after an equals
sign.
-/
namespace FiveStage

inductive UsageError
  | unknownOption (name : String)
  | missingValue (name : String)
  | badNumber (name value : String)
  | extraArgument (text : String)
  | missingFile

def UsageError.message : UsageError → String
  | unknownOption name => "unexpected argument " ++ name
  | missingValue name => "a value is required for " ++ name
  | badNumber name value => "invalid value " ++ value ++ " for " ++ name
  | extraArgument text => "unexpected argument " ++ text
  | missingFile => "a file is required"

namespace Arguments

/-- What one or two words ask for. -/
inductive Item
  | flag (name : String)
  | option (name value : String)
  | positional (text : String)

def valueOptions : List String :=
  ["--interval-ms", "--load-stall-cycles", "--stall-cycles", "--timeline-width", "--output-path",
   "-o"]

def takesValue (word : String) : Bool := valueOptions.contains word

/-- An item of one word. -/
def item (word : String) : Except UsageError Item :=
  let cs := word.toList
  let name := String.ofList (cs.takeWhile (· != '='))
  if takesValue word then .error (.missingValue word)
  else if takesValue name then .ok (.option name (String.ofList ((cs.dropWhile (· != '=')).drop 1)))
  else if cs.head? = some '-' then .ok (.flag word)
  else .ok (.positional word)

def items : List String → Except UsageError (List Item)
  | [] => .ok []
  | [word] => return [← item word]
  | word :: next :: rest =>
    if takesValue word then return .option word next :: (← items rest)
    else return (← item word) :: (← items (next :: rest))

def number (name value : String) : Except UsageError Nat :=
  match Prompt.counter? value.toList with
  | some n => .ok n
  | none => .error (.badNumber name value)

def addToSimulation (r : SimulationRequest) : Item → Except UsageError SimulationRequest
  | .flag "--batch" => .ok { r with batch := true }
  | .flag "--no-banner" => .ok { r with banner := false }
  | .option "--interval-ms" value =>
    return { r with options.interval := ← number "--interval-ms" value }
  | .option "--load-stall-cycles" value =>
    return { r with options.loadStall := ← number "--load-stall-cycles" value }
  | .option "--stall-cycles" value =>
    return { r with options.defaultStall := ← number "--stall-cycles" value }
  | .option "--timeline-width" value =>
    return { r with options.timelineWidth := ← number "--timeline-width" value }
  | .flag name | .option name _ => .error (.unknownOption name)
  | .positional text =>
    if r.path.isSome then .error (.extraArgument text) else .ok { r with path := some text }

def addToCheck (r : CheckRequest) : Item → Except UsageError CheckRequest
  | .flag "--strict" => .ok { r with strict := true }
  | .flag "--verbose" | .flag "-v" => .ok r
  | .option "--output-path" value | .option "-o" value => .ok { r with output := some value }
  | .flag name | .option name _ => .error (.unknownOption name)
  | .positional text => .error (.extraArgument text)

def positional? : Item → Option String
  | .positional text => some text
  | _ => none

/-- Reads a check. Its first word that belongs to no option is the file. -/
def readCheck (asked : List Item) : Except UsageError CheckRequest :=
  match asked.findSome? positional? with
  | none => .error .missingFile
  | some path => (asked.eraseP fun i => (positional? i).isSome).foldlM addToCheck { path }

def readSimulation (asked : List Item) : Except UsageError SimulationRequest :=
  asked.foldlM addToSimulation {}

def read : List String → Except UsageError Request
  | "check" :: words => return .check (← readCheck (← items words))
  | words => return .simulation (← readSimulation (← items words))

end Arguments

end FiveStage
