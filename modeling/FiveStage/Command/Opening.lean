import FiveStage.Command.Banner
import FiveStage.Command.Transcript
import FiveStage.Simulator.Session

/-!
# Opening a session

Batch runs and the menu open alike. The configuration is checked, then the banner is printed, then
the program is loaded. Without a file it is the demo program.
-/
namespace FiveStage

structure Setup where
  config : Config := {}
  banner : Bool := true
  /-- What was read for the file that was named, if one was. -/
  file : Option Reading := none

/-- Loads what was read. A failure leaves the program as it is. -/
def Session.loadFile (s : Session) : Reading → Except CommandError Nat × Session
  | .error error => (.error (.file error), s)
  | .ok file =>
    let (loaded, s) := s.load file.text
    (loaded.mapError (.rejected file.name), s)

namespace Setup

/-- What is printed first, and the session, unless there is none. -/
def opening (setup : Setup) (timing : Timing) : List String × Except CommandError Session :=
  match setup.config.validated with
  | .error error => ([], .error (.config error))
  | .ok config =>
    let banner := if setup.banner then [Banner.text] else []
    let session : Session :=
      { simulator := { config, program := Program.demo, ticks := {} }, timing }
    match setup.file with
    | none => (banner, .ok session)
    | some file =>
      match session.loadFile file with
      | (.ok _, session) => (banner, .ok session)
      | (.error error, _) => (banner, .error error)

/-- Opens a session, and goes on with it where that succeeds. -/
def transcript (setup : Setup) (timing : Timing) (body : Session → Transcript) : Transcript :=
  match setup.opening timing with
  | (printed, .error error) => { printed, error := some error }
  | (printed, .ok session) =>
    let rest := body session
    { rest with printed := printed ++ rest.printed }

end Setup

end FiveStage
