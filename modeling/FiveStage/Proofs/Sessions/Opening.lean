import FiveStage.Command.Opening
import FiveStage.Proofs.Sessions.Calls

/-!
# How a session opens

A session opens just if the configuration is valid and there is a program, and it has not taken a
cycle then. The timers make no difference to whether it opens, since none is set yet.
-/
namespace FiveStage

/-- The program in what was read, or why there is none. -/
def readProgram : Reading → Except CommandError Program
  | .error error => .error (.file error)
  | .ok file => (Assembly.load file.text).mapError (.rejected file.name)

/-- The program to begin with: the demo program, or the one in the file that was named. -/
def Setup.loaded (setup : Setup) : Except CommandError Program :=
  match setup.file with
  | none => .ok Program.demo
  | some reading => readProgram reading

/-- What is printed ahead of everything else. -/
def Setup.headings (setup : Setup) : List String := if setup.banner then [Banner.text] else []

/-- A simulator that has not been put to use. -/
structure Simulator.Fresh (config : Config) (program : Program) (s : Simulator TimerPool) : Prop
    where
  attended : s.Attended
  config : s.config = config
  program : s.program = program
  state : s.state = .initial
  observers : s.observers = 0
  log : s.log = []

namespace Simulator

variable {config : Config} {program other : Program} {s : Simulator TimerPool}

theorem fresh_new (config : Config) (program : Program) :
    Fresh config program { config, program, ticks := {} } where
  attended := Tended.stopped ⟨TimerPool.sound_empty, rfl⟩ rfl State.initial_not_running
  config := rfl
  program := rfl
  state := rfl
  observers := rfl
  log := rfl

/-- Another program takes the place of the first one, and nobody is told. -/
theorem Fresh.load (h : s.Fresh config other) {source : String}
    (hload : Assembly.load source = .ok program) : (s.load source).2.Fresh config program := by
  have hattended := h.attended.load source
  unfold Simulator.load at hattended ⊢
  rw [hload] at hattended ⊢
  refine ⟨hattended, ?_, rfl, rfl, ?_, ?_⟩
  · exact s.config_release.trans h.config
  · exact s.observers_release.trans h.observers
  · show s.release.log ++ (List.range s.release.observers).map _ = []
    rw [log_release, observers_release, h.log, h.observers]
    rfl

end Simulator

namespace Session

theorem load_answer (s : Session) (source : String) :
    (s.load source).1 = (Assembly.load source).map List.length := by
  show (s.elapse.simulator.load source).1 = _
  unfold Simulator.load
  split
  · next hload =>
    rw [hload]
    rfl
  · next hload =>
    rw [hload]
    rfl

theorem loadFile_answer (s : Session) (reading : Reading) :
    (s.loadFile reading).1 = (readProgram reading).map List.length := by
  cases reading with
  | error error => rfl
  | ok file =>
    show (s.load file.text).1.mapError _ = _
    rw [load_answer, readProgram]
    cases Assembly.load file.text <;> rfl

variable {s : Session} {reading : Reading}

theorem loadFile_of_error {e : CommandError} (h : readProgram reading = .error e) :
    s.loadFile reading = (.error e, (s.loadFile reading).2) := by
  refine Prod.ext ?_ rfl
  rw [loadFile_answer, h]
  rfl

theorem loadFile_of_ok {program : Program} (h : readProgram reading = .ok program) :
    s.loadFile reading = (.ok program.length, (s.loadFile reading).2) := by
  refine Prod.ext ?_ rfl
  rw [loadFile_answer, h]
  rfl

theorem attended_loadFile (h : s.simulator.Attended) (reading : Reading) :
    (s.loadFile reading).2.simulator.Attended := by
  cases reading with
  | error error => exact h
  | ok file => exact attended_load h file.text

theorem fresh_loadFile {config : Config} {program other : Program}
    (h : s.simulator.Fresh config other) (hread : readProgram reading = .ok program) :
    (s.loadFile reading).2.simulator.Fresh config program := by
  have hfresh : s.elapse.simulator.Fresh config other :=
    ⟨attended_elapse h.attended, h.config, h.program, h.state, h.observers, h.log⟩
  cases reading with
  | error error => cases hread
  | ok file =>
    apply hfresh.load
    rw [readProgram] at hread
    cases hload : Assembly.load file.text with
    | error e =>
      rw [hload] at hread
      cases hread
    | ok found =>
      rw [hload] at hread
      cases hread
      rfl

end Session

namespace Setup

variable {setup : Setup} {config : Config} (timing : Timing)

theorem opening_of_invalid {e : ConfigError} (h : setup.config.validated = .error e) :
    setup.opening timing = ([], .error (.config e)) := by
  rw [opening, h]

theorem opening_of_unloaded (hconfig : setup.config.validated = .ok config) {e : CommandError}
    (hloaded : setup.loaded = .error e) : setup.opening timing = (setup.headings, .error e) := by
  unfold loaded at hloaded
  rw [opening, hconfig]
  cases hfile : setup.file with
  | none =>
    rw [hfile] at hloaded
    cases hloaded
  | some reading =>
    rw [hfile] at hloaded
    dsimp only
    rw [Session.loadFile_of_error hloaded]
    rfl

theorem opening_of_loaded (hconfig : setup.config.validated = .ok config) {program : Program}
    (hloaded : setup.loaded = .ok program) : ∃ s : Session,
      setup.opening timing = (setup.headings, .ok s) ∧ s.simulator.Fresh config program := by
  have hnew := Simulator.fresh_new config Program.demo
  unfold loaded at hloaded
  rw [opening, hconfig]
  cases hfile : setup.file with
  | none =>
    rw [hfile] at hloaded
    cases hloaded
    exact ⟨_, rfl, hnew⟩
  | some reading =>
    rw [hfile] at hloaded
    dsimp only
    rw [Session.loadFile_of_ok hloaded]
    exact ⟨_, rfl, Session.fresh_loadFile hnew hloaded⟩

end Setup

end FiveStage
