import Mathlib.Logic.Function.Iterate
import FiveStage.Proofs.History
import FiveStage.Proofs.Schedule.Basic

/-!
# Runs in lockstep

The status decides whether there is a cycle, never what it does. So everything in a state but the
status is a function of the cycle number, and two runs of a program that are at the same cycle agree
on all of it, however they were driven there.
-/
namespace FiveStage

def Snapshot.withoutStatus (x : Snapshot) : Snapshot := { x with status := .idle }

namespace State

/-- The state with its status left out, and those of its trace. -/
def withoutStatus (s : State) : State :=
  { s with status := .idle, trace := s.trace.map Snapshot.withoutStatus }

/-- What a cycle does to a state, if it is taken. -/
def proceed (config : Config) (program : Program) (s : State) : State :=
  if 0 < s.stallCounter then s.serveStall.2 else (s.moveOn config program).2

variable {config : Config} {program : Program} {s : State}

theorem withoutStatus_serveStall : s.serveStall.2.withoutStatus = s.withoutStatus.serveStall.2 :=
  rfl

theorem withoutStatus_moveOn : (s.moveOn config program).2.withoutStatus =
    (s.withoutStatus.moveOn config program).2 := by
  have htrace : (s.moveOn config program).2.trace.map Snapshot.withoutStatus =
      s.withoutStatus.trace ++ [s.withoutStatus.toSnapshot] := by
    rw [trace_moveOn, List.map_append]
    rfl
  rw [withoutStatus, htrace]
  rfl

/-- A cycle takes no notice of the status. -/
theorem withoutStatus_proceed :
    (s.proceed config program).withoutStatus = s.withoutStatus.proceed config program := by
  have hcounter : s.withoutStatus.stallCounter = s.stallCounter := rfl
  rw [proceed, proceed, hcounter]
  split
  · exact withoutStatus_serveStall
  · exact withoutStatus_moveOn

theorem Cycled.eq_proceed {t : State} {outcome : Outcome}
    (h : Cycled config program s outcome t) :
    t.cycle = s.cycle + 1 ∧ t.withoutStatus = s.withoutStatus.proceed config program := by
  rw [← withoutStatus_proceed, proceed]
  cases h with
  | served hpos =>
    rw [if_pos hpos]
    exact ⟨rfl, rfl⟩
  | moved hzero _ =>
    rw [if_neg (by omega)]
    exact ⟨rfl, rfl⟩
  | finished hzero _ =>
    rw [if_neg (by omega)]
    exact ⟨rfl, rfl⟩

end State

namespace History

variable {config : Config} {program : Program} {turns : List Turn} {s : State}

/-- A state is, but for its status, what its cycles have made of the initial state. -/
theorem withoutStatus_eq (h : History config program turns s) :
    s.withoutStatus = (State.proceed config program)^[s.cycle] .initial := by
  induction h with
  | initial => rfl
  | move next h hnext hmove ih =>
    rw [eq_of_moveTo hmove]
    exact ih
  | turn h hactive hcycled ih =>
    obtain ⟨hcycle, hproceed⟩ := hcycled.eq_proceed
    rw [hproceed, hcycle, Function.iterate_succ_apply', ih]

theorem lockstep {other : List Turn} {t : State} (hs : History config program turns s)
    (ht : History config program other t) (hcycle : s.cycle = t.cycle) :
    s.withoutStatus = t.withoutStatus := by
  rw [hs.withoutStatus_eq, ht.withoutStatus_eq, hcycle]

end History

/-- Whether an action asks for a restart or for another program. -/
def Action.reloads : Action → Bool
  | .init | .reset | .load _ => true
  | _ => false

theorem Action.restarts_of_not_reloads {action : Action} (h : action.reloads = false)
    (answer : Answer) : action.restarts answer = false := by
  cases action with
  | init => cases h
  | reset => cases h
  | load source => cases h
  | _ => rfl

namespace Simulator

theorem program_performAll (actions : List Action) (s : Simulator TickQueue)
    (h : ∀ action ∈ actions, action.reloads = false) :
    (s.performAll actions).2.program = s.program := by
  induction actions generalizing s with
  | nil => rfl
  | cons action rest ih =>
    obtain ⟨hfirst, hrest⟩ := List.forall_mem_cons.mp h
    exact (ih (s.perform action).2 hrest).trans
      (s.program_perform action (Action.restarts_of_not_reloads hfirst _))

theorem program_ofActions (config : Config) (program : Program) {actions : List Action}
    (h : ∀ action ∈ actions, action.reloads = false) :
    (ofActions config program actions).program = program :=
  (new config program).program_performAll actions h

/-- Two runs of a program without a restart that have come to the same cycle have the same slots,
the same counters and the same log, and their traces differ at most in the recorded status. -/
theorem drive_independent (config : Config) (program : Program) (first second : List Action)
    (hfirst : ∀ action ∈ first, action.reloads = false)
    (hsecond : ∀ action ∈ second, action.reloads = false)
    (hcycle : (ofActions config program first).state.cycle =
      (ofActions config program second).state.cycle) :
    let s := (ofActions config program first).state
    let t := (ofActions config program second).state
    s.pipeline = t.pipeline ∧ s.fetched = t.fetched ∧ s.stallCounter = t.stallCounter ∧
      s.events = t.events ∧
      s.trace.map Snapshot.withoutStatus = t.trace.map Snapshot.withoutStatus := by
  intro s t
  have hs := history_ofActions config program first
  have ht := history_ofActions config program second
  rw [program_ofActions config program hfirst] at hs
  rw [program_ofActions config program hsecond] at ht
  have heq : s.withoutStatus = t.withoutStatus := hs.lockstep ht hcycle
  exact ⟨congrArg (·.pipeline) heq, congrArg (·.fetched) heq, congrArg (·.stallCounter) heq,
    congrArg (·.events) heq, congrArg (·.trace) heq⟩

/-- Ticks and steps are alike in the middle of a stall, though the steps were taken while paused. -/
theorem drive_independent_within_stall :
    let ticks : List Action :=
      [.start, .fire, .deliver 1, .fire, .deliver 2, .fire, .deliver 3, .fire, .deliver 4]
    let steps : List Action :=
      [.start, .step, .step, .observe, .step, .start, .deliver 1, .pause, .start, .advance]
    let s := (ofActions .standard .chain ticks).state
    let t := (ofActions .standard .chain steps).state
    s.cycle = 4 ∧ t.cycle = 4 ∧ s.stallCounter = 1 ∧ s.trace ≠ t.trace ∧
      s.pipeline = t.pipeline ∧ s.events = t.events ∧
      s.trace.map Snapshot.withoutStatus = t.trace.map Snapshot.withoutStatus := by
  intro ticks steps s t
  have hs : s.cycle = 4 := by decide +kernel
  have ht : t.cycle = 4 := by decide +kernel
  obtain ⟨hpipeline, _, _, hevents, htrace⟩ :=
    drive_independent .standard .chain ticks steps (by decide) (by decide) (hs.trans ht.symm)
  refine ⟨hs, ht, ?_, ?_, hpipeline, hevents, htrace⟩
  · decide +kernel
  · decide +kernel

end Simulator

end FiveStage
