import FiveStage.Proofs.Loading
import FiveStage.Proofs.Ticks.Handles

/-!
# Restarts

A simulator that was restarted does what a new one with its program does. The tick source goes on
counting, so the handles of the one are those of the other, raised by the number of handles issued
before the restart. None of the earlier handles does anything any more.
-/
namespace FiveStage

/-- The program of a simulator that an action has restarted. -/
def Action.programAfter (program : Program) : Action → Program
  | .load source => (Assembly.ofText source).instructions
  | _ => program

/-- The action with its handle raised. -/
def Action.raise (offset : Nat) : Action → Action
  | .deliver handle => .deliver (handle + offset)
  | .cancel handle => .cancel (handle + offset)
  | action => action

/-- The answer without the number of a handle or an observer. -/
def Answer.unnumbered : Answer → Answer
  | .handle _ => .handle none
  | .observer _ => .observer 0
  | answer => answer

namespace Simulator

/-- Two simulators that differ in their handles, which are raised in the first one, and perhaps in
their queues and observers. -/
structure Mirrors (offset : Nat) (s t : Simulator TickQueue) : Prop where
  config : s.config = t.config
  program : s.program = t.program
  state : s.state = t.state
  pending : s.pending = t.pending.map (· + offset)
  issued : s.ticks.issued = t.ticks.issued + offset

theorem issued_arm (s : Simulator TickQueue) : s.arm.ticks.issued = s.ticks.issued + 1 :=
  congrArg (· + 1) s.issued_release

namespace Mirrors

variable {offset : Nat} {s t : Simulator TickQueue}

theorem withState (h : s.Mirrors offset t) (state : State) :
    ({ s with state } : Simulator TickQueue).Mirrors offset { t with state } :=
  ⟨h.config, h.program, rfl, h.pending, h.issued⟩

theorem notify (h : s.Mirrors offset t) : s.notify.Mirrors offset t.notify :=
  ⟨h.config, h.program, h.state, h.pending, h.issued⟩

theorem advance (h : s.Mirrors offset t) :
    s.advance.1 = t.advance.1 ∧ s.advance.2.Mirrors offset t.advance.2 := by
  have hcycle : s.state.advance s.config s.program = t.state.advance t.config t.program := by
    rw [h.config, h.program, h.state]
  refine ⟨?_, ?_, ?_, ?_, ?_, ?_⟩
  · rw [advance_outcome, advance_outcome, hcycle]
  · rw [config_advance, config_advance, h.config]
  · rw [program_advance, program_advance, h.program]
  · rw [state_advance, state_advance, hcycle]
  · rw [pending_advance, pending_advance, h.pending]
  · rw [ticks_advance, ticks_advance, h.issued]

theorem release (h : s.Mirrors offset t) : s.release.Mirrors offset t.release where
  config := by rw [config_release, config_release, h.config]
  program := by rw [program_release, program_release, h.program]
  state := by rw [state_release, state_release, h.state]
  pending := by rw [pending_release, pending_release, Option.map_none]
  issued := by rw [issued_release, issued_release, h.issued]

theorem arm (h : s.Mirrors offset t) : s.arm.Mirrors offset t.arm where
  config := by rw [config_arm, config_arm, h.config]
  program := by rw [program_arm, program_arm, h.program]
  state := by rw [state_arm, state_arm, h.state]
  pending := by rw [pending_arm, pending_arm, Option.map_some, h.issued, Nat.add_right_comm]
  issued := by rw [issued_arm, issued_arm, h.issued, Nat.add_right_comm]

theorem pause (h : s.Mirrors offset t) : s.pause.Mirrors offset t.pause := by
  have hstate : s.pause.state = t.pause.state := by rw [state_pause, state_pause, h.state]
  have hreleased := h.release
  exact ⟨hreleased.config, hreleased.program, hstate, hreleased.pending, hreleased.issued⟩

theorem init (h : s.Mirrors offset t) : s.init.Mirrors offset t.init :=
  (h.release.withState .initial).notify

theorem step (h : s.Mirrors offset t) :
    s.step.1 = t.step.1 ∧ s.step.2.Mirrors offset t.step.2 := by
  rw [Simulator.step, Simulator.step, h.state]
  split
  · exact h.pause.advance
  · exact h.advance

theorem start (h : s.Mirrors offset t) :
    s.start.1 = t.start.1 ∧ s.start.2.Mirrors offset t.start.2 := by
  rw [Simulator.start, Simulator.start, h.state]
  split
  · exact ⟨rfl, h⟩
  · split
    · exact ⟨rfl, h⟩
    · next state _ => exact ⟨rfl, (h.withState state).arm.notify⟩

/-- A raised handle is pending in the first simulator just if the handle is in the second. -/
theorem pending_iff (h : s.Mirrors offset t) (handle : TickHandle) :
    s.pending = some (handle + offset) ↔ t.pending = some handle := by
  rw [h.pending, Option.map_eq_some_iff]
  constructor
  · rintro ⟨other, hother, hsame⟩
    rwa [← Nat.add_right_cancel hsame]
  · exact fun hhandle => ⟨handle, hhandle, rfl⟩

theorem onTick (h : s.Mirrors offset t) (handle : TickHandle) :
    (s.onTick (handle + offset)).1 = (t.onTick handle).1 ∧
      (s.onTick (handle + offset)).2.Mirrors offset (t.onTick handle).2 := by
  have hused : ({ s with pending := none } : Simulator TickQueue).Mirrors offset
      { t with pending := none } := ⟨h.config, h.program, h.state, rfl, h.issued⟩
  have hsame : s.state.status = .running ↔ t.state.status = .running := by rw [h.state]
  by_cases hpending : t.pending = some handle
  · rw [Simulator.onTick, Simulator.onTick, if_pos hpending,
      if_pos ((h.pending_iff handle).mpr hpending)]
    dsimp only
    by_cases hrunning : t.state.status = .running
    · rw [if_pos hrunning, if_pos (hsame.mpr hrunning)]
      obtain ⟨houtcome, hcycled⟩ := hused.advance
      refine ⟨houtcome, ?_⟩
      dsimp only
      rw [hcycled.state]
      split
      · exact hcycled.arm
      · exact hcycled
    · rw [if_neg hrunning, if_neg (mt hsame.mp hrunning)]
      exact ⟨rfl, hused⟩
  · rw [onTick_of_stale hpending, onTick_of_stale (mt (h.pending_iff handle).mp hpending)]
    exact ⟨rfl, h⟩

theorem load (h : s.Mirrors offset t) (source : String) :
    (s.load source).1 = (t.load source).1 ∧
      (s.load source).2.Mirrors offset (t.load source).2 := by
  unfold Simulator.load
  split
  · exact ⟨rfl, h⟩
  · have hreleased := h.release
    exact ⟨rfl, hreleased.config, rfl, rfl, hreleased.pending, hreleased.issued⟩

theorem perform (h : s.Mirrors offset t) (action : Action) :
    (s.perform (action.raise offset)).1.unnumbered = (t.perform action).1.unnumbered ∧
      (s.perform (action.raise offset)).2.Mirrors offset (t.perform action).2 := by
  cases action with
  | start => exact ⟨congrArg Answer.started h.start.1, h.start.2⟩
  | pause => exact ⟨rfl, h.pause⟩
  | step => exact ⟨congrArg Answer.outcome h.step.1, h.step.2⟩
  | advance => exact ⟨congrArg Answer.outcome h.advance.1, h.advance.2⟩
  | deliver handle => exact ⟨congrArg Answer.outcome (h.onTick handle).1, (h.onTick handle).2⟩
  | init => exact ⟨rfl, h.init⟩
  | reset => exact ⟨rfl, h.init⟩
  | load source => exact ⟨congrArg Answer.loaded (h.load source).1, (h.load source).2⟩
  | observe => exact ⟨rfl, h.config, h.program, h.state, h.pending, h.issued⟩
  | schedule =>
    refine ⟨rfl, h.config, h.program, h.state, h.pending, ?_⟩
    show s.ticks.issued + 1 = t.ticks.issued + 1 + offset
    rw [h.issued, Nat.add_right_comm]
  | cancel handle => exact ⟨rfl, h.config, h.program, h.state, h.pending, h.issued⟩
  | fire => exact ⟨rfl, h.config, h.program, h.state, h.pending, h.issued⟩

theorem performAll (actions : List Action) (h : s.Mirrors offset t) :
    (s.performAll (actions.map (Action.raise offset))).1.map Answer.unnumbered =
        (t.performAll actions).1.map Answer.unnumbered ∧
      (s.performAll (actions.map (Action.raise offset))).2.Mirrors offset
        (t.performAll actions).2 := by
  induction actions generalizing s t with
  | nil => exact ⟨rfl, h⟩
  | cons action rest ih =>
    obtain ⟨hanswer, hnext⟩ := h.perform action
    obtain ⟨hanswers, hlast⟩ := ih hnext
    refine ⟨?_, hlast⟩
    rw [List.map_cons, Simulator.performAll, Simulator.performAll, List.map_cons, List.map_cons,
      hanswer, hanswers]

theorem metrics (h : s.Mirrors offset t) : s.metrics = t.metrics := by
  rw [Simulator.metrics, Simulator.metrics, h.config, h.program, h.state]

theorem timeline (h : s.Mirrors offset t) : s.timeline = t.timeline := by
  rw [Simulator.timeline, Simulator.timeline, h.config, h.program, h.state]

end Mirrors

/-- What a restart leaves, whatever was there before. -/
theorem perform_of_restarts {s : Simulator TickQueue} {action : Action}
    (h : action.restarts (s.perform action).1 = true) :
    (s.perform action).2.program = action.programAfter s.program ∧
      (s.perform action).2.state = .initial ∧ (s.perform action).2.pending = none ∧
      (s.perform action).2.ticks.issued = s.ticks.issued := by
  cases action with
  | init => exact ⟨s.program_release, rfl, s.pending_release, s.issued_release⟩
  | reset => exact ⟨s.program_release, rfl, s.pending_release, s.issued_release⟩
  | load source =>
    simp only [perform, load] at h ⊢
    split at h
    · cases h
    · next program hload =>
      exact ⟨Assembly.eq_of_load hload, rfl, s.pending_release, s.issued_release⟩
  | _ => cases h

/-- A restart, or a load that succeeds, leaves nothing of what was before. The state is initial and
no tick is pending. Whatever is done from there on has the answers of a new simulator with the same
configuration and program, and leads to the same state, figures and timeline. Its handles are those
of the new one, raised by the number of handles issued before, and of these none has any effect,
whenever it is delivered. -/
theorem restart_forgets (s : Simulator TickQueue) (action : Action)
    (hrestarts : action.restarts (s.perform action).1 = true) :
    let t := (s.perform action).2
    let offset := s.ticks.issued
    t.program = action.programAfter s.program ∧ t.state = .initial ∧ t.pending = none ∧
      (∀ later,
        let now := t.performAll (later.map (Action.raise offset))
        let anew := (new s.config t.program).performAll later
        now.1.map Answer.unnumbered = anew.1.map Answer.unnumbered ∧
          now.2.state = anew.2.state ∧ now.2.metrics = anew.2.metrics ∧
          now.2.timeline = anew.2.timeline ∧
          now.2.pending = anew.2.pending.map (· + offset) ∧
          now.2.ticks.issued = anew.2.ticks.issued + offset) ∧
      ∀ handle ≤ offset, ∀ later,
        let u := (t.performAll later).2
        u.onTick handle = (.ignored, u) := by
  intro t offset
  obtain ⟨hprogram, hstate, hpending, hissued⟩ := perform_of_restarts hrestarts
  refine ⟨hprogram, hstate, hpending, ?_, ?_⟩
  · intro later now anew
    have hnew : t.Mirrors offset (new s.config t.program) :=
      ⟨s.config_perform action, rfl, hstate, hpending, hissued.trans (Nat.zero_add _).symm⟩
    obtain ⟨hanswers, hlast⟩ := hnew.performAll later
    exact ⟨hanswers, hlast.state, hlast.metrics, hlast.timeline, hlast.pending, hlast.issued⟩
  · intro handle hold later u
    have hspent : t.Spent handle := by
      refine ⟨hold.trans (Nat.le_of_eq hissued.symm), ?_⟩
      rw [show t.pending = none from hpending]
      exact nofun
    exact onTick_of_stale (hspent.performAll later).2

/-- A program is loaded in the middle of a stall, while the fourth tick of a run has been fired and
is still under way. -/
theorem restart_forgets_under_way :
    let s := ofActions .standard .chain
      [.start, .fire, .deliver 1, .fire, .deliver 2, .fire, .deliver 3, .fire]
    let load : Action := .load "LW R1, 0(R0)\nADD R2, R1, R1"
    let t := (s.perform load).2
    let later : List Action := [.start, .deliver 1, .pause, .start, .deliver 3, .step, .step]
    let now := (t.performAll (later.map (Action.raise 4))).2
    s.pending = some 4 ∧ s.ticks.issued = 4 ∧ s.state.stallCounter = 2 ∧
      load.restarts (s.perform load).1 = true ∧ t.state = .initial ∧ t.program.length = 2 ∧
      now.state = ((new s.config t.program).performAll later).2.state ∧
      now.state.stallCounter = 1 ∧ now.onTick 4 = (.ignored, now) := by
  intro s load t later now
  have hrestarts : load.restarts (s.perform load).1 = true := by decide +kernel
  have hissued : s.ticks.issued = 4 := by decide +kernel
  obtain ⟨_, hstate, _, hlater, hold⟩ := restart_forgets s load hrestarts
  refine ⟨by decide +kernel, hissued, by decide +kernel, hrestarts, hstate, by decide +kernel, ?_,
    by decide +kernel, ?_⟩
  · have hsame := (hlater later).2.1
    rw [hissued] at hsame
    dsimp only [now, t]
    exact hsame
  · exact hold 4 (Nat.le_of_eq hissued.symm) _

end Simulator

end FiveStage
