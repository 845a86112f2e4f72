import FiveStage.Proofs.History
import FiveStage.Proofs.Loading
import FiveStage.Proofs.Schedule.Basic

/-!
# Refused operations

A start, a cycle or a load that is refused leaves the whole simulator as it was, ticks and
notifications included, so a run goes on as if it had never been asked for. Whether it is refused
depends on the status alone, or on the text alone.
-/
namespace FiveStage

/-- Whether the answer to a start, a cycle by hand or a load says that it was refused. -/
def Action.refusedBy : Action → Answer → Bool
  | .start, .started accepted => !accepted
  | .step, .outcome outcome | .advance, .outcome outcome => outcome = .ignored
  | .load _, .loaded result => !result.isOk
  | _, _ => false

namespace State

theorem active_iff (s : State) : s.Active ↔ ¬ (s.status = .idle ∨ s.status = .complete) := by
  unfold Active
  cases s.status <;> decide

/-- Only a state that takes no cycles ignores one. -/
theorem advance_eq_ignored_iff (config : Config) (program : Program) (s : State) :
    (s.advance config program).1 = .ignored ↔ s.status = .idle ∨ s.status = .complete := by
  constructor
  · intro hignored
    by_contra hother
    exact ((s.active_iff.mpr hother).cycled config program).ne_ignored hignored
  · intro hs
    by_contra hcycle
    exact s.active_iff.mp (cycled_advance hcycle).1 hs

theorem stopped_halt_iff (s : State) :
    s.halt.status = .idle ∨ s.halt.status = .complete ↔
      s.status = .idle ∨ s.status = .complete := by
  unfold halt moveTo?
  cases hs : s.status <;> simp [hs, Status.canMoveTo]

end State

namespace Simulator

section Cycle

variable {σ : Type} {s : Simulator σ}

theorem advance_of_stopped (hs : s.state.status = .idle ∨ s.state.status = .complete) :
    s.advance = (.ignored, s) := by
  have hignored := (s.state.advance_eq_ignored_iff s.config s.program).mpr hs
  unfold advance
  split
  · rfl
  · next outcome state hother he => exact absurd ((congrArg Prod.fst he).symm.trans hignored) hother

variable [TickSource σ]

theorem step_of_stopped (hs : s.state.status = .idle ∨ s.state.status = .complete) :
    s.step = (.ignored, s) := by
  have hno : s.state.status ≠ .running := by
    rcases hs with hs | hs <;> rw [hs] <;> decide
  rw [step, if_neg hno, advance_of_stopped hs]

theorem start_of_refused (hs : s.state.status = .running ∨ s.state.status = .complete) :
    s.start = (false, s) := by
  unfold start
  rcases hs with hs | hs
  · rw [if_pos hs]
  · simp [State.moveTo?, hs, Status.canMoveTo]

theorem load_of_error {source : String} {e : LoadError} (h : Assembly.load source = .error e) :
    s.load source = (.error e, s) := by
  rw [load, h]

end Cycle

/-- A load fails as the reading of its text fails. -/
theorem load_eq_error_iff {σ : Type} [TickSource σ] (s : Simulator σ) (source : String)
    (e : LoadError) : (s.load source).1 = .error e ↔ Assembly.load source = .error e := by
  unfold load
  split
  · next other he => rw [he, Except.error.injEq, Except.error.injEq]
  · next program hp =>
    rw [hp]
    exact iff_of_false nofun nofun

/-- What is refused: a start of a run that goes on or is complete, a cycle of one that is idle or
complete, a text without an instruction. -/
def refuses (s : Simulator TickQueue) : Action → Bool
  | .start => s.state.status = .running ∨ s.state.status = .complete
  | .step | .advance => s.state.status = .idle ∨ s.state.status = .complete
  | .load source => (Assembly.ofText source).instructions = []
  | _ => false

theorem started_start (s : Simulator TickQueue) : s.start.1 = true ↔
    ¬ (s.state.status = .running ∨ s.state.status = .complete) := by
  unfold start State.moveTo?
  cases hs : s.state.status <;> simp [Status.canMoveTo]

/-- An action is refused, by its answer, just if it is one of those. -/
theorem refusedBy_perform (s : Simulator TickQueue) (action : Action) :
    action.refusedBy (s.perform action).1 = s.refuses action := by
  rw [Bool.eq_iff_iff]
  cases action with
  | start =>
    show (!s.start.1) = true ↔ decide _ = true
    rw [Bool.not_eq_true', ← Bool.not_eq_true, started_start, not_not, decide_eq_true_iff]
  | step =>
    show decide (s.step.1 = .ignored) = true ↔ decide _ = true
    rw [decide_eq_true_iff, decide_eq_true_iff, step, advance_outcome,
      State.advance_eq_ignored_iff, state_beforeStep, State.stopped_halt_iff]
  | advance =>
    show decide (s.advance.1 = .ignored) = true ↔ decide _ = true
    rw [decide_eq_true_iff, decide_eq_true_iff, advance_outcome, State.advance_eq_ignored_iff]
  | load source =>
    show (!(s.load source).1.isOk) = true ↔ decide _ = true
    rw [decide_eq_true_iff, ← Assembly.exists_error_iff]
    simp only [← s.load_eq_error_iff]
    cases (s.load source).1 with
    | error e => exact iff_of_true rfl ⟨e, rfl⟩
    | ok count =>
      refine iff_of_false Bool.false_ne_true ?_
      rintro ⟨e, he⟩
      cases he
  | _ => exact Iff.rfl

theorem perform_of_refuses {s : Simulator TickQueue} {action : Action}
    (h : s.refuses action = true) : (s.perform action).2 = s := by
  cases action with
  | start => exact congrArg Prod.snd (start_of_refused (of_decide_eq_true h))
  | step => exact congrArg Prod.snd (step_of_stopped (of_decide_eq_true h))
  | advance => exact congrArg Prod.snd (advance_of_stopped (of_decide_eq_true h))
  | load source =>
    obtain ⟨e, he⟩ := (Assembly.exists_error_iff source).mpr (of_decide_eq_true h)
    exact congrArg Prod.snd (load_of_error he)
  | _ => cases h

/-- A load fails just if its text has no instruction. A text of blanks is told apart, and for any
other the number of skipped lines is told. What fails in this way changes nothing, and neither does
a start of a run that goes on or is complete, or a cycle by hand of one that is idle or complete:
the simulator is the same, and whatever follows has the same answers and the same end. -/
theorem refusal_changes_nothing (s : Simulator TickQueue) :
    (∀ source, let assembly := Assembly.ofText source
      ((∃ e, (s.load source).1 = .error e) ↔ assembly.instructions = []) ∧
        ((s.load source).1 = .error .emptySource ↔ ∀ c ∈ source.toList, Text.isBlank c = true) ∧
        ∀ skipped, (s.load source).1 = .error (.noInstructions skipped) ↔
          assembly.instructions = [] ∧ (∃ c ∈ source.toList, Text.isBlank c = false) ∧
            skipped = assembly.diagnostics.length) ∧
      ∀ action, action.refusedBy (s.perform action).1 = s.refuses action ∧
        (s.refuses action = true → (s.perform action).2 = s ∧
          ∀ later, s.performAll (action :: later) =
            ((s.perform action).1 :: (s.performAll later).1, (s.performAll later).2)) := by
  constructor
  · intro source assembly
    simp only [s.load_eq_error_iff]
    exact ⟨Assembly.exists_error_iff source, Assembly.load_eq_emptySource_iff source,
      Assembly.load_eq_noInstructions_iff source⟩
  · intro action
    refine ⟨s.refusedBy_perform action, fun h => ?_⟩
    have hsame := perform_of_refuses h
    refine ⟨hsame, fun later => ?_⟩
    simp only [performAll, hsame]

/-- A run is asked in the middle of a stall, while its tick is in the queue, to load blanks, to load
two lines that are no instructions, and to start. -/
theorem refusal_changes_nothing_within_stall :
    let s := ofActions .standard .chain
      [.observe, .start, .fire, .deliver 1, .fire, .deliver 2, .fire, .deliver 3]
    s.state.stallCounter = 2 ∧ s.ticks.waiting = [4] ∧ s.log.length = 4 ∧
      (s.load " \n\t").1 = .error .emptySource ∧
      (s.load "FOO R1\nBAR").1 = .error (.noInstructions 2) ∧
      (s.perform (.load "FOO R1\nBAR")).2 = s ∧ (s.perform .start).2 = s := by
  intro s
  obtain ⟨hload, hrefused⟩ := refusal_changes_nothing s
  have hunread : s.refuses (.load "FOO R1\nBAR") = true := by decide +kernel
  have hrunning : s.refuses .start = true := by decide +kernel
  refine ⟨by decide +kernel, by decide +kernel, by decide +kernel, ?_, ?_, ?_, ?_⟩
  · exact (hload " \n\t").2.1.mpr (List.all_eq_true.mp (by decide))
  · obtain ⟨_, _, hskipped⟩ := hload "FOO R1\nBAR"
    exact (hskipped 2).mpr ⟨by decide +kernel, ⟨'F', by decide, by decide⟩, by decide +kernel⟩
  · exact ((hrefused (.load "FOO R1\nBAR")).2 hunread).1
  · exact ((hrefused .start).2 hrunning).1

end Simulator

end FiveStage
