import FiveStage.Command.Menu
import FiveStage.Proofs.Sessions.Opening
import FiveStage.Proofs.Sessions.Runs

/-!
# The menu waits on no run

Whatever a choice does, it ends with no run going on and no tick live: a step pauses the run that it
started, and a run ends with its last cycle or is paused at its limit. A choice that asks for cycles
takes the session forward unless it is complete, a restart takes it back to the initial state, and
any other choice leaves the state alone.
-/
namespace FiveStage

/-- No run goes on. -/
structure Session.Settled (s : Session) : Prop where
  attended : s.simulator.Attended
  stopped : s.status ≠ .running

/-- Whether a choice puts the session back into the initial state. -/
def Choice.restarts : Choice → Bool
  | .reset => true
  | .load reading => (readProgram reading).isOk
  | _ => false

/-- Whether a choice asks for cycles. -/
def Choice.drives : Choice → Bool
  | .step | .run | .runCycles _ => true
  | _ => false

namespace Session

variable {s : Session}

/-- A step takes a cycle unless the session is idle or complete. -/
theorem cycle_step (h : s.simulator.state.Active) :
    s.step.2.simulator.state.cycle = s.simulator.state.cycle + 1 := by
  have hhalted : s.simulator.state.halt.Active := by
    rw [State.active_iff, State.stopped_halt_iff, ← State.active_iff]
    exact h
  have hcycle := State.cycle_advance s.simulator.config s.simulator.program hhalted
  rw [State.cycle_halt] at hcycle
  rw [← hcycle]
  exact congrArg (·.cycle) s.elapse.simulator.state_step

theorem start_of_complete (h : s.status = .complete) :
    s.start.1 = false ∧ s.start.2.simulator.state = s.simulator.state := by
  have hrefused : s.elapse.simulator.start = (false, s.elapse.simulator) :=
    Simulator.start_of_refused (.inr h)
  exact ⟨congrArg Prod.fst hrefused, congrArg (·.2.state) hrefused⟩

theorem step_of_complete (h : s.status = .complete) :
    s.step.2.simulator.state = s.simulator.state := by
  have hrefused : s.elapse.simulator.step = (.ignored, s.elapse.simulator) :=
    Simulator.step_of_stopped (.inr h)
  exact congrArg (·.2.state) hrefused

/-- A file that cannot be loaded leaves the state as it is. -/
theorem state_loadFile (s : Session) (reading : Reading) :
    (s.loadFile reading).2.simulator.state =
      if (readProgram reading).isOk then .initial else s.simulator.state := by
  cases reading with
  | error e => rfl
  | ok file =>
    show (s.elapse.simulator.load file.text).2.state = _
    rw [Simulator.load, readProgram]
    cases Assembly.load file.text <;> rfl

namespace Settled

/-- A settled session has no tick that is live. -/
theorem pending (h : s.Settled) : s.simulator.ticks.pending = 0 := by
  rw [TimerPool.pending, h.attended.live_eq_nil h.stopped]
  rfl

theorem status_cases (h : s.Settled) :
    s.status = .idle ∨ s.status = .paused ∨ s.status = .complete := by
  have hstopped := h.stopped
  cases hs : s.status with
  | idle => exact .inl rfl
  | running => exact absurd hs hstopped
  | paused => exact .inr (.inl rfl)
  | complete => exact .inr (.inr rfl)

theorem of_fresh {config : Config} {program : Program}
    (h : s.simulator.Fresh config program) : s.Settled where
  attended := h.attended
  stopped := by
    rw [status, h.state]
    exact State.initial_not_running

/-- What is settled and not complete can be started. -/
theorem start (h : s.Settled) (hs : s.status ≠ .complete) :
    s.start.1 = true ∧ s.start.2.status = .running ∧
      s.start.2.simulator.state.cycle = s.simulator.state.cycle := by
  have hfree : ¬ (s.status = .running ∨ s.status = .complete) := not_or.mpr ⟨h.stopped, hs⟩
  obtain ⟨haccepted, hstate⟩ := Simulator.start_of_accepted (s := s.elapse.simulator) hfree
  exact ⟨haccepted, congrArg (·.status) hstate, congrArg (·.cycle) hstate⟩

end Settled

theorem settled_step (h : s.simulator.Attended) : s.step.2.Settled :=
  ⟨attended_step h, s.elapse.simulator.step_not_running⟩

theorem settled_run (h : s.simulator.Attended) (limit : Option Nat) : (s.run limit).2.Settled :=
  ⟨(ran_run limit h).attended h, (ran_run limit h).stopped⟩

theorem settled_reset (h : s.Settled) : s.reset.Settled :=
  ⟨attended_reset h.attended, State.initial_not_running⟩

theorem settled_loadFile (h : s.Settled) (reading : Reading) : (s.loadFile reading).2.Settled where
  attended := attended_loadFile h.attended reading
  stopped := by
    rw [status, state_loadFile]
    split
    · exact State.initial_not_running
    · exact h.stopped

end Session

namespace Menu

variable {s : Session}

theorem load_snd (reading : Reading) (s : Session) :
    (load reading s).2 = (s.loadFile reading).2 := by
  unfold load
  split <;> simp_all

theorem settled_step (h : s.Settled) : (step s).2.Settled := by
  have hattended : (if s.status = .idle then s.start.2 else s).simulator.Attended := by
    split
    · exact Session.attended_start h.attended
    · exact h.attended
  exact Session.settled_step hattended

/-- A step starts an idle session first, so that it takes a cycle. -/
theorem cycle_step (h : s.Settled) (hs : s.status ≠ .complete) :
    (step s).2.simulator.state.cycle = s.simulator.state.cycle + 1 := by
  show (if s.status = .idle then s.start.2 else s).step.2.simulator.state.cycle = _
  split
  · obtain ⟨_, hrunning, hcycle⟩ := h.start hs
    rw [← hcycle]
    exact Session.cycle_step (.inl hrunning)
  · next hidle =>
    apply Session.cycle_step
    rw [State.active_iff]
    exact not_or.mpr ⟨hidle, hs⟩

theorem step_of_complete (hs : s.status = .complete) :
    (step s).2.simulator.state = s.simulator.state := by
  have hidle : s.status ≠ .idle := by
    rw [hs]
    decide
  show (if s.status = .idle then s.start.2 else s).step.2.simulator.state = _
  rw [if_neg hidle]
  exact Session.step_of_complete hs

theorem run_of_settled (limit : Option Nat) (h : s.Settled) :
    (run limit s).2 = if s.start.1 then (s.start.2.run limit).2 else s.start.2 := by
  unfold run
  rw [if_neg h.stopped]
  dsimp only
  split <;> rfl

theorem run_of_complete (limit : Option Nat) (h : s.Settled) (hs : s.status = .complete) :
    (run limit s).2 = s.start.2 := by
  rw [run_of_settled limit h, if_neg (by rw [(Session.start_of_complete hs).1]; decide)]

theorem run_of_accepted (limit : Option Nat) (h : s.Settled) (hs : s.status ≠ .complete) :
    (run limit s).2 = (s.start.2.run limit).2 := by
  rw [run_of_settled limit h, if_pos (h.start hs).1]

theorem settled_run (limit : Option Nat) (h : s.Settled) : (run limit s).2.Settled := by
  have hattended := Session.attended_start h.attended
  by_cases hs : s.status = .complete
  · rw [run_of_complete limit h hs]
    refine ⟨hattended, ?_⟩
    rw [Session.status, (Session.start_of_complete hs).2]
    exact h.stopped
  · rw [run_of_accepted limit h hs]
    exact Session.settled_run hattended limit

theorem cycle_lt_run (limit : Option Nat) (h : s.Settled) (hs : s.status ≠ .complete) :
    s.simulator.state.cycle < (run limit s).2.simulator.state.cycle := by
  obtain ⟨_, hrunning, hcycle⟩ := h.start hs
  rw [run_of_accepted limit h hs, ← hcycle]
  exact (Session.ran_run limit (Session.attended_start h.attended)).cycle_lt hrunning

theorem complete_run (h : s.Settled) : (run none s).2.status = .complete := by
  by_cases hs : s.status = .complete
  · rw [run_of_complete none h hs, Session.status, (Session.start_of_complete hs).2]
    exact hs
  · rw [run_of_accepted none h hs]
    exact (Session.ran_run none (Session.attended_start h.attended)).complete (h.start hs).2.1

/-- A choice leaves no run going on. -/
theorem settled_perform (choice : Choice) (h : s.Settled) : (perform s choice).2.Settled := by
  cases choice with
  | step => exact settled_step h
  | run => exact settled_run none h
  | runCycles limit => exact settled_run (some limit) h
  | reset => exact Session.settled_reset h
  | load reading =>
    show (load reading s).2.Settled
    rw [load_snd]
    exact Session.settled_loadFile h reading
  | showProgram => exact h
  | showTimeline => exact h
  | showReport => exact h

theorem perform_of_restarts {choice : Choice} (h : choice.restarts = true) :
    (perform s choice).2.simulator.state = .initial := by
  cases choice with
  | reset => rfl
  | load reading =>
    show (load reading s).2.simulator.state = _
    rw [load_snd, Session.state_loadFile]
    exact if_pos h
  | _ => cases h

theorem cycle_lt_perform {choice : Choice} (h : s.Settled) (hdrives : choice.drives = true)
    (hs : s.status ≠ .complete) :
    s.simulator.state.cycle < (perform s choice).2.simulator.state.cycle := by
  cases choice with
  | step => exact Nat.lt_of_succ_le (Nat.le_of_eq (cycle_step h hs).symm)
  | run => exact cycle_lt_run none h hs
  | runCycles limit => exact cycle_lt_run (some limit) h hs
  | _ => cases hdrives

/-- Without a restart only a choice that asks for cycles changes the state, and of a complete
session none does. -/
theorem state_perform {choice : Choice} (h : s.Settled) (hrestarts : choice.restarts = false)
    (hidle : ¬ (choice.drives = true ∧ s.status ≠ .complete)) :
    (perform s choice).2.simulator.state = s.simulator.state := by
  have hcomplete (hdrives : choice.drives = true) : s.status = .complete := by
    by_contra hs
    exact hidle ⟨hdrives, hs⟩
  have hrun (limit : Option Nat) (hs : s.status = .complete) :
      (run limit s).2.simulator.state = s.simulator.state := by
    rw [run_of_complete limit h hs]
    exact (Session.start_of_complete hs).2
  cases choice with
  | step => exact step_of_complete (hcomplete rfl)
  | run => exact hrun none (hcomplete rfl)
  | runCycles limit => exact hrun (some limit) (hcomplete rfl)
  | reset => cases hrestarts
  | load reading =>
    show (load reading s).2.simulator.state = _
    rw [load_snd, Session.state_loadFile]
    exact if_neg (Bool.eq_false_iff.mp hrestarts)
  | showProgram => rfl
  | showTimeline => rfl
  | showReport => rfl

theorem cycle_le_perform {choice : Choice} (h : s.Settled) (hrestarts : choice.restarts = false) :
    s.simulator.state.cycle ≤ (perform s choice).2.simulator.state.cycle := by
  by_cases hforward : choice.drives = true ∧ s.status ≠ .complete
  · exact Nat.le_of_lt (cycle_lt_perform h hforward.1 hforward.2)
  · rw [state_perform h hrestarts hforward]

theorem settled_performAll (choices : List Choice) (h : s.Settled) :
    (performAll s choices).2.Settled := by
  induction choices generalizing s with
  | nil => exact h
  | cons choice rest ih => exact ih (settled_perform choice h)

theorem cycle_le_performAll (choices : List Choice) (h : s.Settled)
    (hrestarts : ∀ choice ∈ choices, choice.restarts = false) :
    s.simulator.state.cycle ≤ (performAll s choices).2.simulator.state.cycle := by
  induction choices generalizing s with
  | nil => exact Nat.le_refl _
  | cons choice rest ih =>
    obtain ⟨hfirst, hrest⟩ := List.forall_mem_cons.mp hrestarts
    have hlater := ih (settled_perform choice h) hrest
    exact Nat.le_trans (cycle_le_perform h hfirst) hlater

/-- With a valid configuration and a program the menu opens, and with anything else it does not.
Whatever was chosen so far, the simulation is idle, paused or complete and no tick is live, whatever
the timers do. Choices that are no restart never lead from there to an earlier cycle. A restart
leads to the initial state, a choice that asks for cycles leads on to a later one unless the
simulation is complete, and any other leaves the state as it is. A run to the end gets there. -/
theorem waits_on_no_run (setup : Setup) (timing : Timing) :
    match setup.config.validated, setup.loaded with
    | .ok config, .ok program => ∃ first, setup.opening timing = (setup.headings, .ok first) ∧
      first.simulator.config = config ∧ first.simulator.program = program ∧
      ∀ choices, let s := (performAll first choices).2
        (s.status = .idle ∨ s.status = .paused ∨ s.status = .complete) ∧
          s.simulator.ticks.pending = 0 ∧
          (∀ later, (∀ choice ∈ later, choice.restarts = false) →
            s.simulator.state.cycle ≤ (performAll s later).2.simulator.state.cycle) ∧
          (∀ choice, let next := (perform s choice).2.simulator.state
            if choice.restarts then next = .initial
            else if choice.drives ∧ s.status ≠ .complete then
              s.simulator.state.cycle < next.cycle
            else next = s.simulator.state) ∧
          (perform s .run).2.status = .complete
    | _, _ => ∃ e, (setup.opening timing).2 = .error e := by
  cases hconfig : setup.config.validated with
  | error e => exact ⟨_, congrArg Prod.snd (setup.opening_of_invalid timing hconfig)⟩
  | ok config =>
    cases hloaded : setup.loaded with
    | error e => exact ⟨_, congrArg Prod.snd (setup.opening_of_unloaded timing hconfig hloaded)⟩
    | ok program =>
      obtain ⟨first, hopening, hfresh⟩ := setup.opening_of_loaded timing hconfig hloaded
      refine ⟨first, hopening, hfresh.config, hfresh.program, fun choices => ?_⟩
      have h := settled_performAll choices (Session.Settled.of_fresh hfresh)
      refine ⟨h.status_cases, h.pending, fun later => cycle_le_performAll later h, ?_,
        complete_run h⟩
      intro choice
      dsimp only
      split
      · next hrestarts => exact perform_of_restarts hrestarts
      · next hno =>
        split
        · next hforward => exact cycle_lt_perform h hforward.1 hforward.2
        · next hidle => exact state_perform h (Bool.eq_false_iff.mpr hno) hidle

/-- The timer of the first step sends its handle before the step gives it up. The run after it
drops that handle, takes its own tick and is paused, and a limit of zero lets it take one more. -/
example :
    let first : Session :=
      { simulator := { config := .standard, program := .chain, ticks := {} }
        timing := fun _ => [.check 1, .send 1] }
    let s := (performAll first [.step, .runCycles 1, .runCycles 0, .load (.error .missing)]).2
    s.status = .paused ∧ s.simulator.ticks.pending = 0 ∧ s.simulator.state.cycle = 3 := by
  decide +kernel

end Menu

end FiveStage
