import FiveStage.Proofs.Sessions.Menu

/-!
# Runs with a limit

A run with a limit takes the cycles that are left, or as many of them as the limit allows. The limit
is looked at after a cycle, so that it always allows one. What is shown is the pipeline after each
cycle, in the states that a run without a limit goes through.
-/
namespace FiveStage

namespace State

/-- The state in which a run goes on from here. A complete one stays complete. -/
def resumed (s : State) : State := (s.moveTo? .running).getD s

/-- The pipeline after each of so many cycles. -/
def views (config : Config) (program : Program) (s : State) (cycles : Nat) : List String :=
  (List.range cycles).map fun k => View.pipeline program (s.after config program (k + 1))

variable {config : Config} {program : Program} {s : State}

theorem after_advance (cycles : Nat) : (s.advance config program).2.after config program cycles =
    s.after config program (cycles + 1) := rfl

theorem views_succ (cycles : Nat) : s.views config program (cycles + 1) =
    View.pipeline program (s.advance config program).2 ::
      (s.advance config program).2.views config program cycles := by
  simp only [views, after_advance, List.range_succ_eq_map, List.map_cons, List.map_map,
    Function.comp_def, Nat.succ_eq_add_one, after_succ, after_zero]

theorem resumed_of_complete (h : s.status = .complete) : s.resumed = s := by
  have hno : s.status.canMoveTo .running = false := by rw [h]; rfl
  simp [resumed, moveTo?, hno]

theorem resumed_of_stopped (h : ¬ (s.status = .running ∨ s.status = .complete)) :
    s.resumed = { s with status := .running } := by
  unfold resumed moveTo?
  cases hs : s.status <;> simp [hs, Status.canMoveTo] at h ⊢

theorem status_halt_of_running (h : s.status = .running) : s.halt.status = .paused := by
  simp [halt, moveTo?, h, Status.canMoveTo]

theorem halt_of_complete (h : s.status = .complete) : s.halt = s := by
  simp [halt, moveTo?, h, Status.canMoveTo]

namespace EndsIn

variable {left : Nat}

theorem of_complete (h : s.status = .complete) : s.EndsIn config program 0 := ⟨nofun, h⟩

/-- Halted before its end a run is paused, and at its end it stays complete. -/
theorem status_halt_after (h : s.EndsIn config program left) (limit : Nat) :
    (s.after config program (min limit left)).halt.status =
      if left ≤ limit then .complete else .paused := by
  split
  · next hle =>
    rw [Nat.min_eq_right hle, halt_of_complete h.complete]
    exact h.complete
  · next hlt =>
    rw [Nat.min_eq_left (by omega)]
    exact status_halt_of_running (h.running limit (by omega))

end EndsIn

end State

namespace Session

variable {s t last : Session} {seen : List (Simulator TimerPool)}

theorem haltAt_of_le {limit : Nat} (h : limit ≤ 1) (t : Session) :
    t.haltAt (some limit) = t.pause :=
  if_pos (decide_eq_true h)

theorem haltAt_of_lt {limit : Nat} (h : 1 < limit) (t : Session) : t.haltAt (some limit) = t :=
  if_neg (by simpa using h)

/-- A run that is stopped shows nothing more. -/
theorem Ran.of_stopped {limit : Option Nat} (h : Ran limit s seen last) (hs : s.status ≠ .running) :
    seen = [] ∧ last = s := by
  cases h with
  | ended _ => exact ⟨rfl, rfl⟩
  | cycle hrunning _ _ _ => exact absurd hrunning hs

/-- A run with a limit halts after so many cycles, one at least, or at its end, and shows the
pipeline after each. -/
theorem Ran.limited {limit : Nat} (h : Ran (some limit) s seen last) {config : Config}
    {program : Program} (hconfig : s.simulator.config = config)
    (hprogram : s.simulator.program = program) {left : Nat}
    (hends : s.simulator.state.EndsIn config program left) :
    last.simulator.state =
        (s.simulator.state.after config program (min (max limit 1) left)).halt ∧
      seen.map View.simulation =
        s.simulator.state.views config program (min (max limit 1) left) := by
  induction left generalizing s seen limit with
  | zero =>
    have hcomplete : s.simulator.state.status = .complete := hends.complete
    obtain ⟨rfl, rfl⟩ := h.of_stopped (by rw [status, hcomplete]; decide)
    rw [Nat.min_zero, State.after_zero, State.halt_of_complete hcomplete]
    exact ⟨rfl, rfl⟩
  | succ left ih =>
    cases h with
    | ended hstopped => exact absurd (hends.running 0 (Nat.succ_pos _)) hstopped
    | @cycle _ _ t _ seen hrunning _ hdriven hrest =>
      have hconfig' := hdriven.config.trans hconfig
      have hprogram' := hdriven.program.trans hprogram
      have hstate : t.simulator.state = (s.simulator.state.advance config program).2 := by
        rw [hdriven.state, hconfig, hprogram]
      have hview : View.simulation t.simulator =
          View.pipeline program (s.simulator.state.advance config program).2 := by
        rw [View.simulation, hprogram', hstate]
      by_cases hone : limit ≤ 1
      · -- the limit is used up with the cycle just taken
        have htaken : min (max limit 1) (left + 1) = 0 + 1 := by omega
        rw [haltAt_of_le hone] at hrest
        have hpaused : t.pause.status ≠ .running := by
          rw [status, state_pause]
          exact State.halt_not_running _
        obtain ⟨rfl, rfl⟩ := hrest.of_stopped hpaused
        rw [htaken, State.views_succ, List.map_cons, hview, state_pause, hstate]
        exact ⟨rfl, rfl⟩
      · have htaken : min (max limit 1) (left + 1) = min (max (limit - 1) 1) left + 1 := by omega
        rw [haltAt_of_lt (by omega)] at hrest
        have htail := hends.tail
        rw [← hstate] at htail
        obtain ⟨hs, hviews⟩ := ih hrest hconfig' hprogram' htail
        rw [htaken, State.views_succ, List.map_cons, hview, hs, hviews, hstate,
          State.after_advance]
        exact ⟨rfl, rfl⟩

end Session

theorem Setup.fresh_of_opening {setup : Setup} {timing : Timing} {first : Session}
    (h : (setup.opening timing).2 = .ok first) :
    ∃ config program, first.simulator.Fresh config program := by
  cases hconfig : setup.config.validated with
  | error e =>
    rw [setup.opening_of_invalid timing hconfig] at h
    cases h
  | ok config =>
    cases hloaded : setup.loaded with
    | error e =>
      rw [setup.opening_of_unloaded timing hconfig hloaded] at h
      cases h
    | ok program =>
      obtain ⟨s, hopening, hfresh⟩ := setup.opening_of_loaded timing hconfig hloaded
      rw [hopening] at h
      cases h
      exact ⟨config, program, hfresh⟩

namespace Menu

variable {s : Session}

/-- A run of a session that can be started goes through the states of the run that goes on from
there, up to its limit. -/
theorem run_limited (limit : Nat) (h : s.Settled) (hs : s.status ≠ .complete) {left : Nat}
    (hends : s.simulator.state.resumed.EndsIn s.simulator.config s.simulator.program left) :
    (run (some limit) s).2.simulator.state =
        (s.simulator.state.resumed.after s.simulator.config s.simulator.program
          (min (max limit 1) left)).halt ∧
      (run (some limit) s).1 = s.simulator.state.resumed.views s.simulator.config
        s.simulator.program (min (max limit 1) left) := by
  have hfree : ¬ (s.status = .running ∨ s.status = .complete) := not_or.mpr ⟨h.stopped, hs⟩
  have hstate : s.start.2.simulator.state = s.simulator.state.resumed := by
    rw [State.resumed_of_stopped hfree]
    exact (Simulator.start_of_accepted (s := s.elapse.simulator) hfree).2
  have hconfig : s.start.2.simulator.config = s.simulator.config := s.elapse.simulator.config_start
  have hprogram : s.start.2.simulator.program = s.simulator.program :=
    s.elapse.simulator.program_start
  have hprinted : (run (some limit) s).1 = (s.start.2.run (some limit)).1.map View.simulation := by
    unfold run
    rw [if_neg h.stopped]
    dsimp only
    rw [if_pos (h.start hs).1]
  have hran := Session.ran_run (some limit) (Session.attended_start h.attended)
  rw [run_of_accepted (some limit) h hs, hprinted, ← hstate]
  exact hran.limited hconfig hprogram (hstate ▸ hends)

theorem refusal_congr {t : Session} (h : t.status = s.status) (wish : String) :
    refusal t wish = refusal s wish :=
  congrArg (fun status : Status =>
    "Simulation is " ++ status.text ++ ", reset to " ++ wish ++ " again") h

theorem printed_of_complete (limit : Option Nat) (h : s.Settled) (hs : s.status = .complete) :
    (run limit s).1 = [refusal s "run"] := by
  obtain ⟨hrefused, hstate⟩ := Session.start_of_complete hs
  unfold run
  rw [if_neg h.stopped]
  dsimp only
  rw [if_neg (by rw [hrefused]; decide)]
  exact congrArg (fun line => [line]) (refusal_congr (congrArg (·.status) hstate) "run")

/-- Whatever was chosen so far, a run with a limit takes as many cycles as it allows, or all that
are left. A limit of zero allows one. The pipeline is printed after each of them, and then the
simulation is complete if none is left, and else paused. One that was complete already is left alone
and says so. -/
theorem limited_run {setup : Setup} {timing : Timing} {first : Session}
    (hopening : (setup.opening timing).2 = .ok first) (choices : List Choice) (limit : Nat) :
    let s := (performAll first choices).2
    let next := perform s (.runCycles limit)
    let config := s.simulator.config
    let program := s.simulator.program
    ∃ left, s.simulator.state.resumed.EndsIn config program left ∧
      (left = 0 ↔ s.status = .complete) ∧
      next.2.simulator.state.cycle = s.simulator.state.cycle + min (max limit 1) left ∧
      next.2.status = (if left ≤ max limit 1 then .complete else .paused) ∧
      if s.status = .complete then
        next.2.simulator.state = s.simulator.state ∧ next.1 = [refusal s "run"]
      else next.2.simulator.state =
          (s.simulator.state.resumed.after config program (min (max limit 1) left)).halt ∧
        next.1 = s.simulator.state.resumed.views config program (min (max limit 1) left) := by
  intro s next config program
  obtain ⟨_, _, hfresh⟩ := Setup.fresh_of_opening hopening
  have h : s.Settled := settled_performAll choices (.of_fresh hfresh)
  by_cases hs : s.status = .complete
  · have hstate : next.2.simulator.state = s.simulator.state := by
      show (run (some limit) s).2.simulator.state = _
      rw [run_of_complete (some limit) h hs]
      exact (Session.start_of_complete hs).2
    have hends : s.simulator.state.resumed.EndsIn config program 0 := by
      rw [State.resumed_of_complete hs]
      exact .of_complete hs
    refine ⟨0, hends, iff_of_true rfl hs, ?_, ?_, ?_⟩
    · rw [hstate, Nat.min_zero, Nat.add_zero]
    · rw [Session.status, hstate, if_pos (Nat.zero_le _)]
      exact hs
    · rw [if_pos hs]
      exact ⟨hstate, printed_of_complete (some limit) h hs⟩
  · have hfree : ¬ (s.status = .running ∨ s.status = .complete) := not_or.mpr ⟨h.stopped, hs⟩
    have hresumed := State.resumed_of_stopped hfree
    obtain ⟨left, hends⟩ : ∃ left, s.simulator.state.resumed.EndsIn config program left :=
      State.exists_endsIn config program (by rw [hresumed])
    obtain ⟨hstate, hprinted⟩ : next.2.simulator.state = _ ∧ next.1 = _ :=
      run_limited limit h hs hends
    refine ⟨left, hends, iff_of_false ?_ hs, ?_, ?_, ?_⟩
    · rintro rfl
      have hcomplete := hends.complete
      rw [State.after_zero, hresumed] at hcomplete
      cases hcomplete
    · rw [hstate, State.cycle_halt, hends.cycle_after (Nat.min_le_right _ _), hresumed]
    · rw [Session.status, hstate]
      exact hends.status_halt_after (max limit 1)
    · rw [if_neg hs]
      exact ⟨hstate, hprinted⟩

/-- One cycle of the demo program by hand, and three more of a run. -/
theorem limited_run_of_demo : ∃ first s next left,
    (Setup.opening {} fun _ => [.check 1, .send 1]).2 = .ok first ∧
      (performAll first [.step]).2 = s ∧ (perform s (.runCycles 3)).2 = next ∧
      s.simulator.state.resumed.EndsIn s.simulator.config s.simulator.program left ∧ 3 < left ∧
      s.simulator.state.cycle = 1 ∧ next.simulator.state.cycle = 4 ∧ next.status = .paused := by
  let first : Session :=
    { simulator := { config := .standard, program := .demo, ticks := {} }
      timing := fun _ => [.check 1, .send 1] }
  have hopening : (Setup.opening {} fun _ => [.check 1, .send 1]).2 = .ok first := rfl
  have hstart : (performAll first [.step]).2.simulator.state.cycle = 1 := by decide +kernel
  have hpaused : (perform (performAll first [.step]).2 (.runCycles 3)).2.status = .paused := by
    decide +kernel
  obtain ⟨left, hends, _, hcycle, hstatus, _⟩ := limited_run hopening [.step] 3
  have hleft : 3 < left := by
    by_contra hfew
    have hall : left ≤ max 3 1 := Nat.le_of_not_lt hfew
    rw [hpaused, if_pos hall] at hstatus
    cases hstatus
  have htaken : min (max 3 1) left = 3 := Nat.min_eq_left (Nat.le_of_lt hleft)
  rw [hstart, htaken] at hcycle
  exact ⟨first, _, _, left, hopening, rfl, rfl, hends, hleft, hstart, hcycle, hpaused⟩

/-- A limit of zero is not kept. -/
theorem limit_of_zero_allows_a_cycle : ¬ ∀ {setup : Setup} {timing : Timing} {first : Session},
    (setup.opening timing).2 = .ok first → ∀ (choices : List Choice) (limit left : Nat),
      let s := (performAll first choices).2
      s.simulator.state.resumed.EndsIn s.simulator.config s.simulator.program left →
        (perform s (.runCycles limit)).2.simulator.state.cycle =
          s.simulator.state.cycle + min limit left := by
  intro hkept
  let first : Session :=
    { simulator := { config := .standard, program := .demo, ticks := {} }, timing := fun _ => [] }
  have hopening : (Setup.opening {} fun _ => []).2 = .ok first := rfl
  obtain ⟨left, hends⟩ := State.exists_endsIn .standard .demo (s := State.initial.resumed) rfl
  have hcycle : (perform first (.runCycles 0)).2.simulator.state.cycle = 0 + min 0 left :=
    hkept hopening [] 0 left hends
  have hone : (perform first (.runCycles 0)).2.simulator.state.cycle = 1 := by decide +kernel
  omega

end Menu

end FiveStage
