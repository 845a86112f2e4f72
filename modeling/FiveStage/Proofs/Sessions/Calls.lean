import FiveStage.Proofs.Observers
import FiveStage.Proofs.Ticks.Exchange
import FiveStage.Proofs.Ticks.Timers
import FiveStage.Simulator.Session

/-!
# Calls between the steps of timers

Between any two calls the timers have one live tick at most, the one that is pending, and none is
pending but in a run. Every operation of a simulator keeps this, and the steps of timers never touch
it. So a wait in a run hands over the pending tick, whatever else was sent, and the run goes on by
one cycle.
-/
namespace FiveStage

namespace Simulator

/-- No tick is live but the pending one. -/
structure Tended (s : Simulator TimerPool) : Prop where
  sound : s.ticks.Sound
  live : s.ticks.live = s.pending.toList

/-- A tick is pending just while a run goes on. -/
structure Attended (s : Simulator TimerPool) : Prop extends Tended s where
  running : s.pending.isSome = true ↔ s.state.status = .running

variable {s : Simulator TimerPool}

namespace Tended

/-- A tick that is given up is the only one that was live. -/
theorem release (h : s.Tended) : s.release.Tended := by
  unfold Simulator.release
  cases hpending : s.pending with
  | none => exact h
  | some handle =>
    have hlive : s.ticks.live = [handle] := by rw [h.live, hpending, Option.toList_some]
    refine ⟨h.sound.cancel handle, List.eq_nil_iff_forall_not_mem.mpr fun k hk => ?_⟩
    obtain ⟨hin, hother⟩ := TimerPool.mem_live_cancel.mp hk
    rw [hlive, List.mem_singleton] at hin
    exact hother hin

theorem arm (h : s.Tended) : s.arm.Tended := by
  have hnone : s.release.ticks.live = [] := by
    rw [h.release.live, pending_release, Option.toList_none]
  refine ⟨h.release.sound.schedule _, ?_⟩
  show s.release.ticks.live ++ [_] = [_]
  rw [hnone, List.nil_append]

/-- Without a tick it is attended as long as it does not run. -/
theorem stopped (h : s.Tended) (hpending : s.pending = none)
    (hstatus : s.state.status ≠ .running) : s.Attended where
  toTended := h
  running := by
    rw [hpending]
    exact iff_of_false nofun hstatus

end Tended

namespace Attended

theorem pending_eq_none (h : s.Attended) (hstopped : s.state.status ≠ .running) :
    s.pending = none := by
  rw [← Option.not_isSome_iff_eq_none]
  exact mt h.running.mp hstopped

theorem live_eq_nil (h : s.Attended) (hstopped : s.state.status ≠ .running) :
    s.ticks.live = [] := by
  rw [h.live, h.pending_eq_none hstopped, Option.toList_none]

/-- Nothing but the timers, the pending tick and the status matter. -/
theorem observe (h : s.Attended) : s.observe.2.Attended := ⟨⟨h.sound, h.live⟩, h.running⟩

theorem start (h : s.Attended) : s.start.2.Attended := by
  unfold Simulator.start
  split
  · exact h
  · split
    · exact h
    · next state hmove =>
      have htended : ({ s with state } : Simulator TimerPool).arm.Tended :=
        Tended.arm ⟨h.sound, h.live⟩
      refine ⟨⟨htended.sound, htended.live⟩, iff_of_true rfl ?_⟩
      rw [state_notify, state_arm, History.eq_of_moveTo hmove]

/-- A cycle by hand leaves the timers alone. -/
theorem advance (h : s.Attended) (hstopped : s.state.status ≠ .running) :
    s.advance.2.Attended := by
  apply Tended.stopped
  · exact ⟨by simpa using h.sound, by simpa using h.live⟩
  · rw [pending_advance]
    exact h.pending_eq_none hstopped
  · rw [state_advance]
    exact State.advance_not_running hstopped

theorem pause (h : s.Attended) : s.pause.Attended := by
  apply Tended.stopped
  · exact ⟨h.release.sound, h.release.live⟩
  · exact s.pending_pause
  · rw [state_pause]
    exact s.state.halt_not_running

theorem step (h : s.Attended) : s.step.2.Attended := by
  unfold Simulator.step
  split
  · next hrunning =>
    apply h.pause.advance
    rw [state_pause]
    exact s.state.halt_not_running
  · next hstopped => exact h.advance hstopped

/-- A restart gives up the pending tick. -/
theorem restart (h : s.Attended) (program : Program) :
    ({ s.release with state := .initial, program }.notify : Simulator TimerPool).Attended :=
  Tended.stopped ⟨h.release.sound, h.release.live⟩ s.pending_release State.initial_not_running

theorem reset (h : s.Attended) : s.reset.Attended := h.restart s.release.program

theorem load (h : s.Attended) (source : String) : (s.load source).2.Attended := by
  unfold Simulator.load
  split
  · exact h
  · next program _ => exact h.restart program

/-- The pending tick is taken once it is no longer live. -/
theorem onTick {handle : TickHandle} (hsound : s.ticks.Sound) (hlive : s.ticks.live = [])
    (hpending : s.pending = some handle) (hrunning : s.state.status = .running) :
    (s.onTick handle).2.Attended := by
  have htended : s.used.advance.2.Tended := by
    refine ⟨?_, ?_⟩
    · rw [ticks_advance]
      exact hsound
    · rw [ticks_advance, pending_advance]
      exact hlive
  rw [onTick_eq hpending hrunning]
  dsimp only
  split
  · next hgoes =>
    refine ⟨htended.arm, iff_of_true rfl ?_⟩
    rw [state_arm]
    exact hgoes
  · next hends => exact htended.stopped (pending_advance _) hends

end Attended

theorem start_of_accepted {σ : Type} [TickSource σ] {s : Simulator σ}
    (h : ¬ (s.state.status = .running ∨ s.state.status = .complete)) :
    s.start.1 = true ∧ s.start.2.state = { s.state with status := .running } := by
  have hmove : s.state.moveTo? .running = some { s.state with status := .running } := by
    unfold State.moveTo?
    cases hs : s.state.status <;> simp [hs, Status.canMoveTo] at h ⊢
  rw [start, if_neg fun hrunning => h (.inl hrunning), hmove]
  exact ⟨rfl, state_arm _⟩

/-- One cycle of a run, told to the observers. -/
structure Driven (s t : Simulator TimerPool) : Prop where
  config : t.config = s.config
  program : t.program = s.program
  observers : t.observers = s.observers
  state : t.state = (s.state.advance s.config s.program).2
  log : t.log = s.log ++ Notification.round s.observers t.state s.program

theorem driven_onTick {handle : TickHandle} (hpending : s.pending = some handle)
    (hrunning : s.state.status = .running) :
    (s.onTick handle).1 ≠ .ignored ∧ s.Driven (s.onTick handle).2 := by
  obtain ⟨houtcome, hstate⟩ := onTick_of_running hpending hrunning
  have hactive : s.state.Active := .inl hrunning
  have hnot : (s.onTick handle).1 ≠ .ignored := by
    rw [houtcome]
    exact (hactive.cycled s.config s.program).ne_ignored
  refine ⟨hnot, s.config_onTick handle, s.program_onTick handle, s.observers_onTick handle,
    hstate, ?_⟩
  rw [log_onTick, if_neg hnot]

end Simulator

namespace Session

variable {s : Session}

/-- No timer makes any difference before it is waited for. -/
theorem attended_elapse (h : s.simulator.Attended) : s.elapse.simulator.Attended :=
  ⟨⟨h.sound.steps _, (TimerPool.live_steps _).trans h.live⟩, h.running⟩

theorem attended_start (h : s.simulator.Attended) : s.start.2.simulator.Attended :=
  (attended_elapse h).start

theorem attended_pause (h : s.simulator.Attended) : s.pause.simulator.Attended :=
  (attended_elapse h).pause

theorem attended_step (h : s.simulator.Attended) : s.step.2.simulator.Attended :=
  (attended_elapse h).step

theorem attended_reset (h : s.simulator.Attended) : s.reset.simulator.Attended :=
  (attended_elapse h).reset

theorem attended_load (h : s.simulator.Attended) (source : String) :
    (s.load source).2.simulator.Attended :=
  (attended_elapse h).load source

/-- A wait in a run hands over the pending tick, and nothing is live until the next one is asked
for. -/
theorem await_of_running (h : s.simulator.Attended) (hrunning : s.status = .running) :
    ∃ handle ticks, s.simulator.pending = some handle ∧ ticks.Sound ∧ ticks.live = [] ∧
      s.await = (some handle, { s.elapse with simulator := { s.simulator with ticks } }) := by
  obtain ⟨handle, hpending⟩ := Option.isSome_iff_exists.mp (h.running.mpr hrunning)
  have helapsed := attended_elapse h
  have hlive : s.elapse.simulator.ticks.live = [handle] := by
    rw [helapsed.live]
    show s.simulator.pending.toList = _
    rw [hpending, Option.toList_some]
  rcases TimerPool.waited_await helapsed.sound with ⟨_, hnone, _⟩ | ⟨found, hfound, hwaited⟩
  · cases hnone.symm.trans hlive
  · cases hwaited.answered_of with
    | tick hin hleft =>
      rw [hlive] at hin hleft
      obtain rfl := List.mem_singleton.mp hin
      refine ⟨found, _, hpending, hwaited.sound helapsed.sound, ?_, ?_⟩
      · rw [hleft, List.filter_cons_of_neg (by simp), List.filter_nil]
      · rw [← hfound]
        rfl

/-- A tick drives a run by one cycle. -/
theorem tick_of_running (h : s.simulator.Attended) (hrunning : s.status = .running) :
    ∃ outcome t, s.tick = (some outcome, t) ∧ outcome ≠ .ignored ∧ t.simulator.Attended ∧
      s.simulator.Driven t.simulator := by
  obtain ⟨handle, ticks, hpending, hsound, hlive, hawait⟩ := await_of_running h hrunning
  let u : Session := { s.elapse with simulator := { s.simulator with ticks } }
  have hidle : u.elapse.simulator.ticks.live = [] := (TimerPool.live_steps _).trans hlive
  obtain ⟨hnot, hdriven⟩ := Simulator.driven_onTick (s := u.elapse.simulator) hpending hrunning
  refine ⟨_, (u.onTick handle).2, ?_, hnot, ?_, ?_⟩
  · rw [tick, hawait]
    rfl
  · exact Simulator.Attended.onTick (hsound.steps _) hidle hpending hrunning
  · exact ⟨hdriven.config, hdriven.program, hdriven.observers, hdriven.state, hdriven.log⟩

end Session

end FiveStage
