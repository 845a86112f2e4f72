import FiveStage.Proofs.Lockstep
import FiveStage.Proofs.Sessions.Calls

/-!
# Runs of a session

A run is a row of cycles, one for each tick it takes, until it is complete or its limit pauses it.
The work left bounds the ticks, so none that a run asks for is left behind. A run without a limit
goes through the states that its first one determines, whatever the timers do.
-/
namespace FiveStage

namespace State

/-- The state after so many cycles. -/
def after (config : Config) (program : Program) (s : State) (cycles : Nat) : State :=
  (fun s => (s.advance config program).2)^[cycles] s

/-- It runs for so many cycles, the last of which completes it. -/
structure EndsIn (config : Config) (program : Program) (s : State) (cycles : Nat) : Prop where
  running : ∀ k < cycles, (s.after config program k).status = .running
  complete : (s.after config program cycles).status = .complete

variable {config : Config} {program : Program} {s : State}

theorem after_zero : s.after config program 0 = s := rfl

theorem after_succ (cycles : Nat) : s.after config program (cycles + 1) =
    ((s.after config program cycles).advance config program).2 :=
  Function.iterate_succ_apply' _ cycles s

theorem cycle_advance (config : Config) (program : Program) (h : s.Active) :
    (s.advance config program).2.cycle = s.cycle + 1 :=
  (h.cycled config program).eq_proceed.1

theorem cycle_halt (s : State) : s.halt.cycle = s.cycle := by
  unfold halt moveTo?
  split <;> rfl

theorem work_pos (config : Config) (program : Program) (h : s.status = .running) :
    0 < s.work config program := by
  have hstatus : s.status ≠ .complete := by
    rw [h]
    decide
  rw [work, if_neg hstatus]
  exact Nat.succ_pos _

namespace EndsIn

variable {cycles : Nat}

theorem tail (h : s.EndsIn config program (cycles + 1)) :
    (s.advance config program).2.EndsIn config program cycles where
  running k hk := h.running (k + 1) (Nat.succ_lt_succ hk)
  complete := h.complete

/-- Each cycle counts for one. -/
theorem cycle_after (h : s.EndsIn config program cycles) {k : Nat} (hk : k ≤ cycles) :
    (s.after config program k).cycle = s.cycle + k := by
  induction k with
  | zero => rfl
  | succ k ih =>
    rw [after_succ, cycle_advance config program (.inl (h.running k hk)), ih (Nat.le_of_succ_le hk)]
    rfl

end EndsIn

/-- Every run comes to its end, since each cycle does some of the work. -/
theorem exists_endsIn (config : Config) (program : Program) {s : State}
    (h : s.status = .running) : ∃ cycles, s.EndsIn config program cycles := by
  induction hwork : s.work config program using Nat.strong_induction_on generalizing s with
  | _ work ih =>
    have hcycled := Active.cycled config program (.inl h)
    rcases hcycled.status with hgoes | hends
    · have hless := work_advance_lt config program hcycled.ne_ignored
      obtain ⟨cycles, hrest⟩ := ih _ (hwork ▸ hless) (hgoes.trans h) rfl
      refine ⟨cycles + 1, fun k hk => ?_, hrest.complete⟩
      cases k with
      | zero => exact h
      | succ k => exact hrest.running k (Nat.lt_of_succ_lt_succ hk)
    · refine ⟨1, fun k hk => ?_, hends⟩
      obtain rfl := Nat.lt_one_iff.mp hk
      exact h

end State

theorem Simulator.Driven.cycle {s t : Simulator TimerPool} (h : s.Driven t)
    (hrunning : s.state.status = .running) : t.state.cycle = s.state.cycle + 1 := by
  rw [h.state]
  exact State.cycle_advance _ _ (.inl hrunning)

namespace Session

variable {s t last : Session} {limit : Option Nat} {seen : List (Simulator TimerPool)}

theorem state_pause : s.pause.simulator.state = s.simulator.state.halt :=
  s.elapse.simulator.state_pause

theorem haltAt_cases (limit : Option Nat) (t : Session) :
    t.haltAt limit = t ∨ t.haltAt limit = t.pause := by
  unfold haltAt
  split
  · exact .inr rfl
  · exact .inl rfl

/-- A run goes on only if its limit is not reached. -/
theorem haltAt_of_running (h : (t.haltAt limit).status = .running) : t.haltAt limit = t := by
  rcases haltAt_cases limit t with hsame | hpaused
  · exact hsame
  · rw [hpaused, status, state_pause] at h
    exact absurd h (State.halt_not_running _)

theorem attended_haltAt (h : t.simulator.Attended) (limit : Option Nat) :
    (t.haltAt limit).simulator.Attended := by
  rcases haltAt_cases limit t with hsame | hpaused
  · rwa [hsame]
  · rw [hpaused]
    exact attended_pause h

theorem cycle_haltAt (limit : Option Nat) (t : Session) :
    (t.haltAt limit).simulator.state.cycle = t.simulator.state.cycle := by
  rcases haltAt_cases limit t with hsame | hpaused
  · rw [hsame]
  · rw [hpaused, state_pause, State.cycle_halt]

/-- A run with what it showed: one cycle after the other, for as long as it goes on. -/
inductive Ran : Option Nat → Session → List (Simulator TimerPool) → Session → Prop
  | ended {limit : Option Nat} {s : Session} (hstopped : s.status ≠ .running) : Ran limit s [] s
  | cycle {limit : Option Nat} {s t last : Session} {seen : List (Simulator TimerPool)}
      (hrunning : s.status = .running) (hattended : t.simulator.Attended)
      (hdriven : s.simulator.Driven t.simulator)
      (hrest : Ran (limit.map (· - 1)) (t.haltAt limit) seen last) :
      Ran limit s (t.simulator :: seen) last

theorem runFor_of_stopped (ticks : Nat) (limit : Option Nat) (h : s.status ≠ .running) :
    runFor ticks limit s = ([], s) := by
  cases ticks with
  | zero => rfl
  | succ ticks => rw [runFor, if_neg h]

theorem runFor_of_tick {outcome : Outcome} (ticks : Nat) (limit : Option Nat)
    (hrunning : s.status = .running) (htick : s.tick = (some outcome, t))
    (hnot : outcome ≠ .ignored) : runFor (ticks + 1) limit s =
      (t.simulator :: (runFor ticks (limit.map (· - 1)) (t.haltAt limit)).1,
        (runFor ticks (limit.map (· - 1)) (t.haltAt limit)).2) := by
  rw [runFor, if_pos hrunning, htick]
  cases outcome with
  | ignored => exact absurd rfl hnot
  | _ => rfl

/-- The ticks suffice if there are as many as there is work left. -/
theorem ran_runFor (ticks : Nat) {s : Session} {limit : Option Nat} (h : s.simulator.Attended)
    (hwork : s.simulator.state.work s.simulator.config s.simulator.program ≤ ticks) :
    Ran limit s (runFor ticks limit s).1 (runFor ticks limit s).2 := by
  induction ticks generalizing s limit with
  | zero =>
    apply Ran.ended
    intro hrunning
    exact absurd hwork (Nat.not_le_of_lt (State.work_pos _ _ hrunning))
  | succ ticks ih =>
    by_cases hrunning : s.status = .running
    · obtain ⟨outcome, t, htick, hnot, hattended, hdriven⟩ := tick_of_running h hrunning
      rw [runFor_of_tick ticks limit hrunning htick hnot]
      refine .cycle hrunning hattended hdriven ?_
      by_cases hgoes : (t.haltAt limit).status = .running
      · rw [haltAt_of_running hgoes]
        apply ih hattended
        have hactive : s.simulator.state.Active := .inl hrunning
        have hless := State.work_advance_lt _ _
          (hactive.cycled s.simulator.config s.simulator.program).ne_ignored
        rw [hdriven.state, hdriven.config, hdriven.program]
        omega
      · rw [runFor_of_stopped ticks _ hgoes]
        exact .ended hgoes
    · rw [runFor_of_stopped _ limit hrunning]
      exact .ended hrunning

theorem ran_run (limit : Option Nat) (h : s.simulator.Attended) :
    Ran limit s (s.run limit).1 (s.run limit).2 :=
  ran_runFor s.ticksLeft h (Nat.le_add_right _ _)

namespace Ran

theorem stopped (h : Ran limit s seen last) : last.status ≠ .running := by
  induction h with
  | ended hstopped => exact hstopped
  | cycle _ _ _ _ ih => exact ih

/-- The last cycle of a run asks for no tick, and a pause gives up the pending one. -/
theorem attended (h : Ran limit s seen last) (hs : s.simulator.Attended) :
    last.simulator.Attended := by
  induction h with
  | ended _ => exact hs
  | @cycle limit _ _ _ _ _ hattended _ _ ih => exact ih (attended_haltAt hattended limit)

theorem cycle_le (h : Ran limit s seen last) :
    s.simulator.state.cycle ≤ last.simulator.state.cycle := by
  induction h with
  | ended _ => exact Nat.le_refl _
  | cycle hrunning _ hdriven _ ih =>
    have hcycle := hdriven.cycle hrunning
    rw [cycle_haltAt] at ih
    omega

/-- Even a limit of zero leaves a run one cycle. -/
theorem cycle_lt (h : Ran limit s seen last) (hrunning : s.status = .running) :
    s.simulator.state.cycle < last.simulator.state.cycle := by
  cases h with
  | ended hstopped => exact absurd hrunning hstopped
  | cycle _ _ hdriven hrest =>
    have hcycle := hdriven.cycle hrunning
    have hlater := hrest.cycle_le
    rw [cycle_haltAt] at hlater
    omega

/-- A run without a limit ends in the state that its first one leads to, and tells the observers of
every cycle. -/
theorem whole (h : Ran none s seen last) (cycles : Nat)
    (hends : s.simulator.state.EndsIn s.simulator.config s.simulator.program cycles) :
    last.simulator.config = s.simulator.config ∧ last.simulator.program = s.simulator.program ∧
      last.simulator.state =
        s.simulator.state.after s.simulator.config s.simulator.program cycles ∧
      last.simulator.log = s.simulator.log ++ (List.range cycles).flatMap fun k =>
        Notification.round s.simulator.observers
          (s.simulator.state.after s.simulator.config s.simulator.program (k + 1))
          s.simulator.program := by
  induction cycles generalizing s seen with
  | zero =>
    cases h with
    | ended _ => exact ⟨rfl, rfl, rfl, (List.append_nil _).symm⟩
    | cycle hrunning _ _ _ => exact nomatch hrunning.symm.trans hends.complete
  | succ cycles ih =>
    cases h with
    | ended hstopped => exact absurd (hends.running 0 (Nat.succ_pos _)) hstopped
    | @cycle _ _ t _ seen hrunning _ hdriven hrest =>
      obtain ⟨hconfig, hprogram, hobservers, hstate, hlog⟩ := hdriven
      have hlater : Ran none t seen last := hrest
      have htail := hends.tail
      rw [← hstate, ← hconfig, ← hprogram] at htail
      obtain ⟨hc, hp, hs, hl⟩ := ih hlater htail
      rw [hconfig, hprogram, hstate] at hs hl
      refine ⟨hc.trans hconfig, hp.trans hprogram, hs, ?_⟩
      rw [hl, hlog, hobservers, hstate, List.append_assoc, List.range_succ_eq_map,
        List.flatMap_cons, List.flatMap_map]
      rfl

/-- A run that ends by itself is complete. -/
theorem complete (h : Ran none s seen last) (hrunning : s.status = .running) :
    last.status = .complete := by
  obtain ⟨cycles, hends⟩ :=
    State.exists_endsIn s.simulator.config s.simulator.program hrunning
  obtain ⟨_, _, hstate, _⟩ := h.whole cycles hends
  rw [status, hstate]
  exact hends.complete

end Ran

end Session

end FiveStage
