import FiveStage.Proofs.Completion
import FiveStage.Proofs.Ticks.Handles

/-!
# Automatic runs end

The cycles that a state can still take are bounded by what is left to do: each instruction that is
not fetched takes a move, and may cost a bubble and a stall once it is checked, the one in IF may
still cost these, and the youngest in the pipe has so many stages to go. So a run that takes one
tick after the other comes to its end.
-/
namespace FiveStage

namespace Pipeline

/-- The moves until the youngest instruction in the pipe has left it. -/
def depth (p : Pipeline) : Nat :=
  if (p.occupant .fetch).isSome then 5
  else if (p.occupant .decode).isSome then 4
  else if (p.occupant .execute).isSome then 3
  else if (p.occupant .memory).isSome then 2
  else if (p.occupant .writeBack).isSome then 1
  else 0

theorem depth_le (p : Pipeline) : p.depth ≤ 5 := by
  unfold depth
  repeat' split
  all_goals decide

theorem occupant_of_depth {p : Pipeline} (h : p.depth = 0) (stage : Stage) :
    p.occupant stage = none := by
  unfold depth at h
  split_ifs at h with hf hd he hm hw
  rw [Option.not_isSome_iff_eq_none] at hf hd he hm hw
  cases stage
  exacts [hf, hd, he, hm, hw]

theorem work_of_depth (longestStall : Nat) {p : Pipeline} (h : p.depth = 0) :
    p.work longestStall = 0 := by
  have hcount : ∀ stage, (p.slot stage).count = 0 := fun stage =>
    congrArg (fun id => id.toList.length) (occupant_of_depth h stage)
  have hf : p.fetch.count = 0 := hcount .fetch
  have hd : p.decode.count = 0 := hcount .decode
  have he : p.execute.count = 0 := hcount .execute
  have hm : p.memory.count = 0 := hcount .memory
  have hw : p.writeBack.count = 0 := hcount .writeBack
  simp only [work, hf, hd, he, hm, hw, Nat.mul_zero, Nat.add_zero]

end Pipeline

namespace State

/-- The cycles that a state can take before its last one, at most. -/
def allowance (config : Config) (program : Program) (s : State) : Nat :=
  (config.longestStall + 2) * (program.length - s.fetched) +
    (config.longestStall + 1) * s.pipeline.fetch.count +
    (if s.fetched < program.length then 5 else s.pipeline.depth) + s.stallCounter

section Move

variable (config : Config) (program : Program) (s : State)

theorem count_fetch_moveOn : (s.moveOn config program).2.pipeline.fetch.count =
    (s.incoming config program).toList.length := by
  rw [pipeline_moveOn]
  rfl

theorem depth_moveOn : (s.moveOn config program).2.pipeline.depth =
    if (s.incoming config program).isSome then 5 else s.pipeline.depth - 1 := by
  unfold Pipeline.depth
  simp only [occupant_moveOn]
  split
  · rfl
  · repeat' split
    all_goals rfl

end Move

theorem count_fetch_serveStall (s : State) :
    s.serveStall.2.pipeline.fetch.count = s.pipeline.fetch.count :=
  congrArg (fun id => id.toList.length) (s.occupant_serveStall .fetch)

theorem allowance_serveStall (config : Config) (program : Program) {s : State}
    (hpos : 0 < s.stallCounter) :
    s.serveStall.2.allowance config program < s.allowance config program := by
  have hfetched : s.serveStall.2.fetched = s.fetched := rfl
  have hcounter : s.serveStall.2.stallCounter = s.stallCounter - 1 := rfl
  have hdepth : s.serveStall.2.pipeline.depth = s.pipeline.depth := by
    simp only [Pipeline.depth, occupant_serveStall]
  rw [allowance, allowance, hfetched, hcounter, count_fetch_serveStall, hdepth]
  omega

/-- The stall that a move begins was in store for the instruction that came to ID. -/
theorem allowance_moveOn_of_stall {config : Config} {program : Program} {s : State}
    (hzero : s.stallCounter = 0) {producer : InstructionId} {stage : Stage} {cycles : Nat}
    (hstall : (s.moveOn config program).1 = .stall producer stage cycles) :
    (s.moveOn config program).2.allowance config program < s.allowance config program := by
  obtain ⟨hone, hlong⟩ := Pipeline.hazard_stall hstall
  have hcount : s.pipeline.fetch.count = 1 := hone
  have hnone : s.incoming config program = none := by
    rw [incoming, hstall]
    rfl
  have hle := s.pipeline.depth_le
  rw [allowance, allowance, fetched_moveOn_eq, count_fetch_moveOn, depth_moveOn,
    stallCounter_moveOn, hzero, hstall]
  simp only [hnone, hcount, Hazard.stallCycles?, Option.toList_none, List.length_nil,
    Option.isSome_none, Option.getD_some, Nat.add_zero, Nat.mul_zero, Nat.mul_one,
    Bool.false_eq_true, if_false]
  split <;> omega

/-- Without a stall there is one instruction less to fetch, or the youngest one goes on a stage. -/
theorem allowance_moveOn_of_no_stall {config : Config} {program : Program} {s : State}
    (hzero : s.stallCounter = 0) (hnone : (s.moveOn config program).1.stallCycles? = none)
    (hincoming : s.incoming config program = program.ids[s.fetched]?)
    (hdone : (s.moveOn config program).2.isDone program = false) :
    (s.moveOn config program).2.allowance config program < s.allowance config program := by
  rw [allowance, allowance, fetched_moveOn_eq, count_fetch_moveOn, depth_moveOn,
    stallCounter_moveOn, hzero, hnone, hincoming, Option.getD_none]
  by_cases hlt : s.fetched < program.length
  · obtain ⟨id, hid⟩ := Program.exists_id hlt
    obtain ⟨rest, hrest⟩ := Nat.exists_eq_add_of_lt hlt
    have hbefore : program.length - s.fetched = rest + 1 := by omega
    have hafter : program.length - (s.fetched + 1) = rest := by omega
    have hmul := Nat.mul_succ (config.longestStall + 2) rest
    simp only [hid, hbefore, hafter, hmul, Option.toList_some, List.length_singleton,
      Option.isSome_some, if_true, ite_self, if_pos hlt]
    omega
  · have hlength : program.length ≤ s.fetched := Nat.le_of_not_lt hlt
    have hpos : s.pipeline.depth ≠ 0 := by
      intro hempty
      rw [isDone_moveOn config program hlength (Pipeline.work_of_depth _ hempty)] at hdone
      cases hdone
    have hids : program.ids[s.fetched]? = none :=
      List.getElem?_eq_none (by rwa [Program.length_ids])
    simp only [hids, Option.toList_none, List.length_nil, Nat.add_zero, Nat.mul_zero,
      Option.isSome_none, Bool.false_eq_true, if_false, if_neg hlt]
    omega

/-- A move uses up some of the allowance, unless it is the last cycle. -/
theorem allowance_moveOn (config : Config) (program : Program) {s : State}
    (hzero : s.stallCounter = 0) (hdone : (s.moveOn config program).2.isDone program = false) :
    (s.moveOn config program).2.allowance config program < s.allowance config program := by
  cases hh : (s.moveOn config program).1 with
  | stall producer stage cycles => exact allowance_moveOn_of_stall hzero hh
  | forward producer stage =>
    refine allowance_moveOn_of_no_stall hzero ?_ ?_ hdone
    · rw [hh]
      rfl
    · rw [incoming, hh]
      rfl
  | clear =>
    refine allowance_moveOn_of_no_stall hzero ?_ ?_ hdone
    · rw [hh]
      rfl
    · rw [incoming, hh]
      rfl

/-- Every cycle but the last uses up some of the allowance. -/
theorem Cycled.allowance_lt {config : Config} {program : Program} {s t : State}
    {outcome : Outcome} (h : Cycled config program s outcome t) :
    t.status = .complete ∨
      t.status = s.status ∧ t.allowance config program < s.allowance config program := by
  cases h with
  | served hpos => exact .inr ⟨rfl, allowance_serveStall config program hpos⟩
  | moved hzero hdone => exact .inr ⟨rfl, allowance_moveOn config program hzero hdone⟩
  | finished hzero hdone => exact .inl rfl

end State

namespace History

variable {config : Config} {program : Program} {turns : List Turn} {s : State}

theorem count_fetch_le (h : History config program turns s) :
    s.pipeline.fetch.count ≤ s.fetched := by
  have hserved : ∀ s : State, s.pipeline.fetch.count ≤ s.fetched →
      s.serveStall.2.pipeline.fetch.count ≤ s.serveStall.2.fetched := by
    intro s hs
    rwa [State.count_fetch_serveStall]
  have hmoved : ∀ s : State, (s.moveOn config program).2.pipeline.fetch.count ≤
      (s.moveOn config program).2.fetched := by
    intro s
    rw [State.count_fetch_moveOn, State.fetched_moveOn_eq]
    exact Nat.le_add_left _ _
  exact h.preserves (Nat.le_refl 0) (fun _ _ hs => hs) (fun s _ hs => hserved s hs)
    (fun s _ _ => hmoved s)

/-- The allowance is largest when all instructions are still to be fetched. -/
theorem allowance_le (h : History config program turns s) :
    s.allowance config program + 1 ≤
      (program.length + 6) + program.length * (1 + config.longestStall) + s.stallCounter := by
  have hfetched := h.fetched_le
  have hfetch : (config.longestStall + 1) * s.pipeline.fetch.count ≤
      (config.longestStall + 1) * s.fetched := Nat.mul_le_mul_left _ h.count_fetch_le
  have hmoves : (if s.fetched < program.length then 5 else s.pipeline.depth) ≤ 5 := by
    split
    · exact Nat.le_refl 5
    · exact s.pipeline.depth_le
  have hrest : (config.longestStall + 2) * (program.length - s.fetched) =
      (config.longestStall + 1) * (program.length - s.fetched) + (program.length - s.fetched) :=
    Nat.succ_mul _ _
  have hall : program.length * (1 + config.longestStall) = (config.longestStall + 1) * s.fetched +
      (config.longestStall + 1) * (program.length - s.fetched) := by
    rw [← Nat.mul_add, Nat.add_sub_cancel' hfetched, Nat.mul_comm, Nat.add_comm 1]
  rw [State.allowance, hrest, hall]
  omega

end History

namespace Simulator

/-- The ticks that an automatic run can still take. -/
def effort (s : Simulator TickQueue) : Nat :=
  if s.state.status = .running then s.state.allowance s.config s.program + 1 else 0

/-- A run that is left to its ticks has its tick in the queue until it is over. -/
inductive Underway (s : Simulator TickQueue) : Prop
  | waiting {handle : TickHandle} (hrunning : s.state.status = .running)
      (hpending : s.pending = some handle) (hin : handle ∈ s.ticks.waiting)
  | ended (hcomplete : s.state.status = .complete) (hnone : s.pending = none)

section Tick

variable {s t : Simulator TickQueue} {first : TickHandle} {rest : List TickHandle}

theorem tick_of_cons (h : s.ticks.waiting = first :: rest) :
    s.tick = (some (first, ((s.perform .fire).2.onTick first).1),
      ((s.perform .fire).2.onTick first).2) := by
  have hfire : s.ticks.fire = (some first, s.ticks.fire.2) := Prod.ext (congrArg List.head? h) rfl
  rw [tick, hfire]
  rfl

theorem tick_of_nil (h : s.ticks.waiting = []) : s.tick = (none, s) := by
  rw [tick, TickQueue.fire, h]
  rfl

/-- The tick of a run, once it is fired, drives a cycle. That is the last one, or the next tick is
asked for. -/
theorem underway_onTick (hpending : s.pending = some first) (hrunning : s.state.status = .running) :
    (s.onTick first).2.Underway ∧ (s.onTick first).2.ticks.pending ≤ s.ticks.pending + 1 ∧
      (s.onTick first).2.effort < s.effort := by
  have hcycled : s.state.Cycled s.config s.program (s.onTick first).1 (s.onTick first).2.state := by
    obtain ⟨houtcome, hstate⟩ := onTick_of_running hpending hrunning
    rw [houtcome, hstate]
    exact State.Active.cycled s.config s.program (.inl hrunning)
  have hconfig : (s.onTick first).2.config = s.config := s.config_perform (.deliver first)
  have hprogram := s.program_onTick first
  have heffort : s.effort = s.state.allowance s.config s.program + 1 := if_pos hrunning
  have hpaced := s.paced_onTick first
  generalize (s.onTick first).1 = outcome at *
  generalize (s.onTick first).2 = t at *
  cases hpaced with
  | kept hsilent _ _ _ => cases hsilent.2.2
  | released hsilent _ _ _ => cases hsilent.2.2
  | armed hsilent _ _ _ _ => cases hsilent.2.2
  | stale hother => exact absurd hpending hother
  | used _ hnone hticks hstopped =>
    have hcomplete : t.state.status = .complete :=
      hcycled.status.resolve_left fun hsame => hstopped (hsame.trans hrunning)
    refine ⟨.ended hcomplete hnone, ?_, ?_⟩
    · rw [hticks]
      exact Nat.le_succ _
    · rw [effort, if_neg hstopped, heffort]
      exact Nat.succ_pos _
  | rearmed _ hnew hticks hgoes =>
    have hdrop : t.state.allowance s.config s.program < s.state.allowance s.config s.program :=
      (hcycled.allowance_lt.resolve_left (by rw [hgoes]; decide)).2
    refine ⟨.waiting hgoes hnew ?_, ?_, ?_⟩
    · rw [hticks]
      exact List.mem_append_right _ (List.mem_singleton_self _)
    · rw [hticks]
      exact Nat.le_of_eq List.length_append
    · rw [effort, if_pos hgoes, hconfig, hprogram, heffort]
      exact Nat.succ_lt_succ hdrop

/-- Each tick uses up something: a stale one is gone, and the run's own takes one of those left. -/
theorem Underway.fired (h : s.Underway) (hcons : s.ticks.waiting = first :: rest) :
    let u := (s.perform .fire).2
    (u.onTick first).2.Underway ∧
      (u.onTick first).2.ticks.pending + (u.onTick first).2.effort < s.ticks.pending + s.effort ∧
      (u.onTick first).2.effort + (if (u.onTick first).1 ≠ .ignored then 1 else 0) ≤ s.effort := by
  intro u
  have hwaiting : u.ticks.waiting = rest := congrArg List.tail hcons
  have hfewer : u.ticks.pending + 1 = s.ticks.pending := by
    rw [TickQueue.pending, TickQueue.pending, hwaiting, hcons]
    rfl
  have hsame : u.effort = s.effort := rfl
  by_cases hdue : u.pending = some first
  · have hrunning : u.state.status = .running := by
      cases h with
      | waiting hrunning _ _ => exact hrunning
      | ended _ hnone => cases hnone.symm.trans hdue
    obtain ⟨hnext, hpending, heffort⟩ := underway_onTick hdue hrunning
    refine ⟨hnext, by omega, ?_⟩
    split <;> omega
  · have hkept : u.Underway := by
      cases h with
      | waiting hrunning hpending hin =>
        rw [hcons, List.mem_cons] at hin
        have hlater := hin.resolve_left fun heq => hdue (heq ▸ hpending)
        exact .waiting hrunning hpending (hwaiting ▸ hlater)
      | ended hcomplete hnone => exact .ended hcomplete hnone
    simp only [onTick_of_stale hdue]
    exact ⟨hkept, by omega, Nat.le_refl _⟩

end Tick

/-- With ticks enough the queue runs empty, and the run takes no more of them than it could. -/
theorem Underway.tickMany (fuel : Nat) {s : Simulator TickQueue} (h : s.Underway)
    (hfuel : s.ticks.pending + s.effort ≤ fuel) :
    (s.tickMany fuel).2.Underway ∧ (s.tickMany fuel).2.ticks.waiting = [] ∧
      (s.tickMany fuel).1.countP (· ≠ .ignored) ≤ s.effort := by
  induction fuel generalizing s with
  | zero =>
    have hnone : s.ticks.waiting.length = 0 := by
      rw [TickQueue.pending] at hfuel
      omega
    exact ⟨h, List.length_eq_zero_iff.mp hnone, Nat.zero_le _⟩
  | succ fuel ih =>
    unfold Simulator.tickMany
    cases hwaiting : s.ticks.waiting with
    | nil =>
      rw [tick_of_nil hwaiting]
      exact ⟨h, hwaiting, Nat.zero_le _⟩
    | cons first rest =>
      obtain ⟨hnext, hless, hcounted⟩ := h.fired hwaiting
      obtain ⟨hlast, hdrained, hrest⟩ := ih hnext (by omega)
      rw [tick_of_cons hwaiting]
      refine ⟨hlast, hdrained, ?_⟩
      rw [List.countP_cons]
      simp only [decide_eq_true_eq]
      omega

/-- A run that is left to its ticks ends. Once the oldest tick was fired and delivered often enough,
the queue is empty, the state complete and no tick pending, and not more cycles were taken than the
instructions and their stalls allow for. -/
theorem automatic_run_ends (config : Config) (program : Program) (actions : List Action)
    (handle : TickHandle) :
    let s := ofActions config program actions
    let bound := (s.program.length + 6) +
      s.program.length * (1 + max config.loadStall config.defaultStall) + s.state.stallCounter
    s.state.status = .running → s.pending = some handle → handle ∈ s.ticks.waiting →
      ∀ fuel, s.ticks.pending + bound ≤ fuel →
        let last := (s.tickMany fuel).2
        last.ticks.waiting = [] ∧ last.state.status = .complete ∧ last.pending = none ∧
          (s.tickMany fuel).1.countP (· ≠ .ignored) ≤ bound := by
  intro s bound hrunning hpending hin fuel hfuel last
  have hconfig : s.config = config :=
    ((new config program).history_performAll actions .initial).1
  have hbound : s.effort ≤ bound := by
    rw [effort, if_pos hrunning, hconfig]
    exact (history_ofActions config program actions).allowance_le
  have hunderway : s.Underway := .waiting hrunning hpending hin
  obtain ⟨hlast, hdrained, hcounted⟩ := hunderway.tickMany fuel (by omega)
  refine ⟨hdrained, ?_, ?_, Nat.le_trans hcounted hbound⟩
  · cases hlast with
    | waiting _ _ hwaiting =>
      rw [hdrained] at hwaiting
      cases hwaiting
    | ended hcomplete _ => exact hcomplete
  · cases hlast with
    | waiting _ _ hwaiting =>
      rw [hdrained] at hwaiting
      cases hwaiting
    | ended _ hnone => exact hnone

/-- The run is in a stall, and a tick of the host comes before its own. -/
theorem automatic_run_ends_from_stall :
    let s := ofActions .standard .chain [.schedule, .start, .advance, .advance, .advance]
    let last := (s.tickMany 26).2
    s.state.status = .running ∧ s.pending = some 2 ∧ s.ticks.waiting = [1, 2] ∧
      s.program.length = 4 ∧ s.state.stallCounter = 2 ∧
      last.ticks.waiting = [] ∧ last.state.status = .complete ∧ last.pending = none ∧
      (s.tickMany 26).1.countP (· ≠ .ignored) ≤ 24 := by
  have hends := automatic_run_ends .standard .chain
    [.schedule, .start, .advance, .advance, .advance] 2
  have hstart :
      let s := ofActions .standard .chain [.schedule, .start, .advance, .advance, .advance]
      s.state.status = .running ∧ s.pending = some 2 ∧ s.ticks.waiting = [1, 2] ∧
        s.program.length = 4 ∧ s.state.stallCounter = 2 := by
    decide +kernel
  dsimp only at hends hstart ⊢
  generalize ofActions .standard .chain [.schedule, .start, .advance, .advance, .advance] = s at *
  obtain ⟨hrunning, hpending, hwaiting, hlength, hstall⟩ := hstart
  have hin : 2 ∈ s.ticks.waiting := by
    rw [hwaiting]
    decide
  have hafter := hends hrunning hpending hin 26
  rw [TickQueue.pending, hwaiting, hlength, hstall] at hafter
  exact ⟨hrunning, hpending, hwaiting, hlength, hstall, hafter (by decide)⟩

end Simulator

end FiveStage
