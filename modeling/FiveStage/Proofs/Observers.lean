import FiveStage.Proofs.Conservation
import FiveStage.Proofs.Refusals
import FiveStage.View.Pipeline

/-!
# What observers hear

An action that changes the state or the program tells every observer, in the order they were added,
and what it tells last is what holds when it ends; an action that does nothing tells nobody. So what
an observer heard last still holds, and every instruction in a pipe it heard of is one of the
program it heard of with it.
-/
namespace FiveStage

namespace Notification

/-- Every observer is told once, in the order they were added. -/
def round (observers : Nat) (state : State) (program : Program) : List Notification :=
  (List.range observers).map fun k => ⟨k, state, program⟩

variable {observers : Nat} {state : State} {program : Program}

theorem mem_round {n : Notification} : n ∈ round observers state program ↔
    n.observer < observers ∧ n.state = state ∧ n.program = program := by
  simp only [round, List.mem_map, List.mem_range]
  constructor
  · rintro ⟨k, hk, rfl⟩
    exact ⟨hk, rfl, rfl⟩
  · rintro ⟨hk, rfl, rfl⟩
    exact ⟨n.observer, hk, rfl⟩

theorem filter_round {k : Nat} (h : k < observers) :
    (round observers state program).filter (·.observer = k) = [⟨k, state, program⟩] := by
  have hone : (List.range observers).filter (· = k) = [k] := by
    rw [List.filter_eq, List.count_eq_one_of_mem List.nodup_range (List.mem_range.mpr h)]
    rfl
  rw [round, List.filter_map]
  exact congrArg _ hone

end Notification

/-- Whether an action with this answer told the observers what it led to. -/
def Action.tells : Action → Answer → Bool
  | .start, .started accepted => accepted
  | .pause, _ | .init, _ | .reset, _ => true
  | .step, .outcome outcome | .advance, .outcome outcome | .deliver _, .outcome outcome =>
    outcome ≠ .ignored
  | .load _, .loaded result => result.isOk
  | _, _ => false

namespace Pipeline

theorem mem_inFlight_of_occupant {p : Pipeline} {stage : Stage} {id : InstructionId}
    (h : p.occupant stage = some id) : id ∈ p.inFlight := by
  refine List.mem_filterMap.mpr ⟨p.slot stage, ?_, h⟩
  cases stage <;> simp [slot]

end Pipeline

theorem Program.exists_lookup {program : Program} {id : InstructionId} (h : id ∈ program.ids) :
    ∃ instruction, program.lookup id = some instruction := by
  obtain ⟨x, hx, rfl⟩ := List.mem_map.mp h
  exact Option.isSome_iff_exists.mp (List.find?_isSome.mpr ⟨x, hx, beq_self_eq_true x.id⟩)

/-- Every number in the pipe stands for an instruction of the program. -/
def State.Resolves (program : Program) (s : State) : Prop :=
  ∀ stage id, s.pipeline.occupant stage = some id →
    ∃ instruction, program.lookup id = some instruction

theorem State.pipeline_halt (s : State) : s.halt.pipeline = s.pipeline := by
  unfold halt moveTo?
  split <;> rfl

theorem State.Resolves.halt {program : Program} {s : State} (h : s.Resolves program) :
    s.halt.Resolves program := by
  unfold Resolves
  rw [s.pipeline_halt]
  exact h

/-- What is in the pipe was fetched. -/
theorem History.resolves {config : Config} {program : Program} {turns : List Turn} {s : State}
    (h : History config program turns s) : s.Resolves program := by
  intro stage id hid
  apply Program.exists_lookup
  apply List.mem_of_mem_take
  rw [← h.departed_append_inFlight]
  exact List.mem_append_right _ (Pipeline.mem_inFlight_of_occupant hid)

/-- A slot shows `ERR` only for a number that stands for no instruction: the label of an instruction
has a blank in it. -/
theorem View.slotText_ne_err {program : Program} {slot : Slot}
    (h : ∀ id, slot.instruction = some id → ∃ instruction, program.lookup id = some instruction) :
    slotText program slot ≠ "ERR" := by
  unfold slotText
  cases hslot : slot.instruction with
  | none =>
    show "" ≠ "ERR"
    decide
  | some id =>
    obtain ⟨instruction, hlookup⟩ := h id hslot
    intro herr
    have hblank : ' ' ∈ "ERR".toList := by
      rw [← herr]
      simp [hlookup, Instruction.label]
    exact absurd hblank (by decide)

namespace Simulator

section Fields

variable {σ : Type} (s : Simulator σ)

@[simp] theorem observers_notify : s.notify.observers = s.observers := rfl

theorem log_notify :
    s.notify.log = s.log ++ Notification.round s.observers s.state s.program := rfl

@[simp] theorem observers_advance : s.advance.2.observers = s.observers := by
  unfold advance
  split <;> rfl

theorem log_advance : s.advance.2.log = s.log ++
    if s.advance.1 = .ignored then []
    else Notification.round s.observers s.advance.2.state s.program := by
  unfold advance
  split
  · simp
  · next outcome state hother he =>
    rw [if_neg hother]
    rfl

variable [TickSource σ]

@[simp] theorem observers_release : s.release.observers = s.observers := by
  unfold release
  split <;> rfl

@[simp] theorem log_release : s.release.log = s.log := by
  unfold release
  split <;> rfl

@[simp] theorem observers_arm : s.arm.observers = s.observers := s.observers_release
@[simp] theorem log_arm : s.arm.log = s.log := s.log_release

theorem log_rearm : (if s.state.status = .running then s.arm else s).log = s.log := by
  split
  · exact s.log_arm
  · rfl

@[simp] theorem observers_pause : s.pause.observers = s.observers := s.observers_release

theorem log_pause :
    s.pause.log = s.log ++ Notification.round s.observers s.pause.state s.pause.program := by
  simp [pause, log_notify]

theorem log_onTick (handle : TickHandle) : (s.onTick handle).2.log = s.log ++
    if (s.onTick handle).1 = .ignored then []
    else Notification.round s.observers (s.onTick handle).2.state s.program := by
  unfold onTick
  dsimp only
  split
  · split
    · rw [log_rearm, state_rearm]
      exact log_advance _
    · simp
  · simp

theorem log_step : s.step.2.log = s.log ++
    (if s.state.status = .running then Notification.round s.observers s.state.halt s.program
      else []) ++
    if s.step.1 = .ignored then []
    else Notification.round s.observers s.step.2.state s.program := by
  unfold step
  split
  · rw [log_advance, log_pause, observers_pause, program_pause, state_pause]
  · rw [log_advance, List.append_nil]

theorem log_start : s.start.2.log = s.log ++
    if s.start.1 then Notification.round s.observers s.start.2.state s.start.2.program
    else [] := by
  unfold start
  split
  · simp
  · split
    · simp
    · simp [log_notify]

theorem log_init :
    s.init.log = s.log ++ Notification.round s.observers s.init.state s.init.program := by
  simp [init, log_notify]

theorem log_load (source : String) : (s.load source).2.log = s.log ++
    if (s.load source).1.isOk then
      Notification.round s.observers (s.load source).2.state (s.load source).2.program
    else [] := by
  unfold load
  split
  · simp [Except.isOk, Except.toBool]
  · simp [Except.isOk, Except.toBool, log_notify]

theorem program_step : s.step.2.program = s.program :=
  (program_advance _).trans s.program_beforeStep

theorem observers_start : s.start.2.observers = s.observers := by
  unfold start
  split
  · rfl
  · split <;> simp

theorem observers_onTick (handle : TickHandle) :
    (s.onTick handle).2.observers = s.observers := by
  unfold onTick
  dsimp only
  split
  · split
    · split <;> simp
    · rfl
  · rfl

theorem observers_step : s.step.2.observers = s.observers := by
  unfold step
  split <;> simp

theorem observers_load (source : String) : (s.load source).2.observers = s.observers := by
  unfold load
  split <;> simp

end Fields

section Heard

variable (s : Simulator TickQueue)

/-- A step of a run that goes on pauses it first, and the observers hear of that too. -/
def pausesFirst (action : Action) : Bool := action = .step ∧ s.state.status = .running

/-- What an action tells the observers. -/
def told (action : Action) : List Notification :=
  (if s.pausesFirst action then Notification.round s.observers s.state.halt s.program else []) ++
    if action.tells (s.perform action).1 then
      Notification.round s.observers (s.perform action).2.state (s.perform action).2.program
    else []

/-- An observer once added stays. -/
theorem observers_perform (action : Action) : (s.perform action).2.observers =
    s.observers + if action = .observe then 1 else 0 := by
  cases action with
  | start => exact s.observers_start
  | pause => exact s.observers_pause
  | step => exact s.observers_step
  | advance => exact s.observers_advance
  | deliver handle => exact s.observers_onTick handle
  | init => exact s.observers_release
  | reset => exact s.observers_release
  | load source => exact s.observers_load source
  | observe => rfl
  | schedule => rfl
  | cancel handle => rfl
  | fire => rfl

theorem observers_performAll (actions : List Action) :
    (s.performAll actions).2.observers = s.observers + actions.count .observe := by
  induction actions generalizing s with
  | nil => rfl
  | cons action rest ih =>
    show ((s.perform action).2.performAll rest).2.observers = _
    simp only [ih, observers_perform, List.count_cons, beq_iff_eq]
    omega

theorem told_of_ne {action : Action} (h : action ≠ .step) : s.told action =
    if action.tells (s.perform action).1 then
      Notification.round s.observers (s.perform action).2.state (s.perform action).2.program
    else [] := by
  simp [told, pausesFirst, h]

theorem told_step : s.told .step =
    (if s.state.status = .running then Notification.round s.observers s.state.halt s.program
      else []) ++
    if s.step.1 = .ignored then []
    else Notification.round s.observers s.step.2.state s.program := by
  simp [told, pausesFirst, perform, Action.tells, s.program_step]

/-- What an action adds to the log. -/
theorem log_perform (action : Action) :
    (s.perform action).2.log = s.log ++ s.told action := by
  by_cases hstep : action = .step
  · subst hstep
    rw [told_step, ← List.append_assoc]
    exact s.log_step
  · rw [told_of_ne s hstep]
    cases action with
    | start => exact s.log_start
    | pause => exact s.log_pause
    | step => exact absurd rfl hstep
    | advance => simp [perform, Action.tells, s.log_advance]
    | deliver handle => simp [perform, Action.tells, s.log_onTick, s.program_onTick]
    | init => exact s.log_init
    | reset => exact s.log_init
    | load source => exact s.log_load source
    | observe => exact (List.append_nil _).symm
    | schedule => exact (List.append_nil _).symm
    | cancel handle => exact (List.append_nil _).symm
    | fire => exact (List.append_nil _).symm

theorem mem_told {action : Action} {n : Notification} (h : n ∈ s.told action) :
    n.observer < s.observers ∧
      (n.state = s.state.halt ∧ n.program = s.program ∨
        n.state = (s.perform action).2.state ∧ n.program = (s.perform action).2.program) := by
  rcases List.mem_append.mp h with hpause | hend
  · obtain ⟨_, hround⟩ := List.mem_ite_nil_right.mp hpause
    obtain ⟨hobserver, hview⟩ := Notification.mem_round.mp hround
    exact ⟨hobserver, .inl hview⟩
  · obtain ⟨_, hround⟩ := List.mem_ite_nil_right.mp hend
    obtain ⟨hobserver, hview⟩ := Notification.mem_round.mp hround
    exact ⟨hobserver, .inr hview⟩

/-- What one observer heard, the last of it at the end. -/
def heardBy (k : Nat) : List Notification := s.log.filter (·.observer = k)

/-- Each observer hears once of a pause ahead of a step, and once of what an action led to. -/
theorem heardBy_perform (action : Action) {k : Nat} (hk : k < s.observers) :
    (s.perform action).2.heardBy k = s.heardBy k ++
      (if s.pausesFirst action then [⟨k, s.state.halt, s.program⟩] else []) ++
      if action.tells (s.perform action).1 then
        [⟨k, (s.perform action).2.state, (s.perform action).2.program⟩]
      else [] := by
  rw [heardBy, log_perform, told, List.filter_append, List.filter_append, ← List.append_assoc]
  congr 2
  · split
    · exact Notification.filter_round hk
    · rfl
  · split
    · exact Notification.filter_round hk
    · rfl

/-- What tells nobody: what is refused, a tick that is stale or finds no run going on, and what the
host does on its own. -/
def quiet : Action → Bool
  | .deliver handle => ¬ (s.pending = some handle ∧ s.state.status = .running)
  | .observe | .schedule | .cancel _ | .fire => true
  | action => s.refuses action

theorem onTick_eq_ignored_iff (handle : TickHandle) : (s.onTick handle).1 = .ignored ↔
    ¬ (s.pending = some handle ∧ s.state.status = .running) := by
  constructor
  · rintro hignored ⟨hpending, hrunning⟩
    rw [(onTick_of_running hpending hrunning).1, State.advance_eq_ignored_iff, hrunning] at hignored
    rcases hignored with h | h <;> cases h
  · intro h
    unfold onTick
    dsimp only
    split
    · next hpending => rw [if_neg fun hrunning => h ⟨hpending, hrunning⟩]
    · rfl

/-- Whether an action tells anyone is settled before it is done. -/
theorem tells_perform (action : Action) :
    action.tells (s.perform action).1 = !s.quiet action := by
  have hrefuses := s.refusedBy_perform action
  cases action with
  | start => exact (Bool.not_not _).symm.trans (congrArg not hrefuses)
  | step =>
    show _ = !s.refuses .step
    rw [← hrefuses]
    simp [Action.tells, Action.refusedBy, perform]
  | advance =>
    show _ = !s.refuses .advance
    rw [← hrefuses]
    simp [Action.tells, Action.refusedBy, perform]
  | deliver handle => simp [Action.tells, quiet, perform, s.onTick_eq_ignored_iff handle]
  | load source => exact (Bool.not_not _).symm.trans (congrArg not hrefuses)
  | _ => rfl

/-- What is quiet leads to nothing new. -/
theorem perform_of_quiet {s : Simulator TickQueue} {action : Action} (h : s.quiet action = true) :
    (s.perform action).2.state = s.state ∧ (s.perform action).2.program = s.program ∧
      (s.perform action).2.log = s.log := by
  have hrefused : s.refuses action = true →
      (s.perform action).2.state = s.state ∧ (s.perform action).2.program = s.program ∧
        (s.perform action).2.log = s.log := by
    intro hrefuses
    rw [perform_of_refuses hrefuses]
    exact ⟨rfl, rfl, rfl⟩
  cases action with
  | start => exact hrefused h
  | step => exact hrefused h
  | advance => exact hrefused h
  | load source => exact hrefused h
  | deliver handle =>
    have hignored : (s.onTick handle).1 = .ignored :=
      (s.onTick_eq_ignored_iff handle).mpr (of_decide_eq_true h)
    refine ⟨?_, s.program_onTick handle, ?_⟩
    · rcases s.onTick_cases handle with ⟨ho, ht⟩ | ⟨_, ht⟩
      · exact ht.trans (State.advance_of_ignored (ho.symm.trans hignored))
      · exact ht
    · show (s.onTick handle).2.log = s.log
      rw [log_onTick, if_pos hignored, List.append_nil]
  | pause => cases h
  | init => cases h
  | reset => cases h
  | observe => exact ⟨rfl, rfl, rfl⟩
  | schedule => exact ⟨rfl, rfl, rfl⟩
  | cancel handle => exact ⟨rfl, rfl, rfl⟩
  | fire => exact ⟨rfl, rfl, rfl⟩

end Heard

/-- What the observers heard is right: it went to those there are, what each of them heard last
still holds, and no number in a pipe they heard of is without its instruction. -/
structure Informed (s : Simulator TickQueue) : Prop where
  numbered : ∀ n ∈ s.log, n.observer < s.observers
  latest : ∀ k n, (s.heardBy k).getLast? = some n → n.state = s.state ∧ n.program = s.program
  whole : ∀ n ∈ s.log, n.state.Resolves n.program

namespace Informed

variable {s : Simulator TickQueue} {turns : List Turn}

theorem initial (config : Config) (program : Program) : (new config program).Informed where
  numbered _ hn := absurd hn List.not_mem_nil
  latest k n hn := by cases hn
  whole _ hn := absurd hn List.not_mem_nil

theorem of_mem_log (h : s.Informed) {action : Action} {n : Notification}
    (hn : n ∈ (s.perform action).2.log) : n.observer < s.observers := by
  rw [log_perform] at hn
  rcases List.mem_append.mp hn with hold | hnew
  · exact h.numbered n hold
  · exact (s.mem_told hnew).1

theorem perform (h : s.Informed) (history : History s.config s.program turns s.state)
    (action : Action) : (s.perform action).2.Informed where
  numbered n hn := by
    rw [observers_perform]
    exact Nat.lt_add_right _ (h.of_mem_log hn)
  latest k n hn := by
    cases hquiet : s.quiet action with
    | true =>
      obtain ⟨hstate, hprogram, hlog⟩ := perform_of_quiet hquiet
      rw [heardBy, hlog] at hn
      rw [hstate, hprogram]
      exact h.latest k n hn
    | false =>
      have htells : action.tells (s.perform action).1 = true := by rw [tells_perform, hquiet]; rfl
      obtain ⟨hmem, hk⟩ := List.mem_filter.mp (List.mem_of_getLast? hn)
      have hobserver : k < s.observers := of_decide_eq_true hk ▸ h.of_mem_log hmem
      rw [s.heardBy_perform action hobserver, if_pos htells, List.getLast?_concat] at hn
      cases hn
      exact ⟨rfl, rfl⟩
  whole n hn := by
    rw [log_perform] at hn
    rcases List.mem_append.mp hn with hold | hnew
    · exact h.whole n hold
    · rcases (s.mem_told hnew).2 with ⟨hstate, hprogram⟩ | ⟨hstate, hprogram⟩
      · rw [hstate, hprogram]
        exact history.resolves.halt
      · rw [hstate, hprogram]
        exact (s.history_perform action history).resolves

theorem performAll (actions : List Action) (h : s.Informed)
    (history : History s.config s.program turns s.state) :
    (s.performAll actions).2.Informed := by
  induction actions generalizing s turns with
  | nil => exact h
  | cons action rest ih =>
    have hnext := s.history_perform action history
    rw [← s.config_perform action] at hnext
    exact ih (h.perform history action) hnext

end Informed

/-- Whatever a run has done, its observers are those added so far, what each of them heard last
still holds, and every number in a slot they heard of resolves, so that none shows `ERR`. The next
action adds to the log just this: if it is a step of a run that goes on, the pause, to all observers
in order; and unless it is quiet, what it led to, to all in order, so that each hears of a cycle
once. A quiet action leaves the state, the program and the log as they were. -/
theorem observers_up_to_date (config : Config) (program : Program) (actions : List Action) :
    let s := ofActions config program actions
    s.observers = actions.count .observe ∧
      (∀ k n, (s.heardBy k).getLast? = some n → n.state = s.state ∧ n.program = s.program) ∧
      (∀ n ∈ s.log, ∀ stage, let slot := n.state.pipeline.slot stage
        (∀ id, slot.instruction = some id → ∃ instruction, n.program.lookup id = some instruction) ∧
          View.slotText n.program slot ≠ "ERR") ∧
      ∀ action, let answer := (s.perform action).1; let t := (s.perform action).2
        t.log = s.log ++
            (if s.pausesFirst action then Notification.round s.observers s.state.halt s.program
              else []) ++
            (if action.tells answer then Notification.round s.observers t.state t.program
              else []) ∧
          (∀ k < s.observers, t.heardBy k = s.heardBy k ++
            (if s.pausesFirst action then [⟨k, s.state.halt, s.program⟩] else []) ++
            if action.tells answer then [⟨k, t.state, t.program⟩] else []) ∧
          action.tells answer = (!s.quiet action) ∧
          (s.quiet action = true →
            t.state = s.state ∧ t.program = s.program ∧ t.log = s.log) := by
  intro s
  have hinformed : s.Informed := (Informed.initial config program).performAll actions .initial
  refine ⟨?_, hinformed.latest, ?_, ?_⟩
  · exact ((new config program).observers_performAll actions).trans (Nat.zero_add _)
  · intro n hn stage slot
    have hresolves := hinformed.whole n hn stage
    exact ⟨hresolves, View.slotText_ne_err hresolves⟩
  · intro action answer t
    refine ⟨?_, fun k hk => s.heardBy_perform action hk, s.tells_perform action, perform_of_quiet⟩
    rw [List.append_assoc]
    exact s.log_perform action

/-- A second observer comes in while a run goes on. A step then pauses the run, of which both hear,
and stalls. A new program is loaded within the stall: both hear of it with empty slots, and what
they heard of the stall still names instructions of the old one. -/
theorem observers_up_to_date_across_reload :
    let s := ofActions .standard .chain
      [.observe, .start, .fire, .deliver 1, .fire, .deliver 2, .observe, .step]
    let t := (s.perform (.load "JR R1")).2
    s.state.stallCounter = 2 ∧
      s.log.map (fun n => (n.observer, n.state.cycle)) =
        [(0, 0), (0, 1), (0, 2), (0, 2), (1, 2), (0, 3), (1, 3)] ∧
      t.log = s.log ++ [⟨0, .initial, t.program⟩, ⟨1, .initial, t.program⟩] ∧
      t.program ≠ s.program ∧
      ∀ n ∈ s.log, View.slotText n.program n.state.pipeline.decode ≠ "ERR" := by
  intro s t
  obtain ⟨_, _, hresolves, hnext⟩ := observers_up_to_date .standard .chain
    [.observe, .start, .fire, .deliver 1, .fire, .deliver 2, .observe, .step]
  have hloaded : Action.tells (.load "JR R1") (s.perform (.load "JR R1")).1 = true := by
    decide +kernel
  have htwo : s.observers = 2 := by decide +kernel
  have hlog := (hnext (.load "JR R1")).1
  rw [if_neg (by decide), List.append_nil, if_pos hloaded, htwo] at hlog
  refine ⟨by decide +kernel, by decide +kernel, hlog, by decide +kernel, fun n hn => ?_⟩
  exact (hresolves n hn .decode).2

end Simulator

end FiveStage
