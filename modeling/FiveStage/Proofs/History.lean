import FiveStage.Proofs.Cycle
import FiveStage.Simulator.Action

/-!
# Histories

A history is what happened to a state since it was initial: moves between running and paused, and
turns, the cycles that were not ignored. Whatever actions a simulator is put through, its state has
a history, and the turns of that history are the ones the actions gave since the last restart. So a
fact about all histories is a fact about all runs: `history_ofActions`.
-/
namespace FiveStage

/-- A cycle that was not ignored. -/
structure Turn where
  /-- The state in which the cycle began. -/
  before : State
  outcome : Outcome
  after : State

namespace Turn

def ofCycle? (before : State) (outcome : Outcome) (after : State) : Option Turn :=
  if outcome = .ignored then none else some ⟨before, outcome, after⟩

/-- The instruction that left the pipe: the one that was in WB when the instructions moved. -/
def departed? (t : Turn) : Option InstructionId :=
  match t.outcome with
  | .advanced .. | .completed => t.before.pipeline.writeBack.instruction
  | .ignored | .stalled _ => none

def retired? (t : Turn) : Option InstructionId :=
  match t.outcome with
  | .advanced retired _ => retired
  | .ignored | .stalled _ | .completed => none

end Turn

def State.halt (s : State) : State := (s.moveTo? .paused).getD s

/-- The state after a request to move, if it is granted. Without a request it stays as it is. -/
def State.grant? (s : State) : Option Status → Option State
  | none => some s
  | some next => s.moveTo? next

theorem State.grant?_paused (s : State) :
    s.grant? (if s.status = .running then some .paused else none) = some s.halt := by
  unfold halt grant? moveTo?
  cases hs : s.status <;> simp [Status.canMoveTo]

/-- The move that an action asks for, ahead of any cycle. -/
def Action.request (status : Status) : Action → Option Status
  | .start => if status = .running then none else some .running
  | .pause | .step => if status = .running then some .paused else none
  | _ => none

theorem Action.request_ne_complete {status next : Status} {action : Action}
    (h : action.request status = some next) : next ≠ .complete := by
  unfold request at h
  split at h
  · split at h <;> cases h
    decide
  · split at h <;> cases h
    decide
  · split at h <;> cases h
    decide
  · cases h

/-- The states of a program and the turns that lead to them from the initial state. -/
inductive History (config : Config) (program : Program) : List Turn → State → Prop
  | initial : History config program [] .initial
  | move {turns : List Turn} {s t : State} (next : Status) (h : History config program turns s)
      (hnext : next ≠ .complete) (hmove : s.moveTo? next = some t) : History config program turns t
  | turn {turns : List Turn} {s t : State} {outcome : Outcome} (h : History config program turns s)
      (hactive : s.Active) (hcycled : s.Cycled config program outcome t) :
      History config program (turns ++ [⟨s, outcome, t⟩]) t

namespace History

variable {config : Config} {program : Program} {turns : List Turn} {s : State}

theorem eq_of_moveTo {s t : State} {next : Status} (h : s.moveTo? next = some t) :
    t = { s with status := next } := by
  unfold State.moveTo? at h
  split at h
  · exact (Option.some.inj h).symm
  · cases h

/-- A request that is granted leads on without a turn. -/
theorem grant {t : State} {action : Action} (h : History config program turns s)
    (hrequest : s.grant? (action.request s.status) = some t) : History config program turns t := by
  cases hnext : action.request s.status with
  | none =>
    rw [hnext] at hrequest
    obtain rfl := Option.some.inj hrequest
    exact h
  | some next =>
    rw [hnext] at hrequest
    exact h.move next (Action.request_ne_complete hnext) hrequest

/-- A fact that does not depend on the status holds in every history if it holds initially and
both kinds of cycle keep it. -/
theorem preserves {P : State → Prop} (h : History config program turns s) (initial : P .initial)
    (status : ∀ s next, P s → P { s with status := next })
    (served : ∀ s, 0 < s.stallCounter → P s → P s.serveStall.2)
    (moved : ∀ s, s.stallCounter = 0 → P s → P (s.moveOn config program).2) : P s := by
  induction h with
  | initial => exact initial
  | @move turns s t next h hnext hmove ih =>
    rw [eq_of_moveTo hmove]
    exact status s next ih
  | @turn turns s t outcome h hactive hcycled ih =>
    cases hcycled with
    | served hpos => exact served s hpos ih
    | moved hzero _ => exact moved s hzero ih
    | finished hzero _ => exact status _ .complete (moved s hzero ih)

/-- Every turn of a history is a cycle of a state with a history of its own. -/
theorem of_mem_turns (h : History config program turns s) {t : Turn} (ht : t ∈ turns) :
    ∃ earlier, History config program earlier t.before ∧ t.before.Active ∧
      t.before.Cycled config program t.outcome t.after := by
  induction h with
  | initial => cases ht
  | move next h hnext hmove ih => exact ih ht
  | @turn turns s t outcome h hactive hcycled ih =>
    rcases List.mem_append.mp ht with hold | hnew
    · exact ih hold
    · obtain rfl := List.mem_singleton.mp hnew
      exact ⟨turns, h, hactive, hcycled⟩

end History

/-- Whether an action with this answer put the simulator back into the initial state. -/
def Action.restarts : Action → Answer → Bool
  | .init, _ | .reset, _ => true
  | .load _, .loaded (.ok _) => true
  | _, _ => false

namespace Simulator

section Fields

variable {σ : Type} (s : Simulator σ)

@[simp] theorem config_notify : s.notify.config = s.config := rfl
@[simp] theorem program_notify : s.notify.program = s.program := rfl
@[simp] theorem state_notify : s.notify.state = s.state := rfl

theorem advance_outcome : s.advance.1 = (s.state.advance s.config s.program).1 := by
  unfold advance
  split <;> simp_all

@[simp] theorem config_advance : s.advance.2.config = s.config := by
  unfold advance
  split <;> rfl

@[simp] theorem program_advance : s.advance.2.program = s.program := by
  unfold advance
  split <;> rfl

theorem state_advance : s.advance.2.state = (s.state.advance s.config s.program).2 := by
  unfold advance
  split
  · next state he =>
    exact (State.advance_of_ignored (congrArg Prod.fst he)).symm
  · next outcome state _ he => exact (congrArg Prod.snd he).symm

variable [TickSource σ]

@[simp] theorem config_release : s.release.config = s.config := by
  unfold release
  split <;> rfl

@[simp] theorem program_release : s.release.program = s.program := by
  unfold release
  split <;> rfl

@[simp] theorem state_release : s.release.state = s.state := by
  unfold release
  split <;> rfl

@[simp] theorem config_arm : s.arm.config = s.config := s.config_release
@[simp] theorem program_arm : s.arm.program = s.program := s.program_release
@[simp] theorem state_arm : s.arm.state = s.state := s.state_release

/-- The next tick is asked for only while a run goes on. The state is the same either way. -/
theorem state_rearm : (if s.state.status = .running then s.arm else s).state = s.state := by
  split
  · exact s.state_arm
  · rfl

@[simp] theorem config_pause : s.pause.config = s.config := s.config_release
@[simp] theorem program_pause : s.pause.program = s.program := s.program_release

theorem state_pause : s.pause.state = s.state.halt := by
  simp only [pause, state_notify, state_release, State.halt]

theorem config_start : s.start.2.config = s.config := by
  unfold start
  split
  · rfl
  · split <;> simp

theorem config_onTick (handle : TickHandle) : (s.onTick handle).2.config = s.config := by
  unfold onTick
  dsimp only
  split
  · split
    · split <;> simp
    · rfl
  · rfl

theorem program_start : s.start.2.program = s.program := by
  unfold start
  split
  · rfl
  · split <;> simp

theorem program_onTick (handle : TickHandle) :
    (s.onTick handle).2.program = s.program := by
  unfold onTick
  dsimp only
  split
  · split
    · split <;> simp
    · rfl
  · rfl

/-- The simulator with its pending tick used up. -/
def used : Simulator σ := { s with pending := none }

variable {s} in
/-- The pending tick of a run is used up by a cycle, and the next tick is asked for unless the cycle
ended the run. -/
theorem onTick_eq {handle : TickHandle} (hpending : s.pending = some handle)
    (hrunning : s.state.status = .running) : s.onTick handle = (s.used.advance.1,
      if s.used.advance.2.state.status = .running then s.used.advance.2.arm
      else s.used.advance.2) := by
  rw [onTick, if_pos hpending]
  exact if_pos hrunning

variable {s} in
/-- The pending tick drives a run by one cycle. -/
theorem onTick_of_running {handle : TickHandle} (hpending : s.pending = some handle)
    (hrunning : s.state.status = .running) :
    (s.onTick handle).1 = (s.state.advance s.config s.program).1 ∧
      (s.onTick handle).2.state = (s.state.advance s.config s.program).2 := by
  rw [onTick_eq hpending hrunning]
  dsimp only
  rw [state_rearm]
  exact ⟨s.used.advance_outcome, s.used.state_advance⟩

theorem onTick_cases (handle : TickHandle) :
    (s.onTick handle).1 = (s.state.advance s.config s.program).1 ∧
        (s.onTick handle).2.state = (s.state.advance s.config s.program).2 ∨
      (s.onTick handle).1 = .ignored ∧ (s.onTick handle).2.state = s.state := by
  by_cases hpending : s.pending = some handle
  · by_cases hrunning : s.state.status = .running
    · exact .inl (onTick_of_running hpending hrunning)
    · right
      rw [onTick, if_pos hpending]
      dsimp only
      rw [if_neg hrunning]
      exact ⟨rfl, rfl⟩
  · right
    rw [onTick, if_neg hpending]
    exact ⟨rfl, rfl⟩

theorem config_beforeStep :
    (if s.state.status = .running then s.pause else s).config = s.config := by
  split
  · exact s.config_pause
  · rfl

theorem program_beforeStep :
    (if s.state.status = .running then s.pause else s).program = s.program := by
  split
  · exact s.program_pause
  · rfl

/-- The simulator in which a step takes its cycle has paused, unless it was not running. -/
theorem state_beforeStep :
    (if s.state.status = .running then s.pause else s).state = s.state.halt := by
  split
  · exact s.state_pause
  · next hs =>
    have hno : s.state.status.canMoveTo .paused = false := by
      revert hs
      cases s.state.status <;> decide
    simp [State.halt, State.moveTo?, hno]

theorem step_outcome : s.step.1 = (s.state.halt.advance s.config s.program).1 := by
  rw [step, advance_outcome, state_beforeStep, program_beforeStep, config_beforeStep]

theorem state_step : s.step.2.state = (s.state.halt.advance s.config s.program).2 := by
  rw [step, state_advance, state_beforeStep, program_beforeStep, config_beforeStep]

end Fields

def new (config : Config) (program : Program) : Simulator TickQueue :=
  { config, program, ticks := {} }

/-- The simulator that a run of actions leads to. -/
def ofActions (config : Config) (program : Program) (actions : List Action) :
    Simulator TickQueue := ((new config program).performAll actions).2

/-- The state in which an action begins its cycle, if it takes one. A step pauses first. -/
def cycleStart (s : Simulator TickQueue) : Action → State
  | .step => s.state.halt
  | _ => s.state

/-- The turn that an action gives, if it gives one. -/
def turn? (s : Simulator TickQueue) (action : Action) : Option Turn :=
  match (s.perform action).1 with
  | .outcome outcome =>
    Turn.ofCycle? (s.cycleStart action) outcome (s.perform action).2.state
  | _ => none

/-- The turns given since the last restart by a run of actions that follows on earlier turns. -/
def turnsAfter (earlier : List Turn) (s : Simulator TickQueue) : List Action → List Turn
  | [] => earlier
  | action :: rest =>
    (s.perform action).2.turnsAfter
      (if action.restarts (s.perform action).1 then [] else earlier ++ (s.turn? action).toList) rest

/-- The turns since the last restart of a run of actions. -/
def turnsOf (config : Config) (program : Program) (actions : List Action) : List Turn :=
  (new config program).turnsAfter [] actions

theorem config_perform (s : Simulator TickQueue) (action : Action) :
    (s.perform action).2.config = s.config := by
  cases action with
  | start => exact s.config_start
  | pause => exact s.config_pause
  | step => exact (config_advance _).trans s.config_beforeStep
  | advance => exact s.config_advance
  | deliver handle => exact s.config_onTick handle
  | init => simp [perform, init]
  | reset => simp [perform, reset, init]
  | load source =>
    simp only [perform, load]
    split
    · rfl
    · simp
  | observe => rfl
  | schedule => rfl
  | cancel handle => rfl
  | fire => rfl

theorem program_perform (s : Simulator TickQueue) (action : Action)
    (h : action.restarts (s.perform action).1 = false) :
    (s.perform action).2.program = s.program := by
  cases action with
  | start => exact s.program_start
  | pause => exact s.program_pause
  | step => exact (program_advance _).trans s.program_beforeStep
  | advance => exact s.program_advance
  | deliver handle => exact s.program_onTick handle
  | init => cases h
  | reset => cases h
  | load source =>
    revert h
    simp only [perform, load]
    split
    · exact fun _ => rfl
    · exact nofun
  | observe => rfl
  | schedule => rfl
  | cancel handle => rfl
  | fire => rfl

/-- What becomes of the state. A request comes first, and a cycle is taken in the state that the
request led to. -/
inductive Steered (s : Simulator TickQueue) : Action → Answer → State → Prop
  | restarted {action : Action} {answer : Answer} (hrestarts : action.restarts answer = true) :
      Steered s action answer .initial
  | refused {action : Action} {answer : Answer} (hrestarts : action.restarts answer = false)
      (hanswer : ∀ outcome, answer ≠ .outcome outcome)
      (hrequest : s.state.grant? (action.request s.state.status) = none) :
      Steered s action answer s.state
  | granted {action : Action} {answer : Answer} {t : State}
      (hrestarts : action.restarts answer = false)
      (hanswer : ∀ outcome, answer = .outcome outcome → outcome = .ignored)
      (hrequest : s.state.grant? (action.request s.state.status) = some t) :
      Steered s action answer t
  | cycled {action : Action} {outcome : Outcome} {t : State}
      (hrestarts : action.restarts (.outcome outcome) = false)
      (hrequest : s.state.grant? (action.request s.state.status) = some (s.cycleStart action))
      (hactive : (s.cycleStart action).Active)
      (hcycled : (s.cycleStart action).Cycled s.config s.program outcome t) :
      Steered s action (.outcome outcome) t

theorem steered_cycle {s : Simulator TickQueue} {action : Action} {outcome : Outcome} {t : State}
    (hrestarts : action.restarts (.outcome outcome) = false)
    (hrequest : s.state.grant? (action.request s.state.status) = some (s.cycleStart action))
    (ho : outcome = ((s.cycleStart action).advance s.config s.program).1)
    (ht : t = ((s.cycleStart action).advance s.config s.program).2) :
    s.Steered action (.outcome outcome) t := by
  subst ho ht
  by_cases hi : ((s.cycleStart action).advance s.config s.program).1 = .ignored
  · rw [State.advance_of_ignored hi]
    refine .granted hrestarts ?_ hrequest
    rintro outcome ⟨⟩
    exact hi
  · obtain ⟨hactive, hcycled⟩ := State.cycled_advance hi
    exact .cycled hrestarts hrequest hactive hcycled

theorem steered_perform (s : Simulator TickQueue) (action : Action) :
    s.Steered action (s.perform action).1 (s.perform action).2.state := by
  cases action with
  | start =>
    simp only [perform, start]
    split
    · next hrunning =>
      refine .granted rfl (fun _ => nofun) ?_
      rw [Action.request, if_pos hrunning]
      rfl
    · next hother =>
      have hrequest : Action.request s.state.status .start = some .running := if_neg hother
      split
      · next hmove => exact .refused rfl (fun _ => nofun) (by rw [hrequest]; exact hmove)
      · next t hmove =>
        refine .granted rfl (fun _ => nofun) ?_
        rw [hrequest, state_notify, state_arm]
        exact hmove
  | pause =>
    refine .granted rfl (fun _ => nofun) ?_
    show _ = some s.pause.state
    rw [state_pause]
    exact s.state.grant?_paused
  | step => exact steered_cycle rfl s.state.grant?_paused s.step_outcome s.state_step
  | advance => exact steered_cycle rfl rfl s.advance_outcome s.state_advance
  | deliver handle =>
    rcases s.onTick_cases handle with ⟨ho, ht⟩ | ⟨ho, ht⟩
    · exact steered_cycle rfl rfl ho ht
    · refine .granted rfl ?_ (congrArg some ht.symm)
      rintro outcome ⟨⟩
      exact ho
  | init => exact .restarted rfl
  | reset => exact .restarted rfl
  | load source =>
    simp only [perform, load]
    split
    · exact .granted rfl (fun _ => nofun) rfl
    · exact .restarted rfl
  | observe => exact .granted rfl (fun _ => nofun) rfl
  | schedule => exact .granted rfl (fun _ => nofun) rfl
  | cancel handle => exact .granted rfl (fun _ => nofun) rfl
  | fire => exact .granted rfl (fun _ => nofun) rfl

theorem Steered.of_restarts {s : Simulator TickQueue} {action : Action} {answer : Answer}
    {t : State} (h : s.Steered action answer t) (hrestarts : action.restarts answer = true) :
    t = .initial := by
  cases h with
  | restarted _ => rfl
  | refused hno _ _ => cases hrestarts.symm.trans hno
  | granted hno _ _ => cases hrestarts.symm.trans hno
  | cycled hno _ _ _ => cases hrestarts.symm.trans hno

/-- What one action does to a history: a restart begins a new one, and any other action leaves the
program as it is and adds its turn. -/
theorem history_perform (s : Simulator TickQueue) (action : Action) {turns : List Turn}
    (h : History s.config s.program turns s.state) :
    History s.config (s.perform action).2.program
      (if action.restarts (s.perform action).1 then [] else turns ++ (s.turn? action).toList)
      (s.perform action).2.state := by
  have hsteered := s.steered_perform action
  have hprogram := s.program_perform action
  unfold turn?
  generalize (s.perform action).1 = answer at *
  generalize (s.perform action).2.state = t at *
  cases hsteered with
  | restarted hrestarts =>
    rw [if_pos hrestarts]
    exact .initial
  | refused hrestarts hanswer hrequest =>
    rw [hprogram hrestarts, hrestarts]
    cases answer with
    | outcome outcome => exact absurd rfl (hanswer outcome)
    | _ => simpa using h
  | granted hrestarts hanswer hrequest =>
    rw [hprogram hrestarts, hrestarts]
    have hgranted := h.grant hrequest
    cases answer with
    | outcome outcome =>
      rw [hanswer outcome rfl]
      simpa [Turn.ofCycle?] using hgranted
    | _ => simpa using hgranted
  | cycled hrestarts hrequest hactive hcycled =>
    rw [hprogram hrestarts, hrestarts]
    have hturn := (h.grant hrequest).turn hactive hcycled
    simpa [Turn.ofCycle?, hcycled.ne_ignored] using hturn

theorem history_performAll (actions : List Action) (s : Simulator TickQueue) {turns : List Turn}
    (h : History s.config s.program turns s.state) :
    (s.performAll actions).2.config = s.config ∧
      History s.config (s.performAll actions).2.program (s.turnsAfter turns actions)
        (s.performAll actions).2.state := by
  induction actions generalizing s turns with
  | nil => exact ⟨rfl, h⟩
  | cons action rest ih =>
    have hstep := s.history_perform action h
    rw [← s.config_perform action] at hstep
    obtain ⟨hconfig, hrest⟩ := ih (s.perform action).2 hstep
    rw [s.config_perform action] at hconfig hrest
    exact ⟨hconfig, hrest⟩

/-- Every simulator that actions lead to has a history, and its turns are those of the actions. -/
theorem history_ofActions (config : Config) (program : Program) (actions : List Action) :
    History config (ofActions config program actions).program (turnsOf config program actions)
      (ofActions config program actions).state :=
  ((new config program).history_performAll actions .initial).2

end Simulator

end FiveStage
