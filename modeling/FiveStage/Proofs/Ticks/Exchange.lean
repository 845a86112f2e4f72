import FiveStage.Proofs.History

/-!
# What actions do to the ticks

A run seen from outside is a list of exchanges, each an action with its answer. Of the ticks an
action may do one of few things: leave them alone, give up the pending one, use it up, ask for a
new one in its place, or do to the queue what the host asks for. `paced_perform` says which.
-/
namespace FiveStage

/-- An action with its answer. -/
abbrev Exchange := Action × Answer

namespace Exchange

/-- The handle that the host got for a tick of its own. -/
def hosted? : Exchange → Option TickHandle
  | (.schedule, .handle handle) => handle
  | _ => none

/-- The handle that the host took off the queue. -/
def fired? : Exchange → Option TickHandle
  | (.fire, .handle handle) => handle
  | _ => none

def delivered? : Exchange → Option TickHandle
  | (.deliver handle, _) => some handle
  | _ => none

/-- The handle whose delivery was not ignored. -/
def driving? : Exchange → Option TickHandle
  | (.deliver handle, .outcome outcome) => if outcome = .ignored then none else some handle
  | _ => none

/-- It is about no handle. -/
def Silent (e : Exchange) : Prop := e.hosted? = none ∧ e.fired? = none ∧ e.delivered? = none

theorem delivered?_of_driving? {e : Exchange} {handle : TickHandle}
    (h : e.driving? = some handle) : e.delivered? = some handle := by
  unfold driving? at h
  split at h
  · split at h
    · cases h
    · exact h
  · cases h

theorem Silent.driving? {e : Exchange} (h : e.Silent) : e.driving? = none := by
  rw [Option.eq_none_iff_forall_ne_some]
  intro handle hdriving
  have hdelivered := delivered?_of_driving? hdriving
  rw [h.2.2] at hdelivered
  cases hdelivered

theorem mem_filterMap_concat {f : Exchange → Option TickHandle} {past : List Exchange}
    {e : Exchange} {handle : TickHandle} :
    handle ∈ (past ++ [e]).filterMap f ↔ handle ∈ past.filterMap f ∨ f e = some handle := by
  simp only [List.mem_filterMap, List.mem_append, List.mem_singleton, or_and_right, exists_or,
    exists_eq_left]

end Exchange

namespace State

theorem halt_not_running (s : State) : s.halt.status ≠ .running := by
  unfold halt moveTo?
  cases hs : s.status <;> simp [hs, Status.canMoveTo]

theorem initial_not_running : initial.status ≠ .running := by decide

theorem Cycled.status {config : Config} {program : Program} {s t : State} {outcome : Outcome}
    (h : Cycled config program s outcome t) : t.status = s.status ∨ t.status = .complete := by
  cases h with
  | served hpos => exact .inl rfl
  | moved hzero hdone => exact .inl rfl
  | finished hzero hdone => exact .inr rfl

/-- A cycle starts no run: it leaves the status as it is or completes it. -/
theorem advance_not_running {config : Config} {program : Program} {s : State}
    (h : s.status ≠ .running) : (s.advance config program).2.status ≠ .running := by
  by_cases hignored : (s.advance config program).1 = .ignored
  · rwa [advance_of_ignored hignored]
  · rcases (cycled_advance hignored).2.status with hs | hs
    · rwa [hs]
    · rw [hs]
      decide

end State

namespace Simulator

section Fields

variable {σ : Type} (s : Simulator σ)

@[simp] theorem ticks_notify : s.notify.ticks = s.ticks := rfl

@[simp] theorem pending_advance : s.advance.2.pending = s.pending := by
  unfold advance
  split <;> rfl

@[simp] theorem ticks_advance : s.advance.2.ticks = s.ticks := by
  unfold advance
  split <;> rfl

variable [TickSource σ]

@[simp] theorem pending_release : s.release.pending = none := by
  unfold release
  split
  · next hnone => exact hnone
  · rfl

@[simp] theorem pending_pause : s.pause.pending = none := s.pending_release
@[simp] theorem ticks_pause : s.pause.ticks = s.release.ticks := rfl

/-- A step leaves no run going on. -/
theorem step_not_running : s.step.2.state.status ≠ .running := by
  rw [state_step]
  exact State.advance_not_running s.state.halt_not_running

end Fields

section Queue

variable (s : Simulator TickQueue)

theorem ticks_release : s.release.ticks =
    match s.pending with
    | none => s.ticks
    | some handle => s.ticks.cancel handle := by
  unfold release
  cases s.pending <;> rfl

@[simp] theorem issued_release : s.release.ticks.issued = s.ticks.issued := by
  rw [ticks_release]
  split <;> rfl

theorem mem_waiting_release {handle : TickHandle} : handle ∈ s.release.ticks.waiting ↔
    handle ∈ s.ticks.waiting ∧ s.pending ≠ some handle := by
  rw [ticks_release]
  split
  · next hnone => simp [hnone]
  · next pending hsome =>
    rw [hsome, TickQueue.cancel, List.mem_filter, bne_iff_ne, ne_eq, ne_eq, Option.some.injEq,
      eq_comm]

theorem sublist_waiting_release : s.release.ticks.waiting.Sublist s.ticks.waiting := by
  rw [ticks_release]
  split
  · exact List.Sublist.refl _
  · exact List.filter_sublist

theorem pending_arm : s.arm.pending = some (s.ticks.issued + 1) :=
  congrArg (fun issued => some (issued + 1)) s.issued_release

theorem ticks_arm : s.arm.ticks = s.release.ticks.schedule.2 := rfl

end Queue

/-- The exchanges of a run. -/
def exchanges (s : Simulator TickQueue) (actions : List Action) : List Exchange :=
  actions.zip (s.performAll actions).1

/-- The exchanges of a run from the start. -/
def exchangesOf (config : Config) (program : Program) (actions : List Action) : List Exchange :=
  (new config program).exchanges actions

theorem exchanges_cons (s : Simulator TickQueue) (action : Action) (rest : List Action) :
    s.exchanges (action :: rest) =
      (action, (s.perform action).1) :: (s.perform action).2.exchanges rest := rfl

/-- An exchange of a run has the answer that its action gave after the actions before it. -/
theorem exists_of_mem_exchanges (actions : List Action) {s : Simulator TickQueue}
    {action : Action} {answer : Answer} (hin : (action, answer) ∈ s.exchanges actions) :
    ∃ before after, actions = before ++ action :: after ∧
      answer = ((s.performAll before).2.perform action).1 := by
  induction actions generalizing s with
  | nil => cases hin
  | cons first rest ih =>
    rw [exchanges_cons] at hin
    rcases List.mem_cons.mp hin with hnow | hlater
    · obtain ⟨rfl, rfl⟩ := Prod.mk.inj hnow
      exact ⟨[], rest, rfl, rfl⟩
    · obtain ⟨before, after, rfl, hanswer⟩ := ih hlater
      exact ⟨first :: before, after, rfl, hanswer⟩

/-- What becomes of the pending handle and of the queue. -/
inductive Paced (s : Simulator TickQueue) : Exchange → Simulator TickQueue → Prop
  | kept {e : Exchange} {t : Simulator TickQueue} (hsilent : e.Silent)
      (hpending : t.pending = s.pending) (hticks : t.ticks = s.ticks)
      (hstatus : e.1 ≠ .advance → (t.state.status = .running ↔ s.state.status = .running)) :
      Paced s e t
  | released {e : Exchange} {t : Simulator TickQueue} (hsilent : e.Silent)
      (hpending : t.pending = none) (hticks : t.ticks = s.release.ticks)
      (hstatus : t.state.status ≠ .running) : Paced s e t
  | armed {e : Exchange} {t : Simulator TickQueue} (hsilent : e.Silent)
      (hbefore : s.state.status ≠ .running) (hpending : t.pending = some (s.ticks.issued + 1))
      (hticks : t.ticks = s.release.ticks.schedule.2) (hstatus : t.state.status = .running) :
      Paced s e t
  | stale {handle : TickHandle} (hbefore : s.pending ≠ some handle) :
      Paced s (.deliver handle, .outcome .ignored) s
  | used {handle : TickHandle} {answer : Answer} {t : Simulator TickQueue}
      (hbefore : s.pending = some handle) (hpending : t.pending = none) (hticks : t.ticks = s.ticks)
      (hstatus : t.state.status ≠ .running) : Paced s (.deliver handle, answer) t
  | rearmed {handle : TickHandle} {answer : Answer} {t : Simulator TickQueue}
      (hbefore : s.pending = some handle) (hpending : t.pending = some (s.ticks.issued + 1))
      (hticks : t.ticks = s.ticks.schedule.2) (hstatus : t.state.status = .running) :
      Paced s (.deliver handle, answer) t
  | scheduled : Paced s (.schedule, .handle (some (s.ticks.issued + 1)))
      { s with ticks := s.ticks.schedule.2 }
  | cancelled (handle : TickHandle) : Paced s (.cancel handle, .done)
      { s with ticks := s.ticks.cancel handle }
  | fired : Paced s (.fire, .handle s.ticks.waiting.head?) { s with ticks := s.ticks.fire.2 }

theorem paced_onTick (s : Simulator TickQueue) (handle : TickHandle) :
    s.Paced (.deliver handle, .outcome (s.onTick handle).1) (s.onTick handle).2 := by
  unfold onTick
  dsimp only
  split
  · next hbefore =>
    split
    · split
      · next hrunning =>
        refine .rearmed hbefore ?_ ?_ ?_
        · rw [pending_arm, ticks_advance]
        · rw [ticks_arm, ticks_release, pending_advance, ticks_advance]
        · rw [state_arm]
          exact hrunning
      · next hstopped => exact .used hbefore (pending_advance _) (ticks_advance _) hstopped
    · next hstopped => exact .used hbefore rfl rfl hstopped
  · next hbefore => exact .stale hbefore

theorem paced_perform (s : Simulator TickQueue) (action : Action) :
    s.Paced (action, (s.perform action).1) (s.perform action).2 := by
  have hsame : s.state.status = .running ↔ s.state.status = .running := Iff.rfl
  cases action with
  | start =>
    simp only [perform, start]
    split
    · exact .kept ⟨rfl, rfl, rfl⟩ rfl rfl fun _ => hsame
    · next hbefore =>
      split
      · exact .kept ⟨rfl, rfl, rfl⟩ rfl rfl fun _ => hsame
      · next state hmove =>
        refine .armed ⟨rfl, rfl, rfl⟩ hbefore ?_ ?_ ?_
        · exact pending_arm _
        · rw [ticks_notify, ticks_arm, ticks_release, ticks_release]
        · rw [state_notify, state_arm, History.eq_of_moveTo hmove]
  | pause =>
    refine .released ⟨rfl, rfl, rfl⟩ s.pending_pause rfl ?_
    show s.pause.state.status ≠ .running
    rw [state_pause]
    exact s.state.halt_not_running
  | step =>
    -- the cycle of a step leaves the ticks alone, but a run is paused first
    have hstatus := s.step_not_running
    by_cases hrunning : s.state.status = .running
    · refine .released ⟨rfl, rfl, rfl⟩ ?_ ?_ hstatus
      · show s.step.2.pending = none
        rw [step, if_pos hrunning, pending_advance, pending_pause]
      · show s.step.2.ticks = s.release.ticks
        rw [step, if_pos hrunning, ticks_advance, ticks_pause]
    · refine .kept ⟨rfl, rfl, rfl⟩ ?_ ?_ fun _ => iff_of_false hstatus hrunning
      · show s.step.2.pending = s.pending
        rw [step, if_neg hrunning, pending_advance]
      · show s.step.2.ticks = s.ticks
        rw [step, if_neg hrunning, ticks_advance]
  | advance =>
    exact .kept ⟨rfl, rfl, rfl⟩ s.pending_advance s.ticks_advance fun h => absurd rfl h
  | deliver handle => exact s.paced_onTick handle
  | init => exact .released ⟨rfl, rfl, rfl⟩ s.pending_release rfl State.initial_not_running
  | reset => exact .released ⟨rfl, rfl, rfl⟩ s.pending_release rfl State.initial_not_running
  | load source =>
    simp only [perform, load]
    split
    · exact .kept ⟨rfl, rfl, rfl⟩ rfl rfl fun _ => hsame
    · exact .released ⟨rfl, rfl, rfl⟩ s.pending_release rfl State.initial_not_running
  | observe => exact .kept ⟨rfl, rfl, rfl⟩ rfl rfl fun _ => hsame
  | schedule => exact .scheduled
  | cancel handle => exact .cancelled handle
  | fire => exact .fired

end Simulator

end FiveStage
