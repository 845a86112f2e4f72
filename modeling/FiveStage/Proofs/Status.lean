import FiveStage.Proofs.Completion
import FiveStage.Proofs.Lockstep

/-!
# The life of a status

Apart from restarts a status changes by allowed moves only. The one move that is ever refused is to
run once the state is complete, and then everything stays as it is. Of a program with instructions
the status is complete exactly when all are fetched and the pipe is empty.
-/
namespace FiveStage

namespace Status

/-- The status that the moves lead to, if each of them is allowed. -/
def follow (status : Status) : List Status → Option Status
  | [] => some status
  | next :: rest => if status.canMoveTo next then next.follow rest else none

theorem follow_append (status : Status) (first second : List Status) :
    status.follow (first ++ second) = (status.follow first).bind (·.follow second) := by
  induction first generalizing status with
  | nil => rfl
  | cons next rest ih =>
    rw [List.cons_append, follow, follow]
    split
    · exact ih next
    · rfl

end Status

namespace State

theorem follow_request (s : State) (request : Option Status) :
    s.status.follow request.toList = (s.grant? request).map (·.status) := by
  cases request with
  | none => rfl
  | some next =>
    rw [Option.toList_some, Status.follow, grant?, moveTo?]
    split <;> rfl

/-- A start is refused once the state is complete, and no other request is refused ever. -/
theorem grant?_request_eq_none_iff (s : State) (action : Action) :
    s.grant? (action.request s.status) = none ↔ action = .start ∧ s.status = .complete := by
  have hpause : s.grant? (if s.status = .running then some .paused else none) ≠ none := by
    rw [grant?_paused]
    exact Option.some_ne_none _
  cases action with
  | start =>
    cases hs : s.status <;> simp [Action.request, grant?, moveTo?, hs, Status.canMoveTo]
  | pause =>
    refine iff_of_false hpause ?_
    rintro ⟨⟨⟩, _⟩
  | step =>
    refine iff_of_false hpause ?_
    rintro ⟨⟨⟩, _⟩
  | _ =>
    refine iff_of_false (Option.some_ne_none _) ?_
    rintro ⟨⟨⟩, _⟩

theorem eq_of_grant?_of_complete {s t : State} {action : Action} (hs : s.status = .complete)
    (h : s.grant? (action.request s.status) = some t) : t = s := by
  cases hnext : action.request s.status with
  | none =>
    rw [hnext] at h
    exact (Option.some.inj h).symm
  | some next =>
    rw [hnext] at h
    exact absurd hs (History.not_complete_of_moveTo h)

/-- A cycle moves the status if it is the last one, and then to completion. -/
theorem Cycled.follow {config : Config} {program : Program} {s t : State} {outcome : Outcome}
    (hactive : s.Active) (h : Cycled config program s outcome t) :
    s.status.follow (if outcome = .completed then [.complete] else []) = some t.status := by
  cases h with
  | served hpos => rfl
  | moved hzero hdone => rfl
  | finished hzero hdone =>
    rw [if_pos rfl]
    rcases hactive with hs | hs <;> rw [hs] <;> rfl

end State

namespace History

variable {config : Config} {program : Program} {turns : List Turn} {s : State}

theorem complete_iff (hne : program ≠ []) (h : History config program turns s) :
    s.status = .complete ↔ s.fetched = program.length ∧ s.pipeline.isEmpty = true := by
  have hdone : s.isDone program = true ↔
      s.fetched = program.length ∧ s.pipeline.isEmpty = true := by
    rw [State.isDone, Bool.and_eq_true, decide_eq_true_eq, Nat.le_antisymm_iff,
      and_iff_right h.fetched_le]
  rw [← hdone]
  constructor
  · exact h.isDone_of_complete
  · intro hyes
    by_contra hs
    rw [h.not_isDone hne hs] at hyes
    cases hyes

end History

namespace Simulator

/-- The moves that an action asks for: the one of its request, and to be complete if it takes the
last cycle. -/
def asked (s : Simulator TickQueue) (action : Action) : List Status :=
  (action.request s.state.status).toList ++
    match (s.perform action).1 with
    | .outcome outcome => if outcome = .completed then [.complete] else []
    | _ => []

/-- The moves that an action asks for are allowed and lead to its status, or it is refused. -/
theorem follow_asked (s : Simulator TickQueue) {action : Action}
    (hrestarts : action.restarts (s.perform action).1 = false) :
    s.state.status.follow (s.asked action) =
      if action = .start ∧ s.state.status = .complete then none
      else some (s.perform action).2.state.status := by
  have hsteered := s.steered_perform action
  rw [asked, Status.follow_append, s.state.follow_request, if_congr
    (s.state.grant?_request_eq_none_iff action).symm rfl rfl]
  generalize (s.perform action).1 = answer at *
  generalize (s.perform action).2.state = t at *
  cases hsteered with
  | restarted hyes => cases hrestarts.symm.trans hyes
  | refused _ _ hrequest => rw [hrequest, if_pos rfl]; rfl
  | granted _ hanswer hrequest =>
    rw [hrequest, if_neg nofun]
    cases answer with
    | outcome outcome =>
      rw [hanswer outcome rfl]
      rfl
    | _ => rfl
  | cycled _ hrequest hactive hcycled =>
    rw [hrequest, if_neg nofun]
    exact hcycled.follow hactive

/-- Nothing but a restart changes a complete state. -/
theorem Steered.of_complete {s : Simulator TickQueue} {action : Action} {answer : Answer}
    {t : State} (h : s.Steered action answer t) (hs : s.state.status = .complete)
    (hrestarts : action.restarts answer = false) : t = s.state := by
  cases h with
  | restarted hyes => cases hrestarts.symm.trans hyes
  | refused _ _ _ => rfl
  | granted _ _ hrequest => exact State.eq_of_grant?_of_complete hs hrequest
  | cycled _ hrequest hactive _ =>
    rw [State.eq_of_grant?_of_complete hs hrequest] at hactive
    exact absurd hs hactive.not_complete

theorem state_of_complete_performAll (actions : List Action) (s : Simulator TickQueue)
    (hs : s.state.status = .complete) (h : ∀ action ∈ actions, action.reloads = false) :
    (s.performAll actions).2.state = s.state := by
  induction actions generalizing s with
  | nil => rfl
  | cons action rest ih =>
    obtain ⟨hfirst, hrest⟩ := List.forall_mem_cons.mp h
    have hsame := (s.steered_perform action).of_complete hs
      (Action.restarts_of_not_reloads hfirst _)
    exact (ih (s.perform action).2 (by rw [hsame]; exact hs) hrest).trans hsame

/-- No program that was loaded is empty. -/
theorem program_ne_nil_perform (s : Simulator TickQueue) (action : Action)
    (hne : s.program ≠ []) : (s.perform action).2.program ≠ [] := by
  have hinit : s.init.program = s.program := s.program_release
  cases action with
  | init => exact hinit ▸ hne
  | reset => exact hinit ▸ hne
  | load source =>
    simp only [perform, load]
    split
    · exact hne
    · next hload => exact Assembly.load_ne_nil hload
  | _ =>
    rw [program_perform]
    · exact hne
    · rfl

theorem program_ne_nil_performAll (actions : List Action) (s : Simulator TickQueue)
    (hne : s.program ≠ []) : (s.performAll actions).2.program ≠ [] := by
  induction actions generalizing s with
  | nil => exact hne
  | cons action rest ih => exact ih _ (s.program_ne_nil_perform action hne)

/-- Of a program with instructions a state is complete exactly when all of them are fetched and the
pipe is empty. A restart makes the status idle. Any other action changes it by the moves that it
asks for, all of them allowed, and is refused just if it is a start of a complete state. Whatever
follows on a complete state, short of a restart, leaves the whole state as it is. -/
theorem completion_exact (config : Config) (program : Program) (hne : program ≠ [])
    (actions : List Action) :
    let s := ofActions config program actions
    (s.state.status = .complete ↔
        s.state.fetched = s.program.length ∧ s.state.pipeline.isEmpty = true) ∧
      (∀ action, let t := (s.perform action).2
        if action.restarts (s.perform action).1 then t.state.status = .idle
        else s.state.status.follow (s.asked action) =
          if action = .start ∧ s.state.status = .complete then none else some t.state.status) ∧
      (s.state.status = .complete → ∀ later, (∀ action ∈ later, action.reloads = false) →
        (s.performAll later).2.state = s.state) := by
  intro s
  have h := history_ofActions config program actions
  have hsome : s.program ≠ [] := (new config program).program_ne_nil_performAll actions hne
  refine ⟨h.complete_iff hsome, ?_, fun hs later => s.state_of_complete_performAll later hs⟩
  intro action t
  split
  · next hrestarts =>
    have ht : t.state = .initial := (s.steered_perform action).of_restarts hrestarts
    rw [ht]
    rfl
  · next hno => exact s.follow_asked (by simpa using hno)

/-- The last cycle of a run is taken by a step, which pauses the run first. -/
theorem completion_of_chain :
    let almost : List Action := .start :: List.replicate 12 .advance
    let u := ofActions .standard .chain almost
    let s := ofActions .standard .chain (almost ++ [.step])
    Program.chain ≠ [] ∧ u.asked .step = [.paused, .complete] ∧
      u.state.status.follow [.paused, .complete] = some .complete ∧
      s.state.status = .complete ∧ s.state.fetched = 4 ∧ s.asked .start = [.running] ∧
      s.state.status.follow [.running] = none ∧
      (s.performAll [.start, .deliver 1, .step, .pause, .advance]).2.state = s.state := by
  intro almost u s
  have hne : Program.chain ≠ [] := by decide
  obtain ⟨_, hlast, _⟩ := completion_exact .standard .chain hne almost
  obtain ⟨hiff, hstart, hfinal⟩ := completion_exact .standard .chain hne (almost ++ [.step])
  have hasked : u.asked .step = [.paused, .complete] := by decide +kernel
  have hrefused : s.asked .start = [.running] := by decide +kernel
  have hs : s.state.status = .complete := by decide +kernel
  refine ⟨hne, hasked, ?_, hs, (hiff.mp hs).1, hrefused, ?_, hfinal hs _ (by decide)⟩
  · rw [← hasked]
    exact hlast .step
  · rw [← hrefused]
    exact (hstart .start).trans (if_pos ⟨rfl, hs⟩)

end Simulator

end FiveStage
