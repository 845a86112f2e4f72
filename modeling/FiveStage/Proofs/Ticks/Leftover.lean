import Mathlib.Data.List.Induction
import FiveStage.Proofs.Status
import FiveStage.Proofs.Ticks.Pending

/-!
# The tick that is left over

A run that ends with its own tick or with a step has no tick left. One that is taken to its end by a
cycle out of turn keeps the tick that was pending, which stays in the queue until something else
gives it up. No other tick of the simulator is ever left in the queue, if the host delivers only
what it fired.
-/
namespace FiveStage

/-- Whether each handle was fired before it is delivered. -/
def Exchange.firedFirst (past : List Exchange) : List Exchange → Bool
  | [] => true
  | e :: rest =>
    e.delivered?.all (· ∈ past.filterMap Exchange.fired?) && firedFirst (past ++ [e]) rest

namespace Simulator

/-- A tick is pending only in a run, and perhaps beyond its end. -/
def Armed (s : Simulator TickQueue) : Prop :=
  s.pending ≠ none → s.state.status = .running ∨ s.state.status = .complete

section Perform

variable {s t : Simulator TickQueue} {e : Exchange} {action : Action} {handle : TickHandle}

/-- A tick that is pending after an exchange belongs to a run, or it was pending before. -/
theorem Paced.pending_cases (h : s.Paced e t) :
    t.pending = none ∨ t.state.status = .running ∨ t.pending = s.pending := by
  cases h with
  | kept _ hsame _ _ => exact .inr (.inr hsame)
  | released _ hnone _ _ => exact .inl hnone
  | armed _ _ _ _ hrunning => exact .inr (.inl hrunning)
  | stale _ => exact .inr (.inr rfl)
  | used _ hnone _ _ => exact .inl hnone
  | rearmed _ _ _ hrunning => exact .inr (.inl hrunning)
  | scheduled => exact .inr (.inr rfl)
  | cancelled _ => exact .inr (.inr rfl)
  | fired => exact .inr (.inr rfl)

/-- Whatever takes a run to its end, but for a cycle out of turn, leaves no tick pending. -/
theorem Paced.running_of_pending (h : s.Paced e t) (hcycle : e.1 ≠ .advance)
    (hrunning : s.state.status = .running) (hsome : t.pending ≠ none) :
    t.state.status = .running := by
  cases h with
  | kept _ _ _ hstatus => exact (hstatus hcycle).mpr hrunning
  | released _ hnone _ _ => exact absurd hnone hsome
  | armed _ _ _ _ hgoes => exact hgoes
  | stale _ => exact hrunning
  | used _ hnone _ _ => exact absurd hnone hsome
  | rearmed _ _ _ hgoes => exact hgoes
  | scheduled => exact hrunning
  | cancelled _ => exact hrunning
  | fired => exact hrunning

theorem disarms_of_restarts (h : action.restarts (s.perform action).1 = true) :
    action.disarms s = true := by
  cases action with
  | init => rfl
  | reset => rfl
  | load source =>
    simp only [perform] at h
    rw [Action.disarms]
    cases hload : (s.load source).1 with
    | error e =>
      rw [hload] at h
      cases h
    | ok count => rfl
  | _ => cases h

theorem Armed.perform (h : s.Armed) (action : Action) : (s.perform action).2.Armed := by
  intro hsome
  have hpaced := s.paced_perform action
  rcases hpaced.pending_cases with hnone | hrunning | hsame
  · exact absurd hnone hsome
  · exact .inl hrunning
  · rcases h (hsame ▸ hsome) with hrunning | hcomplete
    · by_cases hcycle : action = .advance
      · have hcycled := State.Active.cycled s.config s.program (.inl hrunning)
        rw [← s.state_advance] at hcycled
        rw [hcycle, ← hrunning]
        exact hcycled.status
      · exact .inl (hpaced.running_of_pending hcycle hrunning hsome)
    · have hrestarts : action.restarts (s.perform action).1 = false :=
        Bool.eq_false_iff.mpr fun hyes => hsome (pending_of_disarms (disarms_of_restarts hyes))
      rw [(s.steered_perform action).of_complete hcomplete hrestarts]
      exact .inr hcomplete

theorem Armed.performAll (actions : List Action) {s : Simulator TickQueue} (h : s.Armed) :
    (s.performAll actions).2.Armed := by
  induction actions generalizing s with
  | nil => exact h
  | cons action rest ih => exact ih (h.perform action)

/-- If a tick is pending once the last cycle is taken, that was a cycle out of turn, and the tick
was the one that the run had waited for. -/
theorem Armed.of_completed (h : s.Armed) (hs : s.state.status ≠ .complete)
    (ht : (s.perform action).2.state.status = .complete)
    (hpending : (s.perform action).2.pending = some handle) :
    action = .advance ∧ s.state.status = .running ∧ s.pending = some handle := by
  have hpaced := s.paced_perform action
  have hsome : (s.perform action).2.pending ≠ none := by
    rw [hpending]
    exact nofun
  have hstopped : (s.perform action).2.state.status ≠ .running := by
    rw [ht]
    decide
  have hsame : (s.perform action).2.pending = s.pending :=
    (hpaced.pending_cases.resolve_left hsome).resolve_left hstopped
  have hrunning : s.state.status = .running := (h (hsame ▸ hsome)).resolve_right hs
  refine ⟨?_, hrunning, hsame.symm.trans hpending⟩
  by_contra hcycle
  exact hstopped (hpaced.running_of_pending hcycle hrunning hsome)

/-- Only the last cycle completes a state. -/
theorem Steered.completed {answer : Answer} {t : State} (h : s.Steered action answer t)
    (hs : s.state.status ≠ .complete) (ht : t.status = .complete) :
    answer = .outcome .completed := by
  cases h with
  | restarted _ => cases ht
  | refused _ _ _ => exact absurd ht hs
  | granted _ _ hrequest =>
    cases hnext : action.request s.state.status with
    | none =>
      rw [hnext] at hrequest
      obtain rfl := Option.some.inj hrequest
      exact absurd ht hs
    | some next =>
      rw [hnext] at hrequest
      rw [History.eq_of_moveTo hrequest] at ht
      exact absurd ht (Action.request_ne_complete hnext)
  | cycled _ _ hactive hcycled =>
    cases hcycled with
    | served hpos => exact absurd ht hactive.not_complete
    | moved hzero hdone => exact absurd ht hactive.not_complete
    | finished hzero hdone => rfl

/-- What is complete and stays so has its state, and its tick unless that is given up. -/
theorem eq_of_still_complete (hs : s.state.status = .complete)
    (ht : (s.perform action).2.state.status = .complete) :
    (s.perform action).2.state = s.state ∧
      ∀ handle, (s.perform action).2.pending = some handle → s.pending = some handle := by
  have hrestarts : action.restarts (s.perform action).1 = false := by
    rw [Bool.eq_false_iff]
    intro hyes
    rw [(s.steered_perform action).of_restarts hyes] at ht
    cases ht
  refine ⟨(s.steered_perform action).of_complete hs hrestarts, fun handle hpending => ?_⟩
  rcases (s.paced_perform action).pending_cases with hnone | hrunning | hsame
  · cases hnone.symm.trans hpending
  · cases hrunning.symm.trans ht
  · exact hsame.symm.trans hpending

end Perform

theorem ofActions_concat (config : Config) (program : Program) (actions : List Action)
    (action : Action) : ofActions config program (actions ++ [action]) =
      ((ofActions config program actions).perform action).2 := by
  rw [ofActions, performAll_append]
  rfl

/-- A complete state came about by a last cycle, and nothing has changed it since. If a tick is
still pending, the run was taken to its end out of turn. -/
theorem exists_completed (config : Config) (program : Program) (actions : List Action)
    (hs : (ofActions config program actions).state.status = .complete) :
    ∃ before action after, actions = before ++ action :: after ∧
      let u := ofActions config program before
      let s := ofActions config program actions
      (u.perform action).1 = .outcome .completed ∧ s.state = (u.perform action).2.state ∧
        ∀ handle, s.pending = some handle →
          action = .advance ∧ u.state.status = .running ∧ u.pending = some handle := by
  induction actions using List.reverseRecOn with
  | nil => cases hs
  | append_singleton earlier last ih =>
    rw [ofActions_concat] at hs ⊢
    by_cases hbefore : (ofActions config program earlier).state.status = .complete
    · obtain ⟨before, action, after, hsplit, hanswer, hstate, hpending⟩ := ih hbefore
      obtain ⟨hsame, hkept⟩ := eq_of_still_complete hbefore hs
      refine ⟨before, action, after ++ [last], ?_, hanswer, hsame.trans hstate, ?_⟩
      · rw [hsplit, List.append_assoc, List.cons_append]
      · exact fun handle hlater => hpending handle (hkept handle hlater)
    · have harmed : (ofActions config program earlier).Armed :=
        Armed.performAll earlier fun hsome => absurd rfl hsome
      have hanswer := ((ofActions config program earlier).steered_perform last).completed hbefore hs
      exact ⟨earlier, last, [], rfl, hanswer, rfl, fun handle => harmed.of_completed hbefore hs⟩

section Queue

variable {s t : Simulator TickQueue} {past : List Exchange}

/-- Where each handle was fired before it is delivered, the queue holds none of the simulator's
ticks but the pending one. -/
theorem pending_of_ownTicks (actions : List Action) (haccount : s.Account past)
    (hsingle : ∀ handle ∈ s.ticks.waiting,
      handle ∈ past.filterMap Exchange.hosted? ∨ s.pending = some handle)
    (hfired : Exchange.firedFirst past (s.exchanges actions) = true) :
    ∀ handle ∈ (s.performAll actions).2.ownTicks (past ++ s.exchanges actions),
      (s.performAll actions).2.pending = some handle := by
  induction actions generalizing s past with
  | nil =>
    intro handle hin
    obtain ⟨hwaiting, hown⟩ := mem_ownTicks.mp hin
    rw [exchanges, List.zip_nil_left, List.append_nil] at hown
    exact (hsingle handle hwaiting).resolve_left hown
  | cons action rest ih =>
    have hpaced := s.paced_perform action
    rw [exchanges_cons, Exchange.firedFirst, Bool.and_eq_true] at hfired
    have hout : ∀ handle, Exchange.delivered? (action, (s.perform action).1) = some handle →
        handle ∉ s.ticks.waiting := by
      intro handle hdelivered
      have hearlier := hfired.1
      rw [hdelivered] at hearlier
      exact (haccount.fired handle (of_decide_eq_true hearlier)).2
    have hrest := ih (haccount.step hpaced) (hpaced.single hsingle hout) hfired.2
    rwa [List.append_assoc, List.singleton_append, ← exchanges_cons] at hrest

end Queue

/-- A host delivers only what it fired. Then a complete simulator has no tick in the queue but one
that was pending when the run was taken to its end by a cycle out of turn. -/
theorem tick_left_over_by_advance (config : Config) (program : Program) (actions : List Action)
    (hfired : Exchange.firedFirst [] (exchangesOf config program actions) = true)
    (hs : (ofActions config program actions).state.status = .complete) :
    ∃ before action after, actions = before ++ action :: after ∧
      let u := ofActions config program before
      let s := ofActions config program actions
      (u.perform action).1 = .outcome .completed ∧ s.state = (u.perform action).2.state ∧
        ∀ handle ∈ s.ownTicks (exchangesOf config program actions),
          action = .advance ∧ u.state.status = .running ∧ u.pending = some handle ∧
            s.pending = some handle := by
  obtain ⟨before, action, after, hsplit, hanswer, hstate, hpending⟩ :=
    exists_completed config program actions hs
  have hown := pending_of_ownTicks actions (.initial config program) (fun _ h => nomatch h) hfired
  refine ⟨before, action, after, hsplit, hanswer, hstate, fun handle hin => ?_⟩
  have hlast := hown handle hin
  obtain ⟨hcycle, hrunning, hbefore⟩ := hpending handle hlast
  exact ⟨hcycle, hrunning, hbefore, hlast⟩

/-- The second tick of a run is pending when it is taken to its end, and later on it still is. -/
theorem tick_left_over_by_advance_of_chain :
    let actions : List Action :=
      [.start, .fire, .deliver 1] ++ List.replicate 12 .advance ++ [.start, .schedule, .step]
    let run := exchangesOf .standard .chain actions
    let s := ofActions .standard .chain actions
    Exchange.firedFirst [] run = true ∧ s.state.status = .complete ∧ s.ownTicks run = [2] ∧
      s.pending = some 2 ∧
      ∃ before after, actions = before ++ .advance :: after ∧
        let u := ofActions .standard .chain before
        (u.perform .advance).1 = .outcome .completed ∧ u.state.status = .running ∧
          u.pending = some 2 := by
  intro actions run s
  have hfired : Exchange.firedFirst [] run = true := by decide +kernel
  have hs : s.state.status = .complete := by decide +kernel
  have hown : s.ownTicks run = [2] := by decide +kernel
  obtain ⟨before, action, after, hsplit, hanswer, _, hall⟩ :=
    tick_left_over_by_advance .standard .chain actions hfired hs
  obtain ⟨rfl, hrunning, hbefore, hpending⟩ := hall 2 (hown ▸ List.mem_singleton_self 2)
  exact ⟨hfired, hs, hown, hpending, before, after, hsplit, hanswer, hrunning, hbefore⟩

/-- A run of one instruction is taken to its end out of turn, and its tick stays in the queue. -/
theorem tick_left_over_of_jump :
    let jump : Program := [{ id := 1, opcode := .j }]
    let actions : List Action := .start :: List.replicate 6 .advance
    let s := ofActions .standard jump actions
    s.state.status = .complete ∧ s.ownTicks (exchangesOf .standard jump actions) = [1] := by
  decide +kernel

end Simulator

end FiveStage
