import Mathlib.Algebra.GroupWithZero.Nat
import Mathlib.Data.List.Chain
import FiveStage.Proofs.History

/-!
# Time accounting

Every cycle either moves the instructions or serves a stall, so the cycles are the recorded moves
and the lengths of the logged stalls. A move is recorded at its own cycle, and the next one comes a
cycle later, or later by as much as the stall that the move logged. Both histories only grow until
a restart empties them.
-/
namespace FiveStage

/-- The length of the stall that a log entry stands for, by the opcode of its producer. -/
def HazardEvent.stallLength (config : Config) (program : Program) (e : HazardEvent) : Nat :=
  match program.lookup e.producer with
  | some producer => config.stallCycles producer.opcode
  | none => 0

namespace State

/-- The length of the stall logged at a cycle, and zero if none is logged there. -/
def stallAt (config : Config) (program : Program) (s : State) (cycle : Nat) : Nat :=
  ((s.events.find? fun e => e.cycle = cycle).map (HazardEvent.stallLength config program)).getD 0

/-- A move logs nothing and begins no stall, or it logs the stall that it begins. -/
theorem logged_moveOn_cases (config : Config) (program : Program) {s : State}
    (hzero : s.stallCounter = 0) :
    (s.moveOn config program).2.events = s.events ∧ (s.moveOn config program).2.stallCounter = 0 ∨
      ∃ e : HazardEvent, (s.moveOn config program).2.events = s.events ++ [e] ∧
        e.cycle = s.cycle ∧ (program.lookup e.producer).isSome = true ∧
        (s.moveOn config program).2.stallCounter = e.stallLength config program := by
  rw [stallCounter_moveOn, events_moveOn, hzero]
  cases hh : (s.moveOn config program).1 with
  | clear => exact .inl ⟨List.append_nil _, rfl⟩
  | forward _ _ => exact .inl ⟨List.append_nil _, rfl⟩
  | stall producer stage cycles =>
    obtain ⟨reader, writer, hf, _, hc, rfl, _, rfl⟩ := Pipeline.eq_of_hazard_shift_stall hh
    obtain ⟨_, _, hw, _⟩ := Hazard.conflict?_eq_some_iff.mp hc
    rw [hf]
    refine .inr ⟨.stalled s.cycle writer.id reader.id, rfl, rfl, ?_, ?_⟩
    · exact Option.isSome_iff_exists.mpr ⟨writer, hw⟩
    · simp only [HazardEvent.stallLength, HazardEvent.stalled, hw, Hazard.stallCycles?,
        Option.getD_some]

end State

/-- What the cycle numbers in the histories say. -/
structure Timed (config : Config) (program : Program) (s : State) : Prop where
  /-- The cycles so far and those of the stall being served are the moves and the logged stalls. -/
  total : s.cycle + s.stallCounter =
    s.trace.length + (s.events.map (HazardEvent.stallLength config program)).sum
  past : ∀ x ∈ s.trace, x.cycle < s.cycle
  logged : ∀ e ∈ s.events, (∃ x ∈ s.trace, x.cycle = e.cycle) ∧
    (program.lookup e.producer).isSome = true
  ordered : (s.events.map (·.cycle)).Pairwise (· < ·)
  spaced : s.trace.IsChain fun x y => y.cycle = x.cycle + 1 + s.stallAt config program x.cycle
  /-- The move after the last one recorded is due when the stall that it logged is served. -/
  due : ∀ x, s.trace.getLast? = some x →
    s.cycle + s.stallCounter = x.cycle + 1 + s.stallAt config program x.cycle

namespace Timed

variable {config : Config} {program : Program} {s : State}

theorem initial (config : Config) (program : Program) : Timed config program .initial where
  total := rfl
  past := fun _ h => nomatch h
  logged := fun _ h => nomatch h
  ordered := .nil
  spaced := .nil
  due := fun _ h => nomatch h

theorem serveStall (hpos : 0 < s.stallCounter) (h : Timed config program s) :
    Timed config program s.serveStall.2 := by
  have hcycle : s.serveStall.2.cycle = s.cycle + 1 := rfl
  have hcounter : s.serveStall.2.stallCounter = s.stallCounter - 1 := rfl
  have hsame : s.serveStall.2.cycle + s.serveStall.2.stallCounter = s.cycle + s.stallCounter := by
    omega
  constructor
  case total => exact hsame.trans h.total
  case past => exact fun x hx => Nat.lt_succ_of_lt (h.past x hx)
  case logged => exact h.logged
  case ordered => exact h.ordered
  case spaced => exact h.spaced
  case due => exact fun x hx => hsame.trans (h.due x hx)

theorem event_past (h : Timed config program s) {e : HazardEvent} (he : e ∈ s.events) :
    e.cycle < s.cycle := by
  obtain ⟨⟨x, hx, hcycle⟩, _⟩ := h.logged e he
  rw [← hcycle]
  exact h.past x hx

/-- A move leaves what was logged at earlier cycles as it was. -/
theorem stallAt_moveOn_of_lt (hzero : s.stallCounter = 0) {cycle : Nat} (hlt : cycle < s.cycle) :
    (s.moveOn config program).2.stallAt config program cycle = s.stallAt config program cycle := by
  unfold State.stallAt
  rcases State.logged_moveOn_cases config program hzero with ⟨hevents, _⟩ | ⟨e, hevents, hcycle, _⟩
  · rw [hevents]
  · have hlater : e.cycle ≠ cycle := by omega
    have hnone : [e].find? (fun e => decide (e.cycle = cycle)) = none := by simp [hlater]
    rw [hevents, List.find?_append, hnone, Option.or_none]

/-- The stall logged at the cycle of a move is the one that the move begins. -/
theorem stallAt_moveOn_self (h : Timed config program s) (hzero : s.stallCounter = 0) :
    (s.moveOn config program).2.stallAt config program s.cycle =
      (s.moveOn config program).2.stallCounter := by
  have hnone : s.events.find? (fun e => decide (e.cycle = s.cycle)) = none := by
    rw [List.find?_eq_none]
    intro e he
    have hlt := h.event_past he
    simpa using Nat.ne_of_lt hlt
  unfold State.stallAt
  rcases State.logged_moveOn_cases config program hzero with
    ⟨hevents, hcounter⟩ | ⟨e, hevents, hcycle, _, hcounter⟩
  · rw [hevents, hcounter, hnone]
    rfl
  · have hfound : [e].find? (fun e => decide (e.cycle = s.cycle)) = some e := by simp [hcycle]
    rw [hevents, hcounter, List.find?_append, hnone, Option.none_or, hfound]
    rfl

theorem total_moveOn (h : Timed config program s) (hzero : s.stallCounter = 0) :
    (s.moveOn config program).2.cycle + (s.moveOn config program).2.stallCounter =
      (s.moveOn config program).2.trace.length + ((s.moveOn config program).2.events.map
        (HazardEvent.stallLength config program)).sum := by
  have hcycle : (s.moveOn config program).2.cycle = s.cycle + 1 := rfl
  have htotal := h.total
  rw [hcycle, State.trace_moveOn, List.length_append, List.length_singleton]
  rcases State.logged_moveOn_cases config program hzero with
    ⟨hevents, hcounter⟩ | ⟨e, hevents, _, _, hcounter⟩
  · rw [hevents, hcounter]
    omega
  · rw [hevents, hcounter, List.map_append, List.sum_append, List.map_singleton, List.sum_singleton]
    omega

theorem logged_moveOn (h : Timed config program s) (hzero : s.stallCounter = 0) :
    ∀ e ∈ (s.moveOn config program).2.events,
      (∃ x ∈ (s.moveOn config program).2.trace, x.cycle = e.cycle) ∧
        (program.lookup e.producer).isSome = true := by
  intro e he
  rw [State.trace_moveOn]
  have hold : e ∈ s.events → (∃ x ∈ s.trace ++ [s.toSnapshot], x.cycle = e.cycle) ∧
      (program.lookup e.producer).isSome = true := by
    intro hin
    obtain ⟨⟨x, hx, hcycle⟩, hfound⟩ := h.logged e hin
    exact ⟨⟨x, List.mem_append_left _ hx, hcycle⟩, hfound⟩
  rcases State.logged_moveOn_cases config program hzero with
    ⟨hevents, _⟩ | ⟨new, hevents, hcycle, hfound, _⟩
  · rw [hevents] at he
    exact hold he
  · rw [hevents] at he
    rcases List.mem_append.mp he with hin | hnew
    · exact hold hin
    · obtain rfl := List.mem_singleton.mp hnew
      exact ⟨⟨s.toSnapshot, List.mem_concat_self, hcycle.symm⟩, hfound⟩

theorem ordered_moveOn (h : Timed config program s) (hzero : s.stallCounter = 0) :
    ((s.moveOn config program).2.events.map (·.cycle)).Pairwise (· < ·) := by
  rcases State.logged_moveOn_cases config program hzero with
    ⟨hevents, _⟩ | ⟨new, hevents, hcycle, _⟩
  · rw [hevents]
    exact h.ordered
  · rw [hevents, List.map_append, List.pairwise_append]
    refine ⟨h.ordered, List.pairwise_singleton _ _, ?_⟩
    intro old hold last hlast
    obtain ⟨e, he, rfl⟩ := List.mem_map.mp hold
    obtain rfl := List.mem_singleton.mp hlast
    show e.cycle < new.cycle
    rw [hcycle]
    exact h.event_past he

theorem spaced_moveOn (h : Timed config program s) (hzero : s.stallCounter = 0) :
    (s.moveOn config program).2.trace.IsChain fun x y =>
      y.cycle = x.cycle + 1 + (s.moveOn config program).2.stallAt config program x.cycle := by
  rw [State.trace_moveOn, List.isChain_append]
  refine ⟨?_, .singleton _, ?_⟩
  · refine h.spaced.imp_of_mem_imp fun x y hx _ hgap => ?_
    rw [stallAt_moveOn_of_lt hzero (h.past x hx)]
    exact hgap
  · intro x hx y hy
    obtain rfl := Option.some.inj hy
    have hdue := h.due x hx
    rw [hzero, Nat.add_zero] at hdue
    rw [stallAt_moveOn_of_lt hzero (h.past x (List.mem_of_mem_getLast? hx))]
    exact hdue

theorem moveOn (hzero : s.stallCounter = 0) (h : Timed config program s) :
    Timed config program (s.moveOn config program).2 where
  total := h.total_moveOn hzero
  past := by
    intro x hx
    rw [State.trace_moveOn] at hx
    rcases List.mem_append.mp hx with hold | hnew
    · exact Nat.lt_succ_of_lt (h.past x hold)
    · obtain rfl := List.mem_singleton.mp hnew
      exact Nat.lt_succ_self _
  logged := h.logged_moveOn hzero
  ordered := h.ordered_moveOn hzero
  spaced := h.spaced_moveOn hzero
  due := by
    intro x hx
    rw [State.trace_moveOn, List.getLast?_concat] at hx
    obtain rfl := Option.some.inj hx
    have hself := h.stallAt_moveOn_self hzero
    show s.cycle + 1 + _ = s.cycle + 1 + _
    rw [hself]

theorem increasing (h : Timed config program s) :
    (s.trace.map (·.cycle)).Pairwise (· < ·) := by
  rw [← List.isChain_iff_pairwise, List.isChain_map]
  refine h.spaced.imp fun x y hgap => ?_
  omega

end Timed

namespace State

/-- Both histories of the first state begin those of the second one. -/
def Continues (s t : State) : Prop := s.trace <+: t.trace ∧ s.events <+: t.events

theorem Cycled.continues {config : Config} {program : Program} {s t : State} {outcome : Outcome}
    (h : Cycled config program s outcome t) : s.Continues t := by
  have hmoved : s.Continues (s.moveOn config program).2 :=
    ⟨List.prefix_append _ _, List.prefix_append _ _⟩
  cases h with
  | served hpos => exact ⟨List.prefix_refl _, List.prefix_refl _⟩
  | moved hzero hdone => exact hmoved
  | finished hzero hdone => exact hmoved

theorem histories_of_grant? {s t : State} {request : Option Status}
    (h : s.grant? request = some t) : s.trace = t.trace ∧ s.events = t.events := by
  cases request with
  | none =>
    obtain rfl := Option.some.inj h
    exact ⟨rfl, rfl⟩
  | some next =>
    rw [History.eq_of_moveTo h]
    exact ⟨rfl, rfl⟩

end State

namespace History

variable {config : Config} {program : Program} {turns : List Turn} {s : State}

theorem timed (h : History config program turns s) : Timed config program s :=
  h.preserves (.initial config program)
    (fun _ _ hs => ⟨hs.total, hs.past, hs.logged, hs.ordered, hs.spaced, hs.due⟩)
    (fun _ hpos hs => hs.serveStall hpos) (fun _ hzero hs => hs.moveOn hzero)

theorem cycle_add_stallCounter (h : History config program turns s) :
    s.cycle + s.stallCounter =
      s.trace.length + (s.events.map (HazardEvent.stallLength config program)).sum := h.timed.total

end History

namespace Simulator

/-- An action that is no restart leaves both histories as they are or adds to them. -/
theorem Steered.continues {s : Simulator TickQueue} {action : Action} {answer : Answer}
    {t : State} (h : s.Steered action answer t) (hrestarts : action.restarts answer = false) :
    s.state.Continues t := by
  cases h with
  | restarted hyes => cases hrestarts.symm.trans hyes
  | refused => exact ⟨List.prefix_refl _, List.prefix_refl _⟩
  | granted _ _ hrequest =>
    obtain ⟨htrace, hevents⟩ := State.histories_of_grant? hrequest
    rw [State.Continues, htrace, hevents]
    exact ⟨List.prefix_refl _, List.prefix_refl _⟩
  | cycled _ hrequest _ hcycled =>
    obtain ⟨htrace, hevents⟩ := State.histories_of_grant? hrequest
    rw [State.Continues, htrace, hevents]
    exact hcycled.continues

/-- Whatever is done to a simulator, its cycles are accounted for: those so far, with those that the
stall under way still takes, are one for each recorded move and the length of each logged stall. The
records are in the order of time and lie in the past. Each log entry belongs to a record, names an
instruction of the program as its producer, and delays the next record by its stall. Only a restart
takes anything from the two histories, and it takes all. -/
theorem time_accounting (config : Config) (program : Program) (actions : List Action) :
    let s := ofActions config program actions
    s.state.cycle + s.state.stallCounter = s.state.trace.length +
        (s.state.events.map (HazardEvent.stallLength config s.program)).sum ∧
      (s.state.trace.map (·.cycle)).Pairwise (· < ·) ∧
      (∀ x ∈ s.state.trace, x.cycle < s.state.cycle) ∧
      (s.state.events.map (·.cycle)).Pairwise (· < ·) ∧
      (∀ e ∈ s.state.events, (∃ x ∈ s.state.trace, x.cycle = e.cycle) ∧
        (s.program.lookup e.producer).isSome = true) ∧
      (s.state.trace.IsChain fun x y =>
        y.cycle = x.cycle + 1 + s.state.stallAt config s.program x.cycle) ∧
      ∀ action, let t := (s.perform action).2.state
        if action.restarts (s.perform action).1 then t.trace = [] ∧ t.events = []
        else s.state.trace <+: t.trace ∧ s.state.events <+: t.events := by
  intro s
  have h : Timed config s.program s.state := (history_ofActions config program actions).timed
  refine ⟨h.total, h.increasing, h.past, h.ordered, h.logged, h.spaced, ?_⟩
  intro action t
  split
  · next hrestarts =>
    have ht : t = .initial := (s.steered_perform action).of_restarts hrestarts
    rw [ht]
    exact ⟨rfl, rfl⟩
  · next hno => exact (s.steered_perform action).continues (by simpa using hno)

end Simulator

end FiveStage
