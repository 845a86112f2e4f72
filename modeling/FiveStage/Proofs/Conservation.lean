import FiveStage.Proofs.Completion

/-!
# Conservation of instructions

Instructions leave the pipe in the order of the program, none of them twice and none skipped: those
that left, followed by those in flight, are the ones fetched so far. This needs nothing of the
numbers, which may repeat.
-/
namespace FiveStage

namespace State

variable (config : Config) (program : Program) (s : State)

theorem take_fetched_moveOn : program.ids.take (s.moveOn config program).2.fetched =
    program.ids.take s.fetched ++ (s.incoming config program).toList := by
  rw [fetched_moveOn_eq, incoming]
  split
  · simp
  · cases hn : program.ids[s.fetched]? with
    | none =>
      have hle : program.ids.length ≤ s.fetched := List.getElem?_eq_none_iff.mp hn
      simp [List.take_of_length_le hle]
    | some id => simp [List.take_add_one, hn]

end State

namespace History

variable {config : Config} {program : Program} {turns : List Turn} {s : State}

/-- One more turn adds the instruction that departed in it, if one did. -/
theorem departed_append_turn (turns : List Turn) (t : Turn) :
    (turns ++ [t]).filterMap Turn.departed? =
      turns.filterMap Turn.departed? ++ t.departed?.toList := by
  rw [List.filterMap_append]
  cases hd : t.departed? <;> simp [hd]

/-- What has left and what is in flight make up what was fetched. -/
theorem departed_append_inFlight (h : History config program turns s) :
    turns.filterMap Turn.departed? ++ s.pipeline.inFlight = program.ids.take s.fetched := by
  -- a move takes the instruction in WB from those in flight to those that left
  have hmoved : ∀ (turns : List Turn) (u : State),
      turns.filterMap Turn.departed? ++ u.pipeline.inFlight = program.ids.take u.fetched →
      turns.filterMap Turn.departed? ++ u.pipeline.writeBack.instruction.toList ++
          (u.moveOn config program).2.pipeline.inFlight =
        program.ids.take (u.moveOn config program).2.fetched := by
    intro turns u hu
    rw [List.append_assoc, State.inFlight_moveOn, ← List.append_assoc, hu,
      State.take_fetched_moveOn]
  induction h with
  | initial => rfl
  | move next h hnext hmove ih =>
    rw [eq_of_moveTo hmove]
    exact ih
  | @turn turns u t outcome h hactive hcycled ih =>
    rw [departed_append_turn]
    cases hcycled with
    | served hpos =>
      rw [State.inFlight_serveStall]
      show turns.filterMap Turn.departed? ++ [] ++ _ = _
      rw [List.append_nil]
      exact ih
    | moved hzero hdone => exact hmoved turns u ih
    | finished hzero hdone => exact hmoved turns u ih

theorem retired_eq_departed (h : History config program turns s) (hs : s.status ≠ .complete) :
    turns.filterMap Turn.retired? = turns.filterMap Turn.departed? := by
  apply List.filterMap_congr
  intro t ht
  obtain ⟨_, _, _, hcycled⟩ := h.of_mem_turns ht
  have hno := h.not_completed hs t ht
  obtain ⟨before, outcome, after⟩ := t
  change before.Cycled config program outcome after at hcycled
  cases hcycled with
  | served hpos => rfl
  | moved hzero hdone => rfl
  | finished hzero hdone => exact absurd rfl hno

/-- The cycle that completes a program with instructions is the one in which the last of them
leaves. -/
theorem last_departs {u : State} (hne : program ≠ []) (h : History config program turns u)
    (hu : u.status ≠ .complete) (hdone : (u.moveOn config program).2.isDone program = true) :
    ∃ id, u.pipeline.writeBack.instruction = some id := by
  cases hw : u.pipeline.writeBack.instruction with
  | some id => exact ⟨id, rfl⟩
  | none =>
    obtain ⟨hall, hempty⟩ := (State.isDone_iff _ _).mp hdone
    have hmove := u.inFlight_moveOn config program
    rw [hw, hempty, Option.toList_none, List.append_nil] at hmove
    obtain ⟨hflight, hnone⟩ := List.append_eq_nil_iff.mp hmove.symm
    rw [State.fetched_moveOn_eq, hnone, List.length_nil, Nat.add_zero] at hall
    have hbefore := (State.isDone_iff program u).mpr ⟨hall, hflight⟩
    rw [h.not_isDone hne hu] at hbefore
    cases hbefore

theorem departed_of_complete (h : History config program turns s) (hs : s.status = .complete) :
    turns.filterMap Turn.departed? = program.ids := by
  obtain ⟨hall, hempty⟩ := (State.isDone_iff _ _).mp (h.isDone_of_complete hs)
  have hconserve := h.departed_append_inFlight
  rwa [hempty, List.append_nil,
    List.take_of_length_le (by rw [Program.length_ids]; exact hall)] at hconserve

theorem retired_prefix (h : History config program turns s) :
    turns.filterMap Turn.retired? <+: program.ids := by
  by_cases hs : s.status = .complete
  · obtain ⟨earlier, u, hu, hactive, rfl, _⟩ := h.completed hs
    have hall := h.departed_of_complete hs
    rw [departed_append_turn, ← hu.retired_eq_departed hactive] at hall
    have hlast : [(⟨u, .completed, s⟩ : Turn)].filterMap Turn.retired? = [] := rfl
    rw [List.filterMap_append, hlast, List.append_nil]
    exact ⟨_, hall⟩
  · have hconserve := h.departed_append_inFlight
    rw [h.retired_eq_departed hs]
    exact List.IsPrefix.trans ⟨_, hconserve⟩ (List.take_prefix _ _)

/-- A completed history reports all instructions but the last, which leaves in the completing turn,
the only one of its kind. -/
theorem retired_of_complete (hne : program ≠ []) (h : History config program turns s)
    (hs : s.status = .complete) :
    turns.filterMap Turn.retired? = program.ids.dropLast ∧
      (turns.filter fun t => t.outcome = .completed).map Turn.departed? =
        [program.ids.getLast?] := by
  have hall := h.departed_of_complete hs
  obtain ⟨earlier, u, hu, hactive, rfl, _, hdone, _⟩ := h.completed hs
  obtain ⟨id, hw⟩ := hu.last_departs hne hactive hdone
  have hlast : (⟨u, .completed, s⟩ : Turn).departed? = some id := hw
  have hsilent : [(⟨u, .completed, s⟩ : Turn)].filterMap Turn.retired? = [] := rfl
  rw [departed_append_turn, hlast, ← hu.retired_eq_departed hactive, Option.toList_some] at hall
  constructor
  · rw [List.filterMap_append, hsilent, List.append_nil, ← hall, List.dropLast_concat]
  · have hearlier : (earlier.filter fun t => t.outcome = .completed) = [] := by
      rw [List.filter_eq_nil_iff]
      intro t ht
      simpa using hu.not_completed hactive t ht
    rw [List.filter_append, hearlier, List.nil_append, ← hall, List.getLast?_concat, ← hlast]
    rfl

end History

namespace Simulator

/-- Two instructions with the same number. -/
def twins : Program := [{ id := 7, opcode := .j }, { id := 7, opcode := .syscall }]

/-- Whatever is done to a simulator, read from WB to IF its pipe holds a segment of the program: it
starts behind the instructions that left since the last restart and ends before the next one to be
fetched. The outcomes report the first instructions of the program as retired, in order. Those of a
completed run report all but the last, which leaves in the one cycle that answers that the run is
complete. -/
theorem in_order_conservation (config : Config) (program : Program) (actions : List Action) :
    let s := ofActions config program actions
    let turns := turnsOf config program actions
    let left := (turns.filterMap Turn.departed?).length
    left ≤ s.state.fetched ∧ s.state.fetched ≤ s.program.length ∧
      s.state.pipeline.inFlight = (s.program.ids.take s.state.fetched).drop left ∧
      turns.filterMap Turn.retired? <+: s.program.ids ∧
      (s.program ≠ [] → s.state.status = .complete →
        turns.filterMap Turn.retired? = s.program.ids.dropLast ∧
          (turns.filter fun t => t.outcome = .completed).map Turn.departed? =
            [s.program.ids.getLast?]) := by
  intro s turns left
  have h := history_ofActions config program actions
  have hconserve := h.departed_append_inFlight
  refine ⟨?_, h.fetched_le, ?_, h.retired_prefix, fun hne hs => h.retired_of_complete hne hs⟩
  · have hlen := congrArg List.length hconserve
    rw [List.length_append, List.length_take] at hlen
    change left + _ = min s.state.fetched _ at hlen
    omega
  · rw [← hconserve]
    exact (List.drop_left ..).symm

theorem conservation_of_twins :
    let actions := .start :: List.replicate 7 .advance
    let s := ofActions .standard twins actions
    let turns := turnsOf .standard twins actions
    s.program ≠ [] ∧ s.state.status = .complete ∧ turns.filterMap Turn.retired? = [7] ∧
      (turns.filter fun t => t.outcome = .completed).map Turn.departed? = [some 7] := by
  intro actions s turns
  have hne : s.program ≠ [] := by decide +kernel
  have hs : s.state.status = .complete := by decide +kernel
  obtain ⟨_, _, _, _, hcomplete⟩ := in_order_conservation .standard twins actions
  obtain ⟨hretired, hlast⟩ := hcomplete hne hs
  refine ⟨hne, hs, hretired.trans ?_, hlast.trans ?_⟩
  · decide +kernel
  · decide +kernel

end Simulator

end FiveStage
