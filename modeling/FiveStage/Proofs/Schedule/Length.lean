import FiveStage.Proofs.Accounting
import FiveStage.Proofs.Schedule.HazardLog

/-!
# The length of a run

The cycles of a run are its recorded moves and the lengths of its stalls. The moves are those of the
schedule: the last instruction enters, and five moves later it has left.
-/
namespace FiveStage

/-- A run is done five moves after the one that fetches the last instruction. -/
theorem Follows.isDone_iff {program : Program} {s : State} (h : Follows program s) {last : Nat}
    (hlast : program.length = last + 1) :
    s.isDone program = true ↔ program.entry last + 6 ≤ s.trace.length := by
  have hmono := program.entry_strictMono.monotone
  rw [State.isDone_iff, Pipeline.inFlight_eq_nil_iff, Pipeline.isEmpty_iff_occupant]
  constructor
  · rintro ⟨hall, hempty⟩
    have hin := h.entered last (by omega)
    obtain ⟨id, hid⟩ : ∃ id, program.ids[last]? = some id := Program.exists_id (by omega)
    -- the last instruction is in none of the five stages, and it has been fetched
    have hgone : ∀ stage : Stage, program.entry last + stage.index + 1 ≠ s.trace.length := by
      intro stage he
      have hsome := (h.occupies stage id).mpr ⟨last, hid, he⟩
      rw [hempty stage] at hsome
      cases hsome
    have hfetch := hgone .fetch
    have hdecode := hgone .decode
    have hexecute := hgone .execute
    have hmemory := hgone .memory
    have hwriteBack := hgone .writeBack
    simp only [Stage.index] at hfetch hdecode hexecute hmemory hwriteBack
    omega
  · intro hlate
    constructor
    · by_contra hlt
      have hahead := h.ahead (by omega)
      have hle : program.entry s.fetched ≤ program.entry last := hmono (by omega)
      omega
    · intro stage
      rw [Option.eq_none_iff_forall_ne_some]
      intro id hsome
      obtain ⟨i, hid, hi⟩ := (h.occupies stage id).mp hsome
      have hlt := Program.lt_length_of_id hid
      have hle : program.entry i ≤ program.entry last := hmono (by omega)
      have hindex : stage.index ≤ 4 := by cases stage <;> decide
      omega

namespace History

variable {config : Config} {program : Program} {turns : List Turn} {s : State}

theorem trace_length_of_complete (hids : program.ids.Nodup) (h : History config program turns s)
    (hs : s.status = .complete) {last : Nat} (hlast : program.length = last + 1) :
    s.trace.length = program.entry last + 6 := by
  have hne : program ≠ [] := by
    rintro rfl
    cases hlast
  obtain ⟨_, u, hu, hactive, _, _, hdone, rfl⟩ := h.completed hs
  -- before the last move the run was not done, after it it is
  have hbefore : ¬ program.entry last + 6 ≤ u.trace.length := by
    rw [← (hu.follows hids).isDone_iff hlast, hu.not_isDone hne hactive]
    decide
  have hafter := (((hu.follows hids).moveOn config hids).isDone_iff hlast).mp hdone
  show (u.moveOn config program).2.trace.length = _
  rw [State.trace_moveOn, List.length_append, List.length_singleton] at hafter ⊢
  omega

/-- The stalls that hold up the end are those of all instructions but the last. -/
theorem bubbles_of_complete (hids : program.ids.Nodup) (h : History config program turns s)
    (hs : s.status = .complete) {last : Nat} (hlast : program.length = last + 1) :
    (s.events.countP fun e => some e.instruction ≠ program.ids.getLast?) = program.delay last := by
  have hend : program.ids.getLast? = program.ids[last]? := by
    rw [List.getLast?_eq_getElem?, Program.length_ids, hlast, Nat.add_sub_cancel]
  refine h.countP_events_of_complete (P := fun id => decide (some id ≠ program.ids.getLast?))
    hids hs (by omega) ?_
  intro i id hid
  have hlt := Program.lt_length_of_id hid
  rw [decide_eq_true_iff, hend]
  constructor
  · intro hne
    have hother : i ≠ last := by
      rintro rfl
      exact hne hid.symm
    omega
  · intro hbefore heq
    have hsame := Program.place_unique hids hid heq.symm
    omega

end History

namespace Simulator

/-- The length of a completed run. Each stall costs its own cycles, and one more if an instruction
follows that is fetched a move later. The bubble of the last instruction is drained with it. -/
theorem cycle_count_exact (config : Config) (program : Program) (actions : List Action)
    (hne : (ofActions config program actions).program ≠ [])
    (hids : (ofActions config program actions).program.ids.Nodup)
    (hs : (ofActions config program actions).state.status = .complete) :
    let s := ofActions config program actions
    let bubbles := s.state.events.countP fun e => some e.instruction ≠ s.program.ids.getLast?
    s.state.cycle = s.program.length + 5 +
        (s.state.events.map (HazardEvent.stallLength config s.program)).sum + bubbles ∧
      s.state.trace.length = s.program.length + 5 + bubbles := by
  intro s bubbles
  have h := history_ofActions config program actions
  obtain ⟨last, hlast⟩ := Nat.exists_eq_succ_of_ne_zero (List.length_pos_of_ne_nil hne).ne'
  have hbubbles : bubbles = s.program.delay last := h.bubbles_of_complete hids hs hlast
  have htrace : s.state.trace.length = last + s.program.delay last + 6 :=
    h.trace_length_of_complete hids hs hlast
  have hcycle : s.state.cycle + s.state.stallCounter = s.state.trace.length +
      (s.state.events.map (HazardEvent.stallLength config s.program)).sum :=
    h.cycle_add_stallCounter
  have hserved : s.state.stallCounter = 0 := h.stallCounter_of_complete hs
  have hlength : s.program.length = last + 1 := hlast
  constructor
  · omega
  · omega

theorem cycle_count_of_chain :
    let s := ofActions .standard .chain chainRun
    s.program ≠ [] ∧ s.program.ids.Nodup ∧ s.state.status = .complete ∧ s.state.cycle = 13 ∧
      s.state.trace.length = 10 := by
  intro s
  have hne : s.program ≠ [] := by decide +kernel
  have hids : s.program.ids.Nodup := by decide +kernel
  have hs : s.state.status = .complete := by decide +kernel
  obtain ⟨hcycle, htrace⟩ := cycle_count_exact .standard .chain chainRun hne hids hs
  refine ⟨hne, hids, hs, hcycle.trans ?_, htrace.trans ?_⟩
  · decide +kernel
  · decide +kernel

end Simulator

end FiveStage
