import FiveStage.Proofs.Schedule.Pipeline

/-!
# The hazard log of a run

A completed run has logged the instructions that have to wait by the schedule and no others, in
program order. On the way a stall always names the instruction just before the waiting one.
-/
namespace FiveStage

namespace History

variable {config : Config} {program : Program} {turns : List Turn} {s : State}

theorem checked_of_complete (h : History config program turns s) (hs : s.status = .complete) :
    s.checked = program.length := by
  obtain ⟨hall, hempty⟩ := (State.isDone_iff _ _).mp (h.isDone_of_complete hs)
  have hvacant : s.pipeline.fetch.instruction = none :=
    (Pipeline.isEmpty_iff_occupant _).mp ((Pipeline.inFlight_eq_nil_iff _).mp hempty) .fetch
  have hcount : s.pipeline.fetch.count = 0 := by simp [Slot.count, hvacant]
  have hle := h.fetched_le
  rw [State.checked, hcount]
  omega

theorem events_of_complete (hids : program.ids.Nodup) (h : History config program turns s)
    (hs : s.status = .complete) :
    s.events.map HazardEvent.summary =
      (program.stalledBelow program.length).map program.stallSummary := by
  have hlogged := (h.follows hids).logged
  rwa [h.checked_of_complete hs] at hlogged

/-- The entries for the instructions before a place, however these are told from the others. -/
theorem countP_events_of_complete (hids : program.ids.Nodup) (h : History config program turns s)
    (hs : s.status = .complete) {bound : Nat} (hle : bound ≤ program.length)
    {P : InstructionId → Bool}
    (hP : ∀ i id, program.ids[i]? = some id → (P id = true ↔ i < bound)) :
    s.events.countP (fun e => P e.instruction) = program.delay bound := by
  let before : HazardKind × Resolution × Option InstructionId × Option InstructionId → Bool :=
    fun entry => entry.2.2.2.any P
  calc s.events.countP (fun e => P e.instruction)
    _ = (s.events.map HazardEvent.summary).countP before := by
      rw [List.countP_map]
      rfl
    _ = (program.stalledBelow program.length).countP fun i => (program.ids[i]?).any P := by
      rw [h.events_of_complete hids hs, List.countP_map]
      rfl
    _ = (program.stalledBelow program.length).countP fun i => decide (i < bound) := by
      apply List.countP_congr
      intro i hi
      have hlt := (program.mem_stalledBelow.mp hi).1
      obtain ⟨id, hid⟩ := Program.exists_id hlt
      rw [hid, Option.any_some, decide_eq_true_iff]
      exact hP i id hid
    _ = program.delay bound := program.countP_stalledBelow hle

/-- The stall of an instruction that came to ID names the one before it, which came to EX. -/
theorem stall_names_previous (hids : program.ids.Nodup) (h : History config program turns s)
    {t : Turn} (ht : t ∈ turns) {retired : Option InstructionId} {producer : InstructionId}
    {stage : Stage} {cycles : Nat}
    (ho : t.outcome = .advanced retired (.stall producer stage cycles)) :
    stage = .execute ∧ t.after.pipeline.execute.instruction = some producer ∧
      ∃ i, program.stalls (i + 1) = true ∧ program.ids[i]? = some producer ∧
        t.after.pipeline.decode.instruction = program.ids[i + 1]? := by
  obtain ⟨_, hbefore, _, hcycled⟩ := h.of_mem_turns ht
  obtain ⟨_, _, hhazard, hafter⟩ := hcycled.of_advanced ho
  rw [hafter]
  have hfollows := hbefore.follows hids
  obtain ⟨reader, writer, hf, hr, hc, rfl, rfl, _⟩ := Pipeline.eq_of_hazard_shift_stall hhazard.symm
  obtain ⟨i, _, hid, hi⟩ := hfollows.fetch_occupied hf
  have hx := Program.getElem?_of_lookup hids hid hr
  obtain ⟨hs, hw⟩ := (hfollows.conflict?_decode_iff hids hx hi).mp hc
  refine ⟨rfl, ?_, ?_⟩
  · have hex := t.before.occupant_moveOn config program .execute
    exact hex.trans (Hazard.conflict?_eq_some_iff.mp hc).1
  · cases i with
    | zero => cases hs
    | succ j =>
      have hdec := t.before.occupant_moveOn config program .decode
      refine ⟨j, hs, Program.ids_of_getElem? hw, ?_⟩
      rw [hid]
      exact hdec.trans hf

end History

namespace Simulator

/-- Brings `chain` to its end by a tick, a step, a second start and cycles. -/
def chainRun : List Action :=
  [.start, .fire, .deliver 1, .step, .start] ++ List.replicate 11 .advance

/-- Once a run is complete its log has one entry for each instruction that has to wait by the
schedule, in program order, and no other. Of two neighbours never both have to wait, and each stall
that was answered named the instruction just before the waiting one, which was then in EX. -/
theorem hazard_log_exact (config : Config) (program : Program) (actions : List Action)
    (hids : (ofActions config program actions).program.ids.Nodup)
    (hs : (ofActions config program actions).state.status = .complete) :
    let s := ofActions config program actions
    s.state.events.map HazardEvent.summary =
        (s.program.stalledBelow s.program.length).map s.program.stallSummary ∧
      (∀ i, s.program.stalls i = true → s.program.stalls (i + 1) = false) ∧
      ∀ t ∈ turnsOf config program actions, ∀ retired producer stage cycles,
        t.outcome = .advanced retired (.stall producer stage cycles) →
          stage = .execute ∧ t.after.pipeline.execute.instruction = some producer ∧
            ∃ i, s.program.stalls (i + 1) = true ∧ s.program.ids[i]? = some producer ∧
              t.after.pipeline.decode.instruction = s.program.ids[i + 1]? := by
  intro s
  have h := history_ofActions config program actions
  refine ⟨h.events_of_complete hids hs, ?_, ?_⟩
  · intro i hi
    rw [Program.stalls, hi]
    rfl
  · intro t ht retired producer stage cycles ho
    exact h.stall_names_previous hids ht ho

theorem hazard_log_of_chain :
    let s := ofActions .standard .chain chainRun
    s.program.ids.Nodup ∧ s.state.status = .complete ∧
      s.state.events.map HazardEvent.summary =
        [(.readAfterWrite, .stallInserted, some 1, some 2),
         (.readAfterWrite, .stallInserted, some 3, some 4)] := by
  intro s
  have hids : s.program.ids.Nodup := by decide +kernel
  have hs : s.state.status = .complete := by decide +kernel
  refine ⟨hids, hs, (hazard_log_exact .standard .chain chainRun hids hs).1.trans ?_⟩
  decide +kernel

end Simulator

end FiveStage
