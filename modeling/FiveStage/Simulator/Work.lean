import FiveStage.Cycle

/-!
# The work left

A bound on the cycles a run can still take, made of the instructions to fetch, the stages ahead of
those in the pipe, one longest stall for each that has not been checked, and the stall being
served. Every cycle that happens does some of this work: `work_advance_lt`.
-/
namespace FiveStage

/-- One for a slot with an instruction and zero for one without. -/
def Slot.count (slot : Slot) : Nat := slot.instruction.toList.length

namespace Pipeline

/-- The cycles that the instructions in the pipe can still take. The one in IF may have to stall. -/
def work (longestStall : Nat) (p : Pipeline) : Nat :=
  (longestStall + 5) * p.fetch.count + 4 * p.decode.count + 3 * p.execute.count +
    2 * p.memory.count + p.writeBack.count

theorem work_release (longestStall : Nat) (p : Pipeline) :
    p.release.work longestStall = p.work longestStall := rfl

theorem work_mark (longestStall : Nat) (p : Pipeline) (hazard : Hazard) :
    (p.mark hazard).work longestStall = p.work longestStall := by
  cases hazard <;> rfl

theorem work_fetchNext (longestStall : Nat) (p : Pipeline) (id : Option InstructionId)
    (h : p.fetch.count = 0) :
    (p.fetchNext id).work longestStall =
      p.work longestStall + (longestStall + 5) * id.toList.length := by
  have hf : (longestStall + 5) * p.fetch.count = 0 := by rw [h, Nat.mul_zero]
  have hn : (p.fetchNext id).fetch.count = id.toList.length := rfl
  simp only [work, hn, hf]
  simp only [fetchNext]
  omega

theorem work_shift (longestStall : Nat) (p : Pipeline) :
    p.shift.work longestStall =
      4 * p.fetch.count + 3 * p.decode.count + 2 * p.execute.count + p.memory.count := by
  simp [work, shift, Slot.receive, Slot.count]

theorem count_eq_zero_iff (slot : Slot) : slot.count = 0 ↔ slot.isEmpty = true := by
  cases h : slot.instruction <;> simp [Slot.count, Slot.isEmpty, h]

theorem hazard_stall {config : Config} {program : Program} {p : Pipeline}
    {producer : InstructionId} {stage : Stage} {cycles : Nat}
    (h : p.hazard config program = .stall producer stage cycles) :
    p.decode.count = 1 ∧ cycles ≤ config.longestStall := by
  rw [hazard] at h
  split at h
  · next consumer hc =>
    refine ⟨by simp [Slot.count, hc], ?_⟩
    rw [Hazard.detect] at h
    split at h
    · cases h
    · next reader _ =>
      cases hf : p.slots.findSome? fun entry =>
          (Hazard.conflict? program reader entry.2).map (Hazard.resolve config entry.1) with
      | none => rw [hf] at h; cases h
      | some found =>
        rw [hf] at h
        obtain ⟨entry, _, he⟩ := List.exists_of_findSome?_eq_some hf
        obtain ⟨writer, _, hr⟩ := Option.map_eq_some_iff.1 he
        rw [Option.getD_some] at h
        rw [h, Hazard.resolve] at hr
        split at hr
        · cases hr
        · cases hr
          exact config.stallCycles_le_longestStall _
  · cases h

end Pipeline

namespace State

/-- The cycles a state can still take until it is complete. -/
def work (config : Config) (program : Program) (s : State) : Nat :=
  (config.longestStall + 6) * (program.length - s.fetched) + s.pipeline.work config.longestStall +
    s.stallCounter + if s.status = .complete then 0 else 1

theorem work_serveStall_lt (config : Config) (program : Program) {s : State}
    (h : 0 < s.stallCounter) : s.serveStall.2.work config program < s.work config program := by
  have hp : s.serveStall.2.pipeline.work config.longestStall =
      s.pipeline.work config.longestStall := by
    simp only [serveStall]
    split
    · exact Pipeline.work_release _ _
    · rfl
  have hc : s.serveStall.2.stallCounter = s.stallCounter - 1 := rfl
  have hf : s.serveStall.2.fetched = s.fetched := rfl
  have hs : s.serveStall.2.status = s.status := rfl
  rw [work, work, hp, hc, hf, hs]
  omega

/-- What a cycle without a stall to serve fetches. -/
theorem fetched_moveOn (config : Config) (program : Program) (s : State) :
    (s.moveOn config program).2.fetched = s.fetched +
      (if (s.moveOn config program).1.needsStall then none
        else program[s.fetched]?.map (·.id)).toList.length := rfl

theorem stallCounter_moveOn (config : Config) (program : Program) (s : State) :
    (s.moveOn config program).2.stallCounter =
      (s.moveOn config program).1.stallCycles?.getD s.stallCounter := rfl

theorem work_pipeline_moveOn (config : Config) (program : Program) (s : State) (longest : Nat) :
    (s.moveOn config program).2.pipeline.work longest = s.pipeline.shift.work longest +
      (longest + 5) * (if (s.moveOn config program).1.needsStall then none
        else program[s.fetched]?.map (·.id)).toList.length := by
  have hm : (s.pipeline.shift.mark (s.moveOn config program).1).fetch.count = 0 := by
    cases (s.moveOn config program).1 <;> rfl
  rw [← Pipeline.work_mark longest s.pipeline.shift (s.moveOn config program).1]
  exact Pipeline.work_fetchNext longest _ _ hm

/-- With nothing in the pipe and nothing left to fetch a cycle is the last one. -/
theorem isDone_moveOn (config : Config) (program : Program) {s : State}
    (hk : program.length ≤ s.fetched) (hp : s.pipeline.work config.longestStall = 0) :
    (s.moveOn config program).2.isDone program = true := by
  have hf : s.pipeline.fetch.count = 0 := by
    have hz : (config.longestStall + 5) * s.pipeline.fetch.count = 0 := by
      rw [Pipeline.work] at hp; omega
    exact (Nat.mul_eq_zero.mp hz).resolve_left (by omega)
  rw [Pipeline.work] at hp
  have hd : s.pipeline.decode.count = 0 := by omega
  have he : s.pipeline.execute.count = 0 := by omega
  have hm : s.pipeline.memory.count = 0 := by omega
  rw [Pipeline.count_eq_zero_iff, Slot.isEmpty, Option.isNone_iff_eq_none] at hf hd he hm
  simp [moveOn, isDone, Pipeline.hazard, Pipeline.shift, Slot.receive, hf, hd, he, hm,
    Pipeline.mark, Pipeline.fetchNext, Pipeline.isEmpty, Pipeline.slots, Slot.isEmpty, hk]

/-- A moving cycle does some of the work, unless there is nothing left but to be complete. -/
theorem work_moveOn (config : Config) (program : Program) {s : State} (hc : s.stallCounter = 0) :
    (s.moveOn config program).2.work config program < s.work config program ∨
      (s.moveOn config program).2.isDone program = true ∧
      (s.moveOn config program).2.work config program = s.work config program := by
  have hfetched := fetched_moveOn config program s
  have hcounter := stallCounter_moveOn config program s
  have hwork := work_pipeline_moveOn config program s config.longestStall
  have hstatus : (s.moveOn config program).2.status = s.status := rfl
  rw [Pipeline.work_shift] at hwork
  rw [work, work, hstatus, hcounter, hwork, hfetched, hc]
  have hpipe : s.pipeline.work config.longestStall =
      (config.longestStall + 5) * s.pipeline.fetch.count + 4 * s.pipeline.decode.count +
        3 * s.pipeline.execute.count + 2 * s.pipeline.memory.count +
          s.pipeline.writeBack.count := rfl
  by_cases hstall : (s.moveOn config program).1.needsStall = true
  · left
    cases hh : (s.moveOn config program).1 with
    | clear => rw [hh] at hstall; cases hstall
    | forward _ _ => rw [hh] at hstall; cases hstall
    | stall producer stage cycles =>
      obtain ⟨hone, hlong⟩ := Pipeline.hazard_stall hh
      have hfetch : s.pipeline.fetch.count = 1 := hone
      rw [hfetch, Nat.mul_one] at hpipe
      simp only [Hazard.needsStall, Hazard.stallCycles?, if_true, Option.toList_none,
        List.length_nil, Nat.mul_zero, Nat.add_zero, Option.getD_some, hfetch]
      omega
  · have hnone : (s.moveOn config program).1.stallCycles? = none := by
      cases hh : (s.moveOn config program).1 with
      | clear => rfl
      | forward _ _ => rfl
      | stall _ _ _ => rw [hh] at hstall; exact absurd rfl hstall
    have hle : 4 * s.pipeline.fetch.count ≤ (config.longestStall + 5) * s.pipeline.fetch.count :=
      Nat.mul_le_mul_right _ (by omega)
    rw [hnone, if_neg hstall, Option.getD_none]
    by_cases hk : s.fetched < program.length
    · left
      obtain ⟨m, hm⟩ := Nat.exists_eq_add_of_lt hk
      have hmul : (config.longestStall + 6) * (program.length - s.fetched) =
          (config.longestStall + 6) * m + (config.longestStall + 6) := by
        rw [← Nat.mul_succ]; congr 1; omega
      have hrest : program.length - (s.fetched + 1) = m := by omega
      simp only [List.getElem?_eq_getElem hk, Option.map_some, Option.toList_some,
        List.length_singleton, hrest, hmul]
      omega
    · have hlen : program.length ≤ s.fetched := by omega
      simp only [List.getElem?_eq_none hlen, Option.map_none, Option.toList_none, List.length_nil,
        Nat.add_zero, Nat.mul_zero]
      by_cases hz : s.pipeline.work config.longestStall = 0
      · right
        exact ⟨isDone_moveOn config program hlen hz, by omega⟩
      · left
        have hpos : s.pipeline.fetch.count = 0 ∨
            4 * s.pipeline.fetch.count < (config.longestStall + 5) * s.pipeline.fetch.count := by
          rcases Nat.eq_zero_or_pos s.pipeline.fetch.count with h0 | h0
          · exact Or.inl h0
          · exact Or.inr (Nat.mul_lt_mul_of_pos_right (by omega) h0)
        omega

/-- A cycle that is not ignored leaves less work. -/
theorem work_advance_lt (config : Config) (program : Program) {s : State}
    (h : (s.advance config program).1 ≠ .ignored) :
    (s.advance config program).2.work config program < s.work config program := by
  rw [advance] at h ⊢
  split
  · next hs => simp [hs] at h
  · next hs => simp [hs] at h
  all_goals
    next hs =>
      split
      · next hpos => exact work_serveStall_lt config program hpos
      · next hpos =>
        have hwork := work_moveOn config program (s := s) (by omega)
        have hstatus : (s.moveOn config program).2.status = s.status := rfl
        dsimp only
        split
        · next hdone =>
          have hmove : ((s.moveOn config program).2.moveTo? .complete).getD
              (s.moveOn config program).2 =
              { (s.moveOn config program).2 with status := .complete } := by
            simp [moveTo?, hstatus, hs, Status.canMoveTo]
          rw [hmove]
          have hdrop : ({ (s.moveOn config program).2 with status := .complete } : State).work
              config program < (s.moveOn config program).2.work config program := by
            simp [work, hstatus, hs]
          exact Nat.lt_of_lt_of_le hdrop (by omega)
        · next hdone =>
          rcases hwork with hlt | ⟨hd, _⟩
          · exact hlt
          · exact absurd hd hdone

end State

end FiveStage
