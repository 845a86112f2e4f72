import FiveStage.Proofs.Cycle

/-!
# What the detector finds

A slot conflicts with a consumer when it holds another instruction, and that one writes a register
which the consumer reads. Of all the slots that the detector is given it answers for the first one
that conflicts, by the stage of that slot and the opcode found there. The other slots have no say.
-/
namespace FiveStage

theorem Instruction.dependsOn_iff {consumer producer : Instruction} :
    consumer.dependsOn producer = true ↔
      ∃ register ∈ consumer.reads, register ∈ producer.writes := by
  simp only [dependsOn, List.any_eq_true, List.contains_iff_mem]

theorem Stage.canForward_iff {stage : Stage} :
    stage.canForward = true ↔ stage = .memory ∨ stage = .writeBack := by
  cases stage <;> decide

namespace Hazard

/-- The slot holds another number than the consumer's, and both stand for instructions such that
the one in the slot writes a register which the consumer reads. -/
def Conflicts (program : Program) (consumer : InstructionId) (slot : Slot) : Prop :=
  ∃ producer reader writer, slot.instruction = some producer ∧ producer ≠ consumer ∧
    program.lookup consumer = some reader ∧ program.lookup producer = some writer ∧
      ∃ register ∈ reader.reads, register ∈ writer.writes

/-- The slot conflicts, and none in front of it does. -/
def FirstConflict (program : Program) (consumer : InstructionId) (slots : List (Stage × Slot))
    (entry : Stage × Slot) : Prop :=
  ∃ before after, slots = before ++ entry :: after ∧ Conflicts program consumer entry.2 ∧
    ∀ earlier ∈ before, ¬ Conflicts program consumer earlier.2

theorem FirstConflict.conflicts {program : Program} {consumer : InstructionId}
    {slots : List (Stage × Slot)} {entry : Stage × Slot}
    (h : FirstConflict program consumer slots entry) : Conflicts program consumer entry.2 := by
  obtain ⟨_, _, _, hconflict, _⟩ := h
  exact hconflict

theorem Conflicts.occupant {program : Program} {consumer : InstructionId} {slot : Slot}
    (h : Conflicts program consumer slot) : ∃ writer : Instruction,
      slot.instruction = some writer.id ∧ program.lookup writer.id = some writer := by
  obtain ⟨producer, _, writer, hslot, _, _, hwriter, _⟩ := h
  obtain rfl := Program.lookup_id hwriter
  exact ⟨writer, hslot, hwriter⟩

section Resolve

variable {config : Config} {found stage : Stage} {writer : Instruction} {producer : InstructionId}

theorem resolve_eq_forward_iff : resolve config found writer = .forward producer stage ↔
    (stage = .memory ∨ stage = .writeBack) ∧ found = stage ∧ writer.id = producer := by
  rw [← Stage.canForward_iff, resolve]
  by_cases hlate : found.canForward = true
  · rw [if_pos hlate, forward.injEq]
    constructor
    · rintro ⟨rfl, rfl⟩
      exact ⟨hlate, rfl, rfl⟩
    · rintro ⟨_, rfl, rfl⟩
      exact ⟨rfl, rfl⟩
  · rw [if_neg hlate]
    constructor
    · intro hstall
      cases hstall
    · rintro ⟨hstage, rfl, _⟩
      exact absurd hstage hlate

theorem resolve_eq_stall_iff {cycles : Nat} :
    resolve config found writer = .stall producer stage cycles ↔
      ¬ (stage = .memory ∨ stage = .writeBack) ∧ found = stage ∧ writer.id = producer ∧
        cycles = if writer.opcode = .lw then config.loadStall else config.defaultStall := by
  rw [← Stage.canForward_iff, resolve]
  by_cases hlate : found.canForward = true
  · rw [if_pos hlate]
    constructor
    · intro hforward
      cases hforward
    · rintro ⟨hstage, rfl, _⟩
      exact absurd hlate hstage
  · rw [if_neg hlate, stall.injEq]
    constructor
    · rintro ⟨rfl, rfl, rfl⟩
      exact ⟨hlate, rfl, rfl, rfl⟩
    · rintro ⟨_, rfl, rfl, rfl⟩
      exact ⟨rfl, rfl, rfl⟩

theorem resolve_ne_clear : resolve config found writer ≠ .clear := by
  unfold resolve
  split <;> exact nofun

end Resolve

/-- What the detector says to one slot. -/
def answer? (config : Config) (program : Program) (consumer : InstructionId)
    (entry : Stage × Slot) : Option Hazard :=
  (program.lookup consumer).bind fun reader =>
    (conflict? program reader entry.2).map (resolve config entry.1)

section Scan

variable {config : Config} {program : Program} {consumer : InstructionId}

theorem detect_eq (config : Config) (program : Program) (consumer : InstructionId)
    (slots : List (Stage × Slot)) :
    detect config program consumer slots =
      (slots.findSome? (answer? config program consumer)).getD clear := by
  unfold detect answer?
  cases program.lookup consumer with
  | none =>
    have hnone : slots.findSome? (fun _ => (none : Option Hazard)) = none :=
      List.findSome?_eq_none_iff.mpr fun _ _ => rfl
    exact (congrArg (Option.getD · clear) hnone).symm
  | some reader => rfl

theorem answer?_eq_some_iff {entry : Stage × Slot} {hazard : Hazard} :
    answer? config program consumer entry = some hazard ↔
      Conflicts program consumer entry.2 ∧ ∃ writer, entry.2.instruction = some writer.id ∧
        program.lookup writer.id = some writer ∧ resolve config entry.1 writer = hazard := by
  simp only [answer?, Option.bind_eq_some_iff, Option.map_eq_some_iff, conflict?_eq_some_iff,
    Instruction.dependsOn_iff]
  constructor
  · rintro ⟨reader, hreader, writer, ⟨hslot, hother, hwriter, hshared⟩, hresolve⟩
    rw [Program.lookup_id hreader] at hother
    exact ⟨⟨writer.id, reader, writer, hslot, hother, hreader, hwriter, hshared⟩,
      writer, hslot, hwriter, hresolve⟩
  · rintro ⟨⟨_, reader, writer, hslot, hother, hreader, hwriter, hshared⟩,
      found, hslot', hfound, hresolve⟩
    -- The slot has one occupant, and its number stands for one instruction.
    obtain rfl := Option.some.inj (hslot.symm.trans hslot')
    obtain rfl := Option.some.inj (hwriter.symm.trans hfound)
    refine ⟨reader, hreader, writer, ⟨hslot, ?_, hwriter, hshared⟩, hresolve⟩
    rwa [Program.lookup_id hreader]

theorem answer?_eq_none_iff {entry : Stage × Slot} :
    answer? config program consumer entry = none ↔ ¬ Conflicts program consumer entry.2 := by
  constructor
  · intro hnone hconflict
    obtain ⟨writer, hslot, hwriter⟩ := hconflict.occupant
    rw [answer?_eq_some_iff.mpr ⟨hconflict, writer, hslot, hwriter, rfl⟩] at hnone
    cases hnone
  · intro hquiet
    by_contra hne
    obtain ⟨hazard, hsome⟩ := Option.ne_none_iff_exists'.mp hne
    exact hquiet (answer?_eq_some_iff.mp hsome).1

theorem findSome?_answer?_eq_none_iff {slots : List (Stage × Slot)} :
    slots.findSome? (answer? config program consumer) = none ↔
      ∀ entry ∈ slots, ¬ Conflicts program consumer entry.2 := by
  rw [List.findSome?_eq_none_iff]
  exact forall₂_congr fun _ _ => answer?_eq_none_iff

theorem findSome?_answer?_eq_some_iff {slots : List (Stage × Slot)} {hazard : Hazard} :
    slots.findSome? (answer? config program consumer) = some hazard ↔
      ∃ stage slot writer, FirstConflict program consumer slots (stage, slot) ∧
        slot.instruction = some writer.id ∧ program.lookup writer.id = some writer ∧
          resolve config stage writer = hazard := by
  rw [List.findSome?_eq_some_iff]
  constructor
  · rintro ⟨before, ⟨stage, slot⟩, after, hslots, hanswer, hbefore⟩
    obtain ⟨hconflict, writer, hwriter⟩ := answer?_eq_some_iff.mp hanswer
    refine ⟨stage, slot, writer, ⟨before, after, hslots, hconflict, ?_⟩, hwriter⟩
    exact fun earlier hearlier => answer?_eq_none_iff.mp (hbefore earlier hearlier)
  · rintro ⟨stage, slot, writer, ⟨before, after, hslots, hconflict, hbefore⟩, hwriter⟩
    refine ⟨before, (stage, slot), after, hslots,
      answer?_eq_some_iff.mpr ⟨hconflict, writer, hwriter⟩, fun earlier hearlier => ?_⟩
    exact answer?_eq_none_iff.mpr (hbefore earlier hearlier)

theorem detect_eq_clear_iff {slots : List (Stage × Slot)} :
    detect config program consumer slots = .clear ↔
      ∀ entry ∈ slots, ¬ Conflicts program consumer entry.2 := by
  have hnone : slots.findSome? (answer? config program consumer) = none ↔
      ∀ entry ∈ slots, ¬ Conflicts program consumer entry.2 := findSome?_answer?_eq_none_iff
  rw [detect_eq, ← hnone]
  cases hfound : slots.findSome? (answer? config program consumer) with
  | none => exact iff_of_true rfl rfl
  | some hazard =>
    obtain ⟨_, _, _, _, _, _, rfl⟩ := findSome?_answer?_eq_some_iff.mp hfound
    exact iff_of_false resolve_ne_clear nofun

/-- Any answer but the clear one resolves the first conflict. -/
theorem detect_eq_iff {slots : List (Stage × Slot)} {hazard : Hazard} (hne : hazard ≠ .clear) :
    detect config program consumer slots = hazard ↔
      ∃ stage slot writer, FirstConflict program consumer slots (stage, slot) ∧
        slot.instruction = some writer.id ∧ program.lookup writer.id = some writer ∧
          resolve config stage writer = hazard := by
  rw [detect_eq, ← findSome?_answer?_eq_some_iff]
  cases slots.findSome? (answer? config program consumer) with
  | none => exact iff_of_false hne.symm nofun
  | some found => exact (Option.some.injEq found hazard).symm ▸ Iff.rfl

theorem detect_eq_forward_iff {slots : List (Stage × Slot)} {producer : InstructionId}
    {stage : Stage} : detect config program consumer slots = .forward producer stage ↔
      (stage = .memory ∨ stage = .writeBack) ∧ ∃ slot,
        FirstConflict program consumer slots (stage, slot) ∧ slot.instruction = some producer := by
  have hne : Hazard.forward producer stage ≠ .clear := nofun
  simp only [detect_eq_iff hne, resolve_eq_forward_iff]
  constructor
  · rintro ⟨_, slot, writer, hfirst, hslot, _, hlate, rfl, rfl⟩
    exact ⟨hlate, slot, hfirst, hslot⟩
  · rintro ⟨hlate, slot, hfirst, hslot⟩
    obtain ⟨writer, hslot', hwriter⟩ := hfirst.conflicts.occupant
    obtain rfl := Option.some.inj (hslot.symm.trans hslot')
    exact ⟨stage, slot, writer, hfirst, hslot, hwriter, hlate, rfl, rfl⟩

theorem detect_eq_stall_iff {slots : List (Stage × Slot)} {producer : InstructionId}
    {stage : Stage} {cycles : Nat} :
    detect config program consumer slots = .stall producer stage cycles ↔
      ¬ (stage = .memory ∨ stage = .writeBack) ∧ ∃ slot writer,
        FirstConflict program consumer slots (stage, slot) ∧
          slot.instruction = some producer ∧ program.lookup producer = some writer ∧
          cycles = if writer.opcode = .lw then config.loadStall else config.defaultStall := by
  have hne : Hazard.stall producer stage cycles ≠ .clear := nofun
  simp only [detect_eq_iff hne, resolve_eq_stall_iff]
  constructor
  · rintro ⟨_, slot, writer, hfirst, hslot, hwriter, hearly, rfl, rfl, hcycles⟩
    exact ⟨hearly, slot, writer, hfirst, hslot, hwriter, hcycles⟩
  · rintro ⟨hearly, slot, writer, hfirst, hslot, hwriter, hcycles⟩
    obtain rfl := Program.lookup_id hwriter
    exact ⟨stage, slot, writer, hfirst, hslot, hwriter, hearly, rfl, rfl, hcycles⟩

/-- Slots that do not conflict have no say, wherever they stand. -/
theorem detect_quiet {before quiet after : List (Stage × Slot)}
    (h : ∀ entry ∈ quiet, ¬ Conflicts program consumer entry.2) :
    detect config program consumer (before ++ quiet ++ after) =
      detect config program consumer (before ++ after) := by
  have hquiet : quiet.findSome? (answer? config program consumer) = none :=
    findSome?_answer?_eq_none_iff.mpr h
  rw [detect_eq, detect_eq, List.findSome?_append, List.findSome?_append, List.findSome?_append,
    hquiet, Option.or_none]

end Scan

/-- The detector answers that there is no hazard exactly when no slot conflicts with the consumer.
Otherwise it names the occupant and the stage of the first slot that does: as a forward if that
stage is MEM or WB, and else as a stall, of the longer kind if the occupant loads a word. Slots that
do not conflict can be put in or left out anywhere. -/
theorem detects_first_conflict (config : Config) (program : Program) (consumer : InstructionId)
    (slots : List (Stage × Slot)) :
    let answer := detect config program consumer slots
    (answer = .clear ↔ ∀ entry ∈ slots, ¬ Conflicts program consumer entry.2) ∧
      (∀ producer stage, answer = .forward producer stage ↔
        (stage = .memory ∨ stage = .writeBack) ∧ ∃ slot,
          FirstConflict program consumer slots (stage, slot) ∧
            slot.instruction = some producer) ∧
      (∀ producer stage cycles, answer = .stall producer stage cycles ↔
        ¬ (stage = .memory ∨ stage = .writeBack) ∧ ∃ slot writer,
          FirstConflict program consumer slots (stage, slot) ∧
            slot.instruction = some producer ∧ program.lookup producer = some writer ∧
            cycles = if writer.opcode = .lw then config.loadStall else config.defaultStall) ∧
      ∀ before quiet after, slots = before ++ quiet ++ after →
        (∀ entry ∈ quiet, ¬ Conflicts program consumer entry.2) →
          detect config program consumer (before ++ after) = answer := by
  refine ⟨detect_eq_clear_iff, fun _ _ => detect_eq_forward_iff, fun _ _ _ => detect_eq_stall_iff,
    ?_⟩
  rintro before quiet after rfl hquiet
  exact (detect_quiet hquiet).symm

/-- The word load in MEM is the first to conflict. Before it stand a store, which writes nothing, a
number without an instruction and the consumer itself, and after it an OR in EX. Without the load
the OR makes the consumer wait. -/
theorem detects_first_conflict_behind_quiet_slots :
    let program : Program :=
      [{ id := 1, opcode := .lw, rt := some ⟨"R2"⟩, rs := some ⟨"R1"⟩ },
       { id := 2, opcode := .or, rd := some ⟨"R5"⟩, rs := some ⟨"R6"⟩, rt := some ⟨"R7"⟩ },
       { id := 3, opcode := .add, rd := some ⟨"R2"⟩, rs := some ⟨"R2"⟩, rt := some ⟨"R5"⟩ },
       { id := 4, opcode := .sw, rt := some ⟨"R2"⟩, rs := some ⟨"R5"⟩ }]
    let quiet : List (Stage × Slot) :=
      [(.execute, { instruction := some 4 }), (.execute, { instruction := some 42 }),
       (.decode, { instruction := some 3 })]
    let load : Stage × Slot := (.memory, { instruction := some 1 })
    let wait : Stage × Slot := (.execute, { instruction := some 2 })
    (∀ entry ∈ quiet, ¬ Conflicts program 3 entry.2) ∧
      detect .standard program 3 (quiet ++ [load, wait]) = .forward 1 .memory ∧
      detect .standard program 3 [load, wait] = .forward 1 .memory ∧
      detect .standard program 3 (quiet ++ [wait]) = .stall 2 .execute 1 := by
  intro program quiet load wait
  have hquiet : ∀ entry ∈ quiet, ¬ Conflicts program 3 entry.2 := by
    refine ((detects_first_conflict .standard program 3 quiet).1).mp ?_
    decide
  have hall : detect .standard program 3 (quiet ++ [load, wait]) = .forward 1 .memory := by decide
  refine ⟨hquiet, hall, ?_, by decide⟩
  rw [← hall]
  exact (detects_first_conflict .standard program 3 (quiet ++ [load, wait])).2.2.2
    [] quiet [load, wait] rfl hquiet

end Hazard

end FiveStage
