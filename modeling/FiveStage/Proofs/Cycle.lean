import Mathlib.Data.List.Nodup
import FiveStage.Simulator.Work

/-!
# The cases of a cycle

A cycle that is not ignored serves a running stall or moves every instruction one stage on. When ID
is checked IF is empty, so an instruction conflicts with those in EX, MEM and WB alone, and only
the one in EX can make it wait.
-/
namespace FiveStage

namespace Program

/-- The numbers of the instructions, in program order. -/
def ids (program : Program) : List InstructionId := program.map (·.id)

theorem length_ids (program : Program) : program.ids.length = program.length := List.length_map _

theorem getElem?_ids (program : Program) (i : Nat) : program.ids[i]? = program[i]?.map (·.id) :=
  List.getElem?_map ..

variable {program : Program} {i : Nat}

theorem ids_of_getElem? {x : Instruction} (h : program[i]? = some x) :
    program.ids[i]? = some x.id := by
  rw [getElem?_ids, h, Option.map_some]

theorem exists_id (h : i < program.length) : ∃ id, program.ids[i]? = some id :=
  ⟨_, ids_of_getElem? (List.getElem?_eq_getElem h)⟩

theorem exists_of_id {id : InstructionId} (h : program.ids[i]? = some id) :
    ∃ x, program[i]? = some x ∧ x.id = id := by
  rwa [getElem?_ids, Option.map_eq_some_iff] at h

theorem lt_length_of_id {id : InstructionId} (h : program.ids[i]? = some id) :
    i < program.length := by
  rw [← length_ids]
  exact (List.getElem?_eq_some_iff.mp h).1

/-- Where no number repeats, each instruction is found by its own. -/
theorem lookup_getElem? (hids : program.ids.Nodup) {x : Instruction} (h : program[i]? = some x) :
    program.lookup x.id = some x := by
  have hx : x ∈ program := List.mem_of_getElem? h
  cases hl : program.lookup x.id with
  | none =>
    have hnone := List.find?_eq_none.mp hl x hx
    simp at hnone
  | some y =>
    have hy : y ∈ program := List.mem_of_find?_eq_some hl
    rw [List.inj_on_of_nodup_map hids hy hx (lookup_id hl)]

theorem getElem?_of_lookup (hids : program.ids.Nodup) {x : Instruction}
    (h : program.ids[i]? = some x.id) (hx : program.lookup x.id = some x) :
    program[i]? = some x := by
  obtain ⟨y, hy, hid⟩ := exists_of_id h
  have hl := lookup_getElem? hids hy
  rw [hid, hx] at hl
  rw [hy, Option.some.inj hl]

theorem place_unique (hids : program.ids.Nodup) {j : Nat} {id : InstructionId}
    (hi : program.ids[i]? = some id) (hj : program.ids[j]? = some id) : i = j := by
  obtain ⟨hlt, _⟩ := List.getElem?_eq_some_iff.mp hi
  exact (List.getElem?_inj hlt hids).mp (hi.trans hj.symm)

end Program

namespace Hazard

theorem conflict?_eq_some_iff {program : Program} {reader writer : Instruction} {slot : Slot} :
    conflict? program reader slot = some writer ↔
      slot.instruction = some writer.id ∧ writer.id ≠ reader.id ∧
        program.lookup writer.id = some writer ∧ reader.dependsOn writer = true := by
  unfold conflict?
  cases slot.instruction with
  | none => simp
  | some id =>
    show (if id = reader.id then none
      else (program.lookup id).filter fun producer => reader.dependsOn producer) = _ ↔ _
    by_cases hid : id = reader.id
    · rw [if_pos hid]
      constructor
      · intro h
        cases h
      · rintro ⟨he, hne, _⟩
        exact absurd ((Option.some.inj he).symm.trans hid) hne
    · rw [if_neg hid, Option.filter_eq_some_iff]
      constructor
      · rintro ⟨hl, hd⟩
        obtain rfl := Program.lookup_id hl
        exact ⟨rfl, hid, hl, hd⟩
      · rintro ⟨he, _, hl, hd⟩
        obtain rfl := Option.some.inj he
        exact ⟨hl, hd⟩

theorem needsStall_resolve (config : Config) (stage : Stage) (writer : Instruction) :
    (resolve config stage writer).needsStall = !stage.canForward := by
  unfold resolve
  cases stage.canForward <;> rfl

end Hazard

namespace Pipeline

def occupant (p : Pipeline) (stage : Stage) : Option InstructionId := (p.slot stage).instruction

theorem isEmpty_iff_occupant (p : Pipeline) :
    p.isEmpty = true ↔ ∀ stage, p.occupant stage = none := by
  constructor
  · intro h stage
    have hall : ∀ entry ∈ p.slots, entry.2.isEmpty = true := List.all_eq_true.mp h
    have hslot : (stage, p.slot stage) ∈ p.slots := by cases stage <;> simp [slots, slot]
    exact Option.isNone_iff_eq_none.mp (hall _ hslot)
  · intro h
    apply List.all_eq_true.mpr
    intro entry hentry
    have hslot : entry.2 = p.slot entry.1 := by
      simp only [slots, List.mem_cons, List.not_mem_nil, or_false] at hentry
      rcases hentry with rfl | rfl | rfl | rfl | rfl <;> rfl
    rw [hslot]
    exact Option.isNone_iff_eq_none.mpr (h entry.1)

theorem occupant_release (p : Pipeline) (stage : Stage) :
    p.release.occupant stage = p.occupant stage := by
  cases stage <;> rfl

theorem occupant_mark (p : Pipeline) (hazard : Hazard) (stage : Stage) :
    (p.mark hazard).occupant stage = p.occupant stage := by
  cases hazard <;> cases stage <;> rfl

theorem inFlight_release (p : Pipeline) : p.release.inFlight = p.inFlight := by
  simp only [inFlight, release, List.filterMap_cons]

theorem inFlight_mark (p : Pipeline) (hazard : Hazard) : (p.mark hazard).inFlight = p.inFlight := by
  cases hazard <;> simp only [inFlight, mark, List.filterMap_cons]

theorem inFlight_fetchNext (p : Pipeline) (id : Option InstructionId)
    (h : p.fetch.instruction = none) : (p.fetchNext id).inFlight = p.inFlight ++ id.toList := by
  have hwith : ∀ q : Pipeline, q.inFlight =
      [q.writeBack, q.memory, q.execute, q.decode].filterMap (·.instruction) ++
        q.fetch.instruction.toList := by
    intro q
    show ([q.writeBack, q.memory, q.execute, q.decode] ++ [q.fetch]).filterMap _ = _
    rw [List.filterMap_append]
    cases hq : q.fetch.instruction <;> simp [hq]
  rw [hwith, hwith p, h]
  simp [fetchNext]

theorem hazard_of_vacant (config : Config) (program : Program) {p : Pipeline}
    (h : p.decode.instruction = none) : p.hazard config program = .clear := by
  simp only [hazard, h]

/-- After a shift the instruction that came to ID is checked against EX, MEM and WB, in this order:
IF is empty, and an instruction does not conflict with itself. -/
theorem hazard_shift {config : Config} {program : Program} {p : Pipeline} {reader : Instruction}
    (hf : p.fetch.instruction = some reader.id) (hr : program.lookup reader.id = some reader) :
    p.shift.hazard config program =
      ([(Stage.execute, p.decode), (.memory, p.execute), (.writeBack, p.memory)].findSome?
        fun (stage, slot) =>
          (Hazard.conflict? program reader slot).map
            (Hazard.resolve config stage)).getD .clear := by
  have hself : Hazard.conflict? program reader (p.decode.receive p.fetch) = none := by
    simp [Hazard.conflict?, Slot.receive, hf]
  have hvacant : Hazard.conflict? program reader (p.fetch.receive {}) = none := rfl
  have hslots : p.shift.slots =
      (.fetch, p.fetch.receive {}) :: (.decode, p.decode.receive p.fetch) ::
        [(.execute, p.execute.receive p.decode), (.memory, p.memory.receive p.execute),
          (.writeBack, p.writeBack.receive p.memory)] := rfl
  have hin : p.shift.decode.instruction = some reader.id := hf
  simp only [hazard, hin, Hazard.detect, hr, hslots, List.findSome?_cons, hself, hvacant,
    Option.map_none]
  rfl

/-- The instruction that came to ID waits just for one in EX. -/
theorem hazard_shift_stall (config : Config) {program : Program} {p : Pipeline}
    {reader writer : Instruction} (hf : p.fetch.instruction = some reader.id)
    (hr : program.lookup reader.id = some reader)
    (hc : Hazard.conflict? program reader p.decode = some writer) :
    p.shift.hazard config program =
      .stall writer.id .execute (config.stallCycles writer.opcode) := by
  simp only [hazard_shift hf hr, List.findSome?_cons, hc, Option.map_some]
  rfl

theorem needsStall_hazard_shift (config : Config) {program : Program} {p : Pipeline}
    {reader : Instruction} (hf : p.fetch.instruction = some reader.id)
    (hr : program.lookup reader.id = some reader)
    (hc : Hazard.conflict? program reader p.decode = none) :
    (p.shift.hazard config program).needsStall = false := by
  simp only [hazard_shift hf hr, List.findSome?_cons, List.findSome?_nil, hc, Option.map_none]
  cases Hazard.conflict? program reader p.execute with
  | some writer => exact Hazard.needsStall_resolve config .memory writer
  | none =>
    cases Hazard.conflict? program reader p.memory with
    | some writer => exact Hazard.needsStall_resolve config .writeBack writer
    | none => rfl

/-- A stall tells of a reader now in ID and of a writer that is found in the program and now in
EX. -/
theorem eq_of_hazard_shift_stall {config : Config} {program : Program} {p : Pipeline}
    {producer : InstructionId} {stage : Stage} {cycles : Nat}
    (h : p.shift.hazard config program = .stall producer stage cycles) :
    ∃ reader writer, p.fetch.instruction = some reader.id ∧
      program.lookup reader.id = some reader ∧
      Hazard.conflict? program reader p.decode = some writer ∧
      producer = writer.id ∧ stage = .execute ∧ cycles = config.stallCycles writer.opcode := by
  cases hf : p.fetch.instruction with
  | none =>
    rw [hazard_of_vacant config program hf] at h
    cases h
  | some id =>
    cases hr : program.lookup id with
    | none =>
      simp only [hazard, shift, Slot.receive, hf, Hazard.detect, hr] at h
      cases h
    | some reader =>
      obtain rfl := Program.lookup_id hr
      cases hc : Hazard.conflict? program reader p.decode with
      | none =>
        have hno := needsStall_hazard_shift config hf hr hc
        rw [h] at hno
        cases hno
      | some writer =>
        rw [hazard_shift_stall config hf hr hc] at h
        cases h
        exact ⟨reader, writer, rfl, hr, hc, rfl, rfl, rfl⟩

end Pipeline

namespace State

/-- The instruction that a move brings into IF. It is withheld when the one in ID has to wait. -/
def incoming (config : Config) (program : Program) (s : State) : Option InstructionId :=
  if (s.moveOn config program).1.needsStall then none else program.ids[s.fetched]?

section Move

variable (config : Config) (program : Program) (s : State)

theorem hazard_moveOn : (s.moveOn config program).1 = s.pipeline.shift.hazard config program := rfl

theorem pipeline_moveOn : (s.moveOn config program).2.pipeline =
    (s.pipeline.shift.mark (s.moveOn config program).1).fetchNext (s.incoming config program) := by
  rw [incoming, Program.getElem?_ids]
  rfl

theorem fetched_moveOn_eq : (s.moveOn config program).2.fetched =
    s.fetched + (s.incoming config program).toList.length := by
  rw [incoming, Program.getElem?_ids]
  rfl

theorem fetched_moveOn_le (h : s.fetched ≤ program.length) :
    (s.moveOn config program).2.fetched ≤ program.length := by
  rw [fetched_moveOn_eq, incoming]
  split
  · simpa using h
  · cases hn : program.ids[s.fetched]? with
    | none => simpa using h
    | some id =>
      have hlt := (List.getElem?_eq_some_iff.mp hn).1
      rw [Program.length_ids] at hlt
      exact hlt

theorem trace_moveOn : (s.moveOn config program).2.trace = s.trace ++ [s.toSnapshot] := rfl

theorem events_moveOn : (s.moveOn config program).2.events =
    s.events ++ newEvents s.cycle s.pipeline.fetch.instruction (s.moveOn config program).1 := rfl

theorem occupant_moveOn (stage : Stage) :
    (s.moveOn config program).2.pipeline.occupant stage =
      match stage with
      | .fetch => s.incoming config program
      | .decode => s.pipeline.occupant .fetch
      | .execute => s.pipeline.occupant .decode
      | .memory => s.pipeline.occupant .execute
      | .writeBack => s.pipeline.occupant .memory := by
  have hmark := Pipeline.occupant_mark s.pipeline.shift (s.moveOn config program).1
  rw [pipeline_moveOn]
  cases stage with
  | fetch => rfl
  | decode => exact hmark .decode
  | execute => exact hmark .execute
  | memory => exact hmark .memory
  | writeBack => exact hmark .writeBack

/-- The instructions in flight lose the one in WB and gain the incoming one. -/
theorem inFlight_moveOn : s.pipeline.writeBack.instruction.toList ++
      (s.moveOn config program).2.pipeline.inFlight =
    s.pipeline.inFlight ++ (s.incoming config program).toList := by
  have hvacant : (s.pipeline.shift.mark (s.moveOn config program).1).fetch.instruction = none :=
    Pipeline.occupant_mark s.pipeline.shift (s.moveOn config program).1 .fetch
  rw [pipeline_moveOn, Pipeline.inFlight_fetchNext _ _ hvacant, Pipeline.inFlight_mark,
    Pipeline.inFlight_shift s.pipeline, List.append_assoc]

end Move

theorem inFlight_serveStall (s : State) :
    s.serveStall.2.pipeline.inFlight = s.pipeline.inFlight := by
  simp only [serveStall]
  split
  · exact Pipeline.inFlight_release _
  · rfl

theorem occupant_serveStall (s : State) (stage : Stage) :
    s.serveStall.2.pipeline.occupant stage = s.pipeline.occupant stage := by
  simp only [serveStall]
  split
  · exact Pipeline.occupant_release _ _
  · rfl

theorem isDone_iff (program : Program) (s : State) :
    s.isDone program = true ↔ program.length ≤ s.fetched ∧ s.pipeline.inFlight = [] := by
  rw [isDone, Bool.and_eq_true, decide_eq_true_eq, Pipeline.inFlight_eq_nil_iff]

theorem isDone_serveStall (program : Program) (s : State) :
    s.serveStall.2.isDone program = s.isDone program := by
  rw [Bool.eq_iff_iff, isDone_iff, isDone_iff, inFlight_serveStall]
  rfl

theorem advance_of_ignored {config : Config} {program : Program} {s : State}
    (h : (s.advance config program).1 = .ignored) : (s.advance config program).2 = s := by
  unfold advance at h ⊢
  split
  · rfl
  · rfl
  all_goals
    next hs =>
      simp only [hs] at h
      split at h
      · cases h
      · split at h <;> cases h

/-- What a cycle does that is not ignored. -/
inductive Cycled (config : Config) (program : Program) (s : State) : Outcome → State → Prop
  | served (hpos : 0 < s.stallCounter) :
      Cycled config program s (.stalled (s.stallCounter - 1)) s.serveStall.2
  | moved (hzero : s.stallCounter = 0)
      (hdone : (s.moveOn config program).2.isDone program = false) :
      Cycled config program s
        (.advanced s.pipeline.writeBack.instruction (s.moveOn config program).1)
        (s.moveOn config program).2
  | finished (hzero : s.stallCounter = 0)
      (hdone : (s.moveOn config program).2.isDone program = true) :
      Cycled config program s .completed { (s.moveOn config program).2 with status := .complete }

theorem Cycled.of_advanced {config : Config} {program : Program} {s t : State} {outcome : Outcome}
    (h : Cycled config program s outcome t) {retired : Option InstructionId} {hazard : Hazard}
    (ho : outcome = .advanced retired hazard) :
    s.stallCounter = 0 ∧ retired = s.pipeline.writeBack.instruction ∧
      hazard = (s.moveOn config program).1 ∧ t = (s.moveOn config program).2 := by
  cases h with
  | served hpos => cases ho
  | moved hzero hdone =>
    cases ho
    exact ⟨hzero, rfl, rfl, rfl⟩
  | finished hzero hdone => cases ho

theorem Cycled.ne_ignored {config : Config} {program : Program} {s t : State} {outcome : Outcome}
    (h : Cycled config program s outcome t) : outcome ≠ .ignored := by
  cases h <;> exact nofun

/-- A state that takes cycles. -/
def Active (s : State) : Prop := s.status = .running ∨ s.status = .paused

theorem Active.not_complete {s : State} (h : s.Active) : s.status ≠ .complete := by
  rcases h with hs | hs <;> rw [hs] <;> decide

/-- An active state takes a cycle. A running one and a paused one take the same. -/
theorem Active.cycled (config : Config) (program : Program) {s : State} (h : s.Active) :
    Cycled config program s (s.advance config program).1 (s.advance config program).2 := by
  have hstatus : (s.moveOn config program).2.status = s.status := rfl
  have hmove : s.status.canMoveTo .complete = true := by
    rcases h with hs | hs <;> rw [hs] <;> rfl
  have hstep : s.advance config program =
      if 0 < s.stallCounter then s.serveStall
      else if (s.moveOn config program).2.isDone program then
        (.completed, ((s.moveOn config program).2.moveTo? .complete).getD
          (s.moveOn config program).2)
      else (.advanced s.pipeline.writeBack.instruction (s.moveOn config program).1,
        (s.moveOn config program).2) := by
    rcases h with hs | hs <;> simp only [advance, hs]
  rw [hstep]
  split
  · next hpos => exact .served hpos
  · next hpos =>
    have hzero : s.stallCounter = 0 := by omega
    split
    · next hdone =>
      rw [moveTo?, hstatus, hmove]
      exact .finished hzero hdone
    · next hdone => exact .moved hzero (by simpa using hdone)

/-- No other state takes a cycle. -/
theorem cycled_advance {config : Config} {program : Program} {s : State}
    (h : (s.advance config program).1 ≠ .ignored) : s.Active ∧
      Cycled config program s (s.advance config program).1 (s.advance config program).2 := by
  have hactive : s.Active := by
    cases hs : s.status with
    | idle => exact absurd (by simp only [advance, hs]) h
    | complete => exact absurd (by simp only [advance, hs]) h
    | running => exact .inl hs
    | paused => exact .inr hs
  exact ⟨hactive, hactive.cycled config program⟩

end State

end FiveStage
