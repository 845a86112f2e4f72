import FiveStage.Proofs.Schedule.Pipeline

/-!
# Forwarding

An instruction that does not wait takes a value from the one that was fetched two moves earlier and
is now in MEM, or else from the one three moves earlier in WB. The schedule says who that is, so it
says which tag each instruction gets when it comes to ID. From there on the tag moves with it.
-/
namespace FiveStage

namespace Program

/-- How many moves the instruction at the first place is ahead of the one at the second: one for
each place between them and one for each instruction on the way that has to wait. -/
def distance (program : Program) (j i : Nat) : Nat :=
  (i - j) + (List.range' j (i - j)).countP program.stalls

/-- The place that is so many moves ahead, if its instruction is needed. -/
def producer? (program : Program) (i moves : Nat) : Option Nat :=
  (List.range i).find? fun j => program.distance j i = moves && program.needs i j

/-- The hazard of an instruction that does not wait. The producer in MEM comes later in the program
than the one in WB, so it goes first. -/
def bypass (program : Program) (i : Nat) : Hazard :=
  match (program.producer? i 2).bind (program.ids[·]?) with
  | some producer => .forward producer .memory
  | none =>
    match (program.producer? i 3).bind (program.ids[·]?) with
    | some producer => .forward producer .writeBack
    | none => .clear

end Program

/-- The tag that a hazard leaves in ID. -/
def Hazard.tag? : Hazard → Option Tag
  | stall .. => some .stall
  | forward _ stage => some (.forward stage)
  | clear => none

/-- The tag of the instruction at a place, once it has come to ID. -/
def Program.tag? (program : Program) (i : Nat) : Option Tag :=
  if program.stalls i then some .stall else (program.bypass i).tag?

/-- The third instruction reads what both instructions before it wrote, and the last one reads what
the second wrote. -/
def Program.relay : Program :=
  [{ id := 1, opcode := .lw, rt := some ⟨"R1"⟩, rs := some ⟨"R0"⟩ },
   { id := 2, opcode := .add, rd := some ⟨"R2"⟩, rs := some ⟨"R1"⟩, rt := some ⟨"R1"⟩ },
   { id := 3, opcode := .and, rd := some ⟨"R3"⟩, rs := some ⟨"R1"⟩, rt := some ⟨"R2"⟩ },
   { id := 4, opcode := .or, rd := some ⟨"R4"⟩, rs := some ⟨"R2"⟩, rt := some ⟨"R0"⟩ }]

namespace Program

variable (program : Program)

theorem entry_add_distance {j i : Nat} (hle : j ≤ i) :
    program.entry j + program.distance j i = program.entry i := by
  have hrange : List.range i = List.range j ++ List.range' j (i - j) := by
    have happend := List.range'_append_1 (s := 0) (m := j) (n := i - j)
    rw [Nat.zero_add, Nat.add_sub_cancel' hle] at happend
    rw [List.range_eq_range', List.range_eq_range', happend]
  rw [entry, entry, distance, delay, delay, hrange, List.countP_append]
  omega

/-- At most one place is so many moves ahead, so the one that is found is the only one. -/
theorem producer?_eq_some_iff {i moves j : Nat} (hmoves : 0 < moves) :
    program.producer? i moves = some j ↔
      program.entry j + moves = program.entry i ∧ program.needs i j = true := by
  -- among the places before it, distances are differences of entries
  have hbefore : ∀ {k}, program.entry k + moves = program.entry i → k < i := by
    intro k hk
    exact program.entry_strictMono.lt_iff_lt.mp (by omega)
  have hahead : ∀ {k}, k < i →
      (program.distance k i = moves ↔ program.entry k + moves = program.entry i) := by
    intro k hk
    have hentry := program.entry_add_distance hk.le
    omega
  rw [producer?, List.find?_range_eq_some]
  simp only [Bool.and_eq_true, decide_eq_true_eq, List.mem_range, Bool.not_eq_true',
    Bool.and_eq_false_iff, decide_eq_false_iff_not]
  constructor
  · rintro ⟨⟨hd, hneeds⟩, hj, _⟩
    exact ⟨(hahead hj).mp hd, hneeds⟩
  · rintro ⟨he, hneeds⟩
    refine ⟨⟨(hahead (hbefore he)).mpr he, hneeds⟩, hbefore he, ?_⟩
    intro k hk
    left
    -- an earlier place has an earlier entry, so its distance is another one
    intro hd
    have hke := (hahead (hk.trans (hbefore he))).mp hd
    have hlt := program.entry_strictMono hk
    omega

end Program

namespace Follows

variable {program : Program} {s : State}

/-- The producer that the schedule finds is the one that the scan finds in the slot. -/
theorem producer?_eq (hids : program.ids.Nodup) (h : Follows program s) {i : Nat}
    {reader : Instruction} (stage : Stage) (hstage : 0 < stage.index)
    (hr : program[i]? = some reader) (hi : program.entry i + 1 = s.trace.length) :
    (program.producer? i stage.index).bind (program.ids[·]?) =
      (Hazard.conflict? program reader (s.pipeline.slot stage)).map (·.id) := by
  apply Option.ext
  intro id
  rw [Option.bind_eq_some_iff, Option.map_eq_some_iff]
  constructor
  · rintro ⟨j, hj, hid⟩
    obtain ⟨hentry, hneeds⟩ := (program.producer?_eq_some_iff hstage).mp hj
    obtain ⟨writer, hw, rfl⟩ := Program.exists_of_id hid
    exact ⟨writer, (h.conflict?_iff hids stage hstage hr hi).mpr ⟨j, hentry, hw, hneeds⟩, rfl⟩
  · rintro ⟨writer, hc, rfl⟩
    obtain ⟨j, hentry, hw, hneeds⟩ := (h.conflict?_iff hids stage hstage hr hi).mp hc
    exact ⟨j, (program.producer?_eq_some_iff hstage).mpr ⟨hentry, hneeds⟩,
      Program.ids_of_getElem? hw⟩

/-- An instruction that does not wait by the schedule is forwarded what the schedule says. -/
theorem hazard_of_not_stalls (config : Config) (hids : program.ids.Nodup) (h : Follows program s)
    {i : Nat} {reader : Instruction} (hr : program[i]? = some reader)
    (hi : program.entry i + 1 = s.trace.length) (hs : program.stalls i = false) :
    (s.moveOn config program).1 = program.bypass i := by
  have hf : s.pipeline.fetch.instruction = some reader.id :=
    (h.occupies .fetch reader.id).mpr ⟨i, Program.ids_of_getElem? hr, hi⟩
  have hdecode := h.conflict?_decode_eq_none hids hr hi hs
  -- after the move those in EX are in MEM and those in MEM are in WB
  have hmemory := h.producer?_eq hids .execute (by decide) hr hi
  have hwriteBack := h.producer?_eq hids .memory (by decide) hr hi
  simp only [Stage.index, Pipeline.slot] at hmemory hwriteBack
  rw [State.hazard_moveOn, Pipeline.hazard_shift hf (Program.lookup_getElem? hids hr),
    Program.bypass, hmemory, hwriteBack]
  simp only [List.findSome?_cons, List.findSome?_nil, hdecode, Option.map_none]
  cases Hazard.conflict? program reader s.pipeline.execute with
  | some writer => rfl
  | none =>
    cases Hazard.conflict? program reader s.pipeline.memory with
    | some writer => rfl
    | none => rfl

/-- The tag that an instruction gets when it comes to ID is the one of the schedule. -/
theorem tag?_hazard_moveOn (config : Config) (hids : program.ids.Nodup) (h : Follows program s)
    {i : Nat} {id : InstructionId} (hid : program.ids[i]? = some id)
    (hf : s.pipeline.occupant .fetch = some id) :
    (s.moveOn config program).1.tag? = program.tag? i := by
  obtain ⟨j, _, hj, hi⟩ := h.fetch_occupied hf
  obtain rfl := Program.place_unique hids hid hj
  obtain ⟨reader, hr, _⟩ := Program.exists_of_id hid
  rw [Program.tag?]
  cases hs : program.stalls i with
  | true =>
    obtain ⟨writer, _, hstall⟩ := h.hazard_of_stalls config hids hr hi hs
    rw [hstall]
    rfl
  | false =>
    rw [h.hazard_of_not_stalls config hids hr hi hs]
    rfl

end Follows

namespace Pipeline

def Untagged (p : Pipeline) : Prop :=
  ∀ stage, stage = .fetch ∨ p.occupant stage = none → (p.slot stage).tag = none

/-- Behind IF each instruction has the tag of its place. -/
def Tagged (program : Program) (p : Pipeline) : Prop :=
  ∀ stage i id, stage ≠ .fetch → program.ids[i]? = some id → p.occupant stage = some id →
    (p.slot stage).tag = program.tag? i

theorem tag_release (p : Pipeline) (stage : Stage) :
    (p.release.slot stage).tag = (p.slot stage).tag := by
  cases stage <;> rfl

end Pipeline

namespace State

theorem tag_serveStall (s : State) (stage : Stage) :
    (s.serveStall.2.pipeline.slot stage).tag = (s.pipeline.slot stage).tag := by
  simp only [serveStall]
  split
  · exact Pipeline.tag_release _ _
  · rfl

theorem untagged_serveStall {s : State} (h : s.pipeline.Untagged) :
    s.serveStall.2.pipeline.Untagged := by
  intro stage hstage
  rw [occupant_serveStall] at hstage
  rw [tag_serveStall]
  exact h stage hstage

theorem tagged_serveStall {program : Program} {s : State} (h : s.pipeline.Tagged program) :
    s.serveStall.2.pipeline.Tagged program := by
  intro stage i id hstage hid hin
  rw [occupant_serveStall] at hin
  rw [tag_serveStall]
  exact h stage i id hstage hid hin

variable (config : Config) {program : Program} {s : State}

/-- A tag moves with its instruction, and the hazard found in ID leaves a new one there. -/
theorem tag_moveOn (stage : Stage) :
    ((s.moveOn config program).2.pipeline.slot stage).tag =
      match stage with
      | .fetch => none
      | .decode => (s.moveOn config program).1.tag?.or (s.pipeline.slot .fetch).tag
      | .execute => (s.pipeline.slot .decode).tag
      | .memory => (s.pipeline.slot .execute).tag
      | .writeBack => (s.pipeline.slot .memory).tag := by
  rw [pipeline_moveOn]
  cases (s.moveOn config program).1 <;> cases stage <;> rfl

theorem untagged_moveOn (h : s.pipeline.Untagged) :
    (s.moveOn config program).2.pipeline.Untagged := by
  intro stage hstage
  rw [occupant_moveOn] at hstage
  rw [tag_moveOn]
  cases stage with
  | fetch => rfl
  | decode =>
    have hvacant : s.pipeline.fetch.instruction = none := hstage.resolve_left (by decide)
    have hclear : (s.moveOn config program).1 = .clear := Pipeline.hazard_of_vacant _ _ hvacant
    rw [hclear]
    exact h .fetch (.inl rfl)
  | execute => exact h .decode (.inr (hstage.resolve_left (by decide)))
  | memory => exact h .execute (.inr (hstage.resolve_left (by decide)))
  | writeBack => exact h .memory (.inr (hstage.resolve_left (by decide)))

theorem tagged_moveOn (hids : program.ids.Nodup) (hfollows : Follows program s)
    (hun : s.pipeline.Untagged) (h : s.pipeline.Tagged program) :
    (s.moveOn config program).2.pipeline.Tagged program := by
  intro stage i id hstage hid hin
  rw [occupant_moveOn] at hin
  rw [tag_moveOn]
  cases stage with
  | fetch => exact absurd rfl hstage
  | decode =>
    have hfetch : (s.pipeline.slot .fetch).tag = none := hun .fetch (.inl rfl)
    dsimp only
    rw [hfollows.tag?_hazard_moveOn config hids hid hin, hfetch, Option.or_none]
  | execute => exact h .decode i id (by decide) hid hin
  | memory => exact h .execute i id (by decide) hid hin
  | writeBack => exact h .memory i id (by decide) hid hin

end State

namespace History

variable {config : Config} {program : Program} {turns : List Turn} {s : State}

theorem untagged (h : History config program turns s) : s.pipeline.Untagged := by
  refine h.preserves (P := fun s => s.pipeline.Untagged) ?_ (fun _ _ hs => hs)
    (fun _ _ hs => State.untagged_serveStall hs) (fun _ _ hs => State.untagged_moveOn config hs)
  intro stage _
  cases stage <;> rfl

theorem tagged (hids : program.ids.Nodup) (h : History config program turns s) :
    s.pipeline.Tagged program := by
  induction h with
  | initial =>
    intro stage i id _ _ hin
    cases stage <;> cases hin
  | move next h hnext hmove ih =>
    rw [eq_of_moveTo hmove]
    exact ih
  | @turn turns s t outcome h hactive hcycled ih =>
    have hmoved := State.tagged_moveOn config hids (h.follows hids) h.untagged ih
    cases hcycled with
    | served hpos => exact State.tagged_serveStall ih
    | moved hzero hdone => exact hmoved
    | finished hzero hdone => exact hmoved

theorem hazard_of_turn (hids : program.ids.Nodup) (h : History config program turns s) {t : Turn}
    (ht : t ∈ turns) {retired : Option InstructionId} {hazard : Hazard}
    (ho : t.outcome = .advanced retired hazard) {i : Nat} {id : InstructionId}
    (hid : program.ids[i]? = some id) (hin : t.after.pipeline.occupant .decode = some id) :
    hazard.needsStall = program.stalls i ∧
      (program.stalls i = false → hazard = program.bypass i) := by
  obtain ⟨_, hbefore, _, hcycled⟩ := h.of_mem_turns ht
  obtain ⟨_, _, rfl, hafter⟩ := hcycled.of_advanced ho
  rw [hafter, State.occupant_moveOn] at hin
  have hfollows := hbefore.follows hids
  obtain ⟨j, _, hj, hi⟩ := hfollows.fetch_occupied hin
  obtain rfl := Program.place_unique hids hid hj
  obtain ⟨reader, hr, _⟩ := Program.exists_of_id hid
  refine ⟨?_, hfollows.hazard_of_not_stalls config hids hr hi⟩
  cases hs : program.stalls i with
  | true =>
    obtain ⟨writer, _, hstall⟩ := hfollows.hazard_of_stalls config hids hr hi hs
    rw [hstall]
    rfl
  | false => exact hfollows.needsStall_eq_false config hids hr hi hs

end History

namespace Simulator

/-- The hazard of an instruction that comes to ID is a stall just if the schedule lets it wait, and
else the forward that its distances tell. The tag is found with the instruction in every later
stage, and there is none in IF or in an empty slot. -/
theorem forwarding_exact (config : Config) (program : Program) (actions : List Action)
    (hids : (ofActions config program actions).program.ids.Nodup) :
    let s := ofActions config program actions
    (∀ t ∈ turnsOf config program actions, ∀ retired hazard,
      t.outcome = .advanced retired hazard → ∀ i id, s.program.ids[i]? = some id →
        t.after.pipeline.occupant .decode = some id →
          hazard.needsStall = s.program.stalls i ∧
            (s.program.stalls i = false → hazard = s.program.bypass i)) ∧
      (∀ stage i id, stage ≠ .fetch → s.program.ids[i]? = some id →
        s.state.pipeline.occupant stage = some id →
          (s.state.pipeline.slot stage).tag = s.program.tag? i) ∧
      ∀ stage, stage = .fetch ∨ s.state.pipeline.occupant stage = none →
        (s.state.pipeline.slot stage).tag = none := by
  intro s
  have h := history_ofActions config program actions
  refine ⟨?_, h.tagged hids, h.untagged⟩
  intro t ht retired hazard ho i id hid hin
  exact h.hazard_of_turn hids ht ho hid hin

theorem forwarding_of_relay :
    let actions := .start :: List.replicate 8 .advance
    let s := ofActions .standard .relay actions
    s.program.ids.Nodup ∧ s.state.pipeline.occupant .decode = some 4 ∧
      (∀ t ∈ turnsOf .standard .relay actions, ∀ retired hazard,
        t.outcome = .advanced retired hazard → t.after.pipeline.occupant .decode = some 4 →
          hazard = .forward 2 .writeBack) ∧
      (s.state.pipeline.slot .decode).tag = some (.forward .writeBack) ∧
      (s.state.pipeline.slot .execute).tag = some (.forward .memory) ∧
      (s.state.pipeline.slot .memory).tag = none ∧
      (s.state.pipeline.slot .writeBack).tag = some .stall := by
  intro actions s
  have hids : s.program.ids.Nodup := by decide +kernel
  have hin : s.state.pipeline.occupant .decode = some 4 := by decide +kernel
  obtain ⟨hhazard, htag, hnone⟩ := forwarding_exact .standard .relay actions hids
  refine ⟨hids, hin, ?_, ?_, ?_, hnone .memory (.inr (by decide +kernel)), ?_⟩
  · intro t ht retired hazard ho hdecode
    have hfour := hhazard t ht retired hazard ho 3 4 (by decide +kernel) hdecode
    exact (hfour.2 (by decide +kernel)).trans (by decide +kernel)
  · exact (htag .decode 3 4 (by decide) (by decide +kernel) hin).trans (by decide +kernel)
  · exact (htag .execute 2 3 (by decide) (by decide +kernel) (by decide +kernel)).trans
      (by decide +kernel)
  · exact (htag .writeBack 1 2 (by decide) (by decide +kernel) (by decide +kernel)).trans
      (by decide +kernel)

end Simulator

end FiveStage
