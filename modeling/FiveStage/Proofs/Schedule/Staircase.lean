import FiveStage.Proofs.Schedule.Length

/-!
# The staircase of a run

In the timeline of a completed run the row of an instruction holds the five stages in five columns
that follow each other. The row of the next instruction starts one column later, or two if the
instruction above it had to wait.
-/
namespace FiveStage

/-- A row that shows the five stages from a column on, and nothing before or after them. -/
def Timeline.stairs (start columns : Nat) : List (Option Stage) :=
  List.replicate start none ++ Stage.all.map some ++ List.replicate (columns - (start + 5)) none

theorem Timeline.length_stairs {start columns : Nat} (hfit : start + 5 ≤ columns) :
    (stairs start columns).length = columns := by
  simp only [stairs, List.length_append, List.length_replicate, List.length_map]
  have hall : Stage.all.length = 5 := rfl
  omega

/-- The stage in a column is the one that lies as far behind IF as the column behind the start. -/
theorem Timeline.getElem?_stairs {start columns c : Nat} (hc : c < columns) :
    (stairs start columns)[c]? =
      some (Stage.all.find? fun stage => start + stage.index = c) := by
  rw [stairs, List.append_assoc]
  rcases Nat.lt_or_ge c start with hbefore | hfrom
  · rw [List.getElem?_append_left (by rwa [List.length_replicate]),
      List.getElem?_replicate_of_lt hbefore]
    symm
    rw [Option.some.injEq, List.find?_eq_none]
    intro stage _
    rw [decide_eq_true_iff]
    omega
  · obtain ⟨k, rfl⟩ := Nat.exists_eq_add_of_le hfrom
    rw [List.getElem?_append_right (by rwa [List.length_replicate]), List.length_replicate,
      Nat.add_sub_cancel_left]
    simp only [Nat.add_left_cancel_iff]
    match k with
    | 0 | 1 | 2 | 3 | 4 => rfl
    | k + 5 =>
      have hrest : k < columns - (start + 5) := by omega
      have hbehind : Stage.all.find? (fun stage => stage.index = k + 5) = none := by
        rw [List.find?_eq_none]
        intro stage _
        cases stage <;> simp [Stage.index]
      rw [hbehind]
      exact List.getElem?_replicate_of_lt hrest

namespace Pipeline

theorem stageOf?_eq (p : Pipeline) (id : InstructionId) :
    p.stageOf? id = Stage.all.find? fun stage => p.occupant stage == some id := by
  have hslots : p.slots = Stage.all.map fun stage => (stage, p.slot stage) := rfl
  rw [stageOf?, hslots, List.find?_map, Option.map_map]
  exact congrFun Option.map_id _

end Pipeline

theorem Program.Occupies.stageOf? {program : Program} {moves : Nat} {p : Pipeline}
    (h : program.Occupies moves p) (hids : program.ids.Nodup) {i : Nat} {id : InstructionId}
    (hid : program.ids[i]? = some id) :
    p.stageOf? id = Stage.all.find? fun stage => program.entry i + 1 + stage.index = moves := by
  rw [Pipeline.stageOf?_eq]
  congr 1
  funext stage
  rw [Bool.eq_iff_iff, beq_iff_eq, decide_eq_true_iff, h stage id]
  constructor
  · rintro ⟨j, hj, hmoves⟩
    obtain rfl := Program.place_unique hids hid hj
    omega
  · intro hmoves
    exact ⟨i, hid, by omega⟩

namespace History

variable {config : Config} {program : Program} {turns : List Turn} {s : State}

theorem entry_of_complete (hids : program.ids.Nodup) (h : History config program turns s)
    (hs : s.status = .complete) {i : Nat} (hi : i < program.length) :
    program.entry i + 6 ≤ s.trace.length := by
  obtain ⟨last, hlast⟩ := Nat.exists_eq_succ_of_ne_zero (Nat.zero_lt_of_lt hi).ne'
  have htrace := h.trace_length_of_complete hids hs hlast
  have hle : program.entry i ≤ program.entry last :=
    program.entry_strictMono.monotone (by omega)
  omega

theorem stages_of_complete (hids : program.ids.Nodup) (h : History config program turns s)
    (hs : s.status = .complete) {i : Nat} {id : InstructionId} (hid : program.ids[i]? = some id) :
    (s.trace.map fun snapshot => snapshot.pipeline.stageOf? id) =
      Timeline.stairs (program.entry i + 1) s.trace.length := by
  have hfit := h.entry_of_complete hids hs (Program.lt_length_of_id hid)
  apply List.ext_getElem?
  intro c
  rw [List.getElem?_map]
  rcases Nat.lt_or_ge c s.trace.length with hc | hout
  · have hsnapshot : s.trace[c]? = some s.trace[c] := List.getElem?_eq_getElem hc
    have hoccupies := (h.follows hids).traced c _ hsnapshot
    rw [hsnapshot, Option.map_some, hoccupies.stageOf? hids hid, Timeline.getElem?_stairs hc]
  · rw [List.getElem?_eq_none hout, Option.map_none, List.getElem?_eq_none]
    rw [Timeline.length_stairs (by omega)]
    exact hout

/-- The stalls that held up an instruction are those of the instructions before it. -/
theorem stalled_before_of_complete (hids : program.ids.Nodup) (h : History config program turns s)
    (hs : s.status = .complete) {i : Nat} (hi : i < program.length) :
    (s.events.countP fun e => e.instruction ∈ program.ids.take i) = program.delay i := by
  refine h.countP_events_of_complete (P := fun id => decide (id ∈ program.ids.take i))
    hids hs (Nat.le_of_lt hi) ?_
  intro j id hid
  rw [decide_eq_true_iff, List.mem_iff_getElem?]
  constructor
  · rintro ⟨k, hk⟩
    rw [List.getElem?_take] at hk
    split at hk
    · next hlt =>
      obtain rfl := Program.place_unique hids hid hk
      exact hlt
    · cases hk
  · intro hlt
    exact ⟨j, by rw [List.getElem?_take, if_pos hlt, hid]⟩

end History

namespace Simulator

/-- The timeline of a completed run, at any width: each row shows its instruction in the five
stages one after the other, from the column on that its place and the stalls before it tell, and
there is room for all of them in the columns that were recorded. -/
theorem timeline_staircase (config : Config) (program : Program) (actions : List Action)
    (hids : (ofActions config program actions).program.ids.Nodup)
    (hs : (ofActions config program actions).state.status = .complete) :
    let s := ofActions config program actions
    let start := fun i =>
      1 + i + s.state.events.countP fun e => e.instruction ∈ s.program.ids.take i
    (∀ width, Timeline.build s.state.trace s.program width =
      { cycles := (s.state.trace.map (·.cycle)).take width
        rows := s.program.mapIdx fun i instruction =>
          { instruction := instruction.id
            text := instruction.sourceOrText
            cells := (Timeline.stairs (start i) s.state.trace.length).take width } }) ∧
      ∀ i < s.program.length, start i + 5 ≤ s.state.trace.length := by
  intro s start
  have h := history_ofActions config program actions
  have hstart : ∀ i < s.program.length, start i = s.program.entry i + 1 := by
    intro i hi
    have hcount : (s.state.events.countP fun e => e.instruction ∈ s.program.ids.take i) =
        s.program.delay i := h.stalled_before_of_complete hids hs hi
    show 1 + i + _ = i + s.program.delay i + 1
    rw [hcount]
    omega
  constructor
  · intro width
    rw [Timeline.build, List.map_take]
    congr 1
    apply List.ext_getElem?
    intro i
    rw [List.getElem?_map, List.getElem?_mapIdx]
    cases hx : s.program[i]? with
    | none => rfl
    | some x =>
      have hid := Program.ids_of_getElem? hx
      have hi := Program.lt_length_of_id hid
      rw [Option.map_some, Option.map_some, hstart i hi, List.map_take]
      exact congrArg (fun cells => some (TimelineRow.mk x.id x.sourceOrText (cells.take width)))
        (h.stages_of_complete hids hs hid)
  · intro i hi
    have hfit := h.entry_of_complete hids hs hi
    rw [hstart i hi]
    exact hfit

theorem timeline_of_chain :
    let s := ofActions .standard .chain chainRun
    s.program.ids.Nodup ∧ s.state.status = .complete ∧
      (Timeline.build s.state.trace s.program 7).rows.map TimelineRow.cells =
        [[none, some .fetch, some .decode, some .execute, some .memory, some .writeBack, none],
         [none, none, some .fetch, some .decode, some .execute, some .memory, some .writeBack],
         [none, none, none, none, some .fetch, some .decode, some .execute],
         [none, none, none, none, none, some .fetch, some .decode]] := by
  intro s
  have hids : s.program.ids.Nodup := by decide +kernel
  have hs : s.state.status = .complete := by decide +kernel
  have hgrid := (timeline_staircase .standard .chain chainRun hids hs).1 7
  refine ⟨hids, hs, ?_⟩
  rw [hgrid]
  decide +kernel

end Simulator

end FiveStage
