import FiveStage.Proofs.Completion
import FiveStage.Proofs.Schedule.Basic

/-!
# The pipe follows the schedule

Where the numbers of a program do not repeat, the moves made so far decide what is in each stage:
the instruction that was fetched as many moves ago as the stage lies behind IF. A stall is found in
the move after the fetch, when the writer is in EX. It leaves IF empty, and the empty slot moves
down behind the reader, so that the next reader has no one in EX to wait for.
-/
namespace FiveStage

/-- A log entry without its cycle and its wording. -/
def HazardEvent.summary (e : HazardEvent) :
    HazardKind × Resolution × Option InstructionId × Option InstructionId :=
  (e.kind, e.resolution, some e.producer, some e.instruction)

/-- The instructions fetched that have been checked: all but the one in IF. -/
def State.checked (s : State) : Nat := s.fetched - s.pipeline.fetch.count

namespace Program

/-- The log entry of an instruction that had to wait for the one before it. -/
def stallSummary (program : Program) (i : Nat) :
    HazardKind × Resolution × Option InstructionId × Option InstructionId :=
  (.readAfterWrite, .stallInserted, program.ids[i - 1]?, program.ids[i]?)

/-- The stages hold what the schedule puts there after so many moves. -/
def Occupies (program : Program) (moves : Nat) (p : Pipeline) : Prop :=
  ∀ stage id, p.occupant stage = some id ↔
    ∃ i, program.ids[i]? = some id ∧ program.entry i + stage.index + 1 = moves

end Program

/-- A state that has come about by the schedule. -/
structure Follows (program : Program) (s : State) : Prop where
  fetched_le : s.fetched ≤ program.length
  entered : ∀ i < s.fetched, program.entry i < s.trace.length
  ahead : s.fetched < program.length → s.trace.length ≤ program.entry s.fetched
  occupies : program.Occupies s.trace.length s.pipeline
  logged : s.events.map HazardEvent.summary =
    (program.stalledBelow s.checked).map program.stallSummary
  traced : ∀ (c : Nat) (snapshot : Snapshot), s.trace[c]? = some snapshot →
    program.Occupies c snapshot.pipeline

namespace Follows

variable {program : Program} {s : State}

theorem initial : Follows program .initial where
  fetched_le := Nat.zero_le _
  entered := fun _ hi => absurd hi (Nat.not_lt_zero _)
  ahead := fun _ => Nat.zero_le _
  occupies := by
    intro stage id
    constructor
    · cases stage <;> exact fun h => nomatch h
    · rintro ⟨i, _, hi⟩
      cases hi
  logged := rfl
  traced := fun _ _ h => nomatch h

/-- The instruction in IF is the last one fetched, by the last move. -/
theorem fetch_occupied (h : Follows program s) {id : InstructionId}
    (hf : s.pipeline.occupant .fetch = some id) :
    ∃ i, s.fetched = i + 1 ∧ program.ids[i]? = some id ∧ program.entry i + 1 = s.trace.length := by
  obtain ⟨i, hid, hi⟩ := (h.occupies .fetch id).mp hf
  have hlt := Program.lt_length_of_id hid
  have hentry : program.entry i + 1 = s.trace.length := hi
  have hmono := program.entry_strictMono
  refine ⟨i, ?_, hid, hentry⟩
  apply Nat.le_antisymm
  · -- a later one would have entered by a move that is still to come
    by_contra hgt
    have hlast := h.entered (i + 1) (by omega)
    have hnext : program.entry i < program.entry (i + 1) := hmono (Nat.lt_succ_self i)
    omega
  · by_contra hle
    have hnext := h.ahead (by omega)
    have hupto : program.entry s.fetched ≤ program.entry i := hmono.monotone (by omega)
    omega

/-- Behind an empty IF the next instruction is due. -/
theorem fetch_vacant (h : Follows program s) (hf : s.pipeline.occupant .fetch = none)
    (hlt : s.fetched < program.length) : program.entry s.fetched = s.trace.length := by
  have hahead := h.ahead hlt
  cases hk : s.fetched with
  | zero =>
    rw [hk] at hahead
    have hzero : program.entry 0 = 0 := rfl
    omega
  | succ i =>
    rw [hk] at hahead hlt
    have hin := h.entered i (by omega)
    obtain ⟨id, hid⟩ : ∃ id, program.ids[i]? = some id := Program.exists_id (by omega)
    -- the last one fetched is out of IF, so that its stall, if it had one, cost its move already
    have hno : program.entry i + 1 ≠ s.trace.length := by
      intro he
      have hsome := (h.occupies .fetch id).mpr ⟨i, hid, he⟩
      rw [hf] at hsome
      cases hsome
    have hsucc := program.entry_succ i
    split at hsucc <;> omega

/-- When an instruction comes to ID, it conflicts with the slot of a stage behind IF just if it
needs the instruction there, which was fetched so many moves earlier as the stage lies behind IF. -/
theorem conflict?_iff (hids : program.ids.Nodup) (h : Follows program s) {i : Nat}
    {reader writer : Instruction} (stage : Stage) (hstage : 0 < stage.index)
    (hr : program[i]? = some reader) (hi : program.entry i + 1 = s.trace.length) :
    Hazard.conflict? program reader (s.pipeline.slot stage) = some writer ↔
      ∃ j, program.entry j + stage.index = program.entry i ∧ program[j]? = some writer ∧
        program.needs i j = true := by
  rw [Hazard.conflict?_eq_some_iff]
  constructor
  · rintro ⟨hin, _, hw, hdep⟩
    obtain ⟨j, hid, hj⟩ := (h.occupies stage writer.id).mp hin
    have hwriter := Program.getElem?_of_lookup hids hid hw
    exact ⟨j, by omega, hwriter, (program.needs_iff i j).mpr ⟨reader, writer, hr, hwriter, hdep⟩⟩
  · rintro ⟨j, hj, hw, hneeds⟩
    obtain ⟨reader', writer', hr', hw', hdep⟩ := (program.needs_iff i j).mp hneeds
    obtain rfl := Option.some.inj (hr.symm.trans hr')
    obtain rfl := Option.some.inj (hw.symm.trans hw')
    have hid := Program.ids_of_getElem? hw'
    refine ⟨(h.occupies stage writer.id).mpr ⟨j, hid, by omega⟩, ?_,
      Program.lookup_getElem? hids hw', hdep⟩
    intro he
    have hsame := Program.ids_of_getElem? hr
    rw [← he] at hsame
    obtain rfl := Program.place_unique hids hid hsame
    omega

/-- When an instruction comes to ID, it conflicts with the one in EX just if it has to wait. -/
theorem conflict?_decode_iff (hids : program.ids.Nodup) (h : Follows program s) {i : Nat}
    {reader writer : Instruction} (hr : program[i]? = some reader)
    (hi : program.entry i + 1 = s.trace.length) :
    Hazard.conflict? program reader s.pipeline.decode = some writer ↔
      program.stalls i = true ∧ program[i - 1]? = some writer := by
  -- who is in ID now is in EX when the reader comes to ID
  refine (h.conflict?_iff hids .decode Nat.one_pos hr hi).trans ?_
  constructor
  · rintro ⟨j, hj, hw, hneeds⟩
    obtain ⟨rfl, hno⟩ := program.entry_eq_succ_iff.mp hj.symm
    exact ⟨(program.stalls_succ_iff j).mpr ⟨hno, hneeds⟩, hw⟩
  · rintro ⟨hs, hw⟩
    cases i with
    | zero => cases hs
    | succ j =>
      obtain ⟨hno, hneeds⟩ := (program.stalls_succ_iff j).mp hs
      exact ⟨j, (program.entry_eq_succ_iff.mpr ⟨rfl, hno⟩).symm, hw, hneeds⟩

/-- The instruction that comes to ID waits by the schedule, and then for the one before it. -/
theorem hazard_of_stalls (config : Config) (hids : program.ids.Nodup) (h : Follows program s)
    {i : Nat} {reader : Instruction} (hr : program[i]? = some reader)
    (hi : program.entry i + 1 = s.trace.length) (hs : program.stalls i = true) :
    ∃ writer, program[i - 1]? = some writer ∧ (s.moveOn config program).1 =
      .stall writer.id .execute (config.stallCycles writer.opcode) := by
  have hlt : i - 1 < program.length := by
    have := program.lt_length_of_stalls hs
    omega
  have hw : program[i - 1]? = some program[i - 1] := List.getElem?_eq_getElem hlt
  have hf : s.pipeline.fetch.instruction = some reader.id :=
    (h.occupies .fetch reader.id).mpr ⟨i, Program.ids_of_getElem? hr, hi⟩
  have hc := (h.conflict?_decode_iff hids hr hi).mpr ⟨hs, hw⟩
  exact ⟨_, hw, Pipeline.hazard_shift_stall config hf (Program.lookup_getElem? hids hr) hc⟩

theorem conflict?_decode_eq_none (hids : program.ids.Nodup) (h : Follows program s) {i : Nat}
    {reader : Instruction} (hr : program[i]? = some reader)
    (hi : program.entry i + 1 = s.trace.length) (hs : program.stalls i = false) :
    Hazard.conflict? program reader s.pipeline.decode = none := by
  rw [Option.eq_none_iff_forall_ne_some]
  intro writer hw
  have hyes := ((h.conflict?_decode_iff hids hr hi).mp hw).1
  rw [hs] at hyes
  cases hyes

theorem needsStall_eq_false (config : Config) (hids : program.ids.Nodup) (h : Follows program s)
    {i : Nat} {reader : Instruction} (hr : program[i]? = some reader)
    (hi : program.entry i + 1 = s.trace.length) (hs : program.stalls i = false) :
    (s.moveOn config program).1.needsStall = false := by
  have hf : s.pipeline.fetch.instruction = some reader.id :=
    (h.occupies .fetch reader.id).mpr ⟨i, Program.ids_of_getElem? hr, hi⟩
  exact Pipeline.needsStall_hazard_shift config hf (Program.lookup_getElem? hids hr)
    (h.conflict?_decode_eq_none hids hr hi hs)

/-- A move fetches the next instruction if it is due, and nothing otherwise. -/
theorem incoming_eq (config : Config) (hids : program.ids.Nodup) (h : Follows program s) :
    s.incoming config program =
      if program.entry s.fetched = s.trace.length then program.ids[s.fetched]? else none := by
  have hfetch : (s.moveOn config program).1.needsStall = false →
      s.incoming config program = program.ids[s.fetched]? := by
    intro hno
    rw [State.incoming, hno]
    rfl
  cases hf : s.pipeline.occupant .fetch with
  | none =>
    have hclear : (s.moveOn config program).1 = .clear := Pipeline.hazard_of_vacant _ _ hf
    rw [hfetch (by rw [hclear]; rfl)]
    by_cases hlt : s.fetched < program.length
    · rw [if_pos (h.fetch_vacant hf hlt)]
    · have hnone : program.ids[s.fetched]? = none := by
        rw [List.getElem?_eq_none_iff, Program.length_ids]
        omega
      rw [hnone, ite_self]
  | some id =>
    obtain ⟨i, hk, hid, hi⟩ := h.fetch_occupied hf
    obtain ⟨reader, hr, _⟩ := Program.exists_of_id hid
    have hsucc := program.entry_succ i
    cases hs : program.stalls i with
    | true =>
      obtain ⟨writer, _, hstall⟩ := h.hazard_of_stalls config hids hr hi hs
      have hwithheld : s.incoming config program = none := by
        rw [State.incoming, hstall]
        rfl
      rw [hs, if_pos rfl] at hsucc
      rw [hwithheld, hk, if_neg (by omega)]
    | false =>
      rw [hs] at hsucc
      rw [hfetch (h.needsStall_eq_false config hids hr hi hs), hk, if_pos (hsucc.trans hi)]

theorem checked_moveOn (config : Config) (program : Program) (s : State) :
    (s.moveOn config program).2.checked = s.fetched := by
  have hcount : (s.moveOn config program).2.pipeline.fetch.count =
      (s.incoming config program).toList.length := by
    rw [State.pipeline_moveOn]
    rfl
  rw [State.checked, hcount, State.fetched_moveOn_eq, Nat.add_sub_cancel]

theorem logged_moveOn (config : Config) (hids : program.ids.Nodup) (h : Follows program s) :
    (s.moveOn config program).2.events.map HazardEvent.summary =
      (program.stalledBelow s.fetched).map program.stallSummary := by
  rw [State.events_moveOn, List.map_append, h.logged, State.checked]
  cases hf : s.pipeline.occupant .fetch with
  | none =>
    have hvacant : s.pipeline.fetch.instruction = none := hf
    have hclear : (s.moveOn config program).1 = .clear := Pipeline.hazard_of_vacant _ _ hvacant
    simp [hclear, State.newEvents, Slot.count, hvacant]
  | some id =>
    obtain ⟨i, hk, hid, hi⟩ := h.fetch_occupied hf
    have hin : s.pipeline.fetch.instruction = some id := hf
    obtain ⟨reader, hr, _⟩ := Program.exists_of_id hid
    have hcount : s.pipeline.fetch.count = 1 := by simp [Slot.count, hin]
    rw [hcount, hk, Nat.add_sub_cancel, Program.stalledBelow_succ, List.map_append]
    congr 1
    cases hs : program.stalls i with
    | true =>
      obtain ⟨writer, hw, hstall⟩ := h.hazard_of_stalls config hids hr hi hs
      have hproducer := Program.ids_of_getElem? hw
      rw [hstall, hin]
      simp [State.newEvents, HazardEvent.stalled, HazardEvent.summary, Program.stallSummary, hid,
        hproducer]
    | false =>
      have hno := h.needsStall_eq_false config hids hr hi hs
      cases hh : (s.moveOn config program).1 with
      | clear => rfl
      | forward _ _ => rfl
      | stall _ _ _ =>
        rw [hh] at hno
        cases hno

theorem fetched_moveOn_cases (config : Config) (hids : program.ids.Nodup) (h : Follows program s) :
    s.fetched < program.length ∧ program.entry s.fetched = s.trace.length ∧
        (s.moveOn config program).2.fetched = s.fetched + 1 ∨
      (s.fetched < program.length → s.trace.length < program.entry s.fetched) ∧
        (s.moveOn config program).2.fetched = s.fetched := by
  rw [State.fetched_moveOn_eq, h.incoming_eq config hids]
  by_cases hlt : s.fetched < program.length
  · obtain ⟨id, hid⟩ := Program.exists_id hlt
    have hahead := h.ahead hlt
    split
    · next he =>
      rw [hid]
      exact .inl ⟨hlt, he, rfl⟩
    · next hne => exact .inr ⟨fun _ => by omega, rfl⟩
  · have hnone : program.ids[s.fetched]? = none := by
      rw [List.getElem?_eq_none_iff, Program.length_ids]
      omega
    rw [hnone, ite_self]
    exact .inr ⟨fun hk => absurd hk hlt, rfl⟩

theorem occupies_moveOn (config : Config) (hids : program.ids.Nodup) (h : Follows program s) :
    program.Occupies (s.trace.length + 1) (s.moveOn config program).2.pipeline := by
  intro stage id
  rw [State.occupant_moveOn]
  have hshift : ∀ earlier : Stage, earlier.index + 1 = stage.index →
      (s.pipeline.occupant earlier = some id ↔
        ∃ i, program.ids[i]? = some id ∧
          program.entry i + stage.index + 1 = s.trace.length + 1) := by
    intro earlier he
    rw [h.occupies earlier id]
    constructor
    · rintro ⟨i, hid, hi⟩
      exact ⟨i, hid, by omega⟩
    · rintro ⟨i, hid, hi⟩
      exact ⟨i, hid, by omega⟩
  cases stage with
  | fetch =>
    show s.incoming config program = some id ↔ _
    rw [h.incoming_eq config hids]
    constructor
    · intro hsome
      split at hsome
      · next he => exact ⟨s.fetched, hsome, congrArg (· + 1) he⟩
      · cases hsome
    · rintro ⟨i, hid, hi⟩
      have hentry : program.entry i = s.trace.length := Nat.succ.inj hi
      have hlt := Program.lt_length_of_id hid
      -- an earlier place has entered before, and a later one comes behind the next
      have hk : i = s.fetched := by
        rcases Nat.lt_trichotomy i s.fetched with hbefore | heq | hbehind
        · have := h.entered i hbefore
          omega
        · exact heq
        · have hahead := h.ahead (by omega)
          have hlater := program.entry_strictMono hbehind
          omega
      rw [← hk, if_pos hentry]
      exact hid
  | decode => exact hshift .fetch rfl
  | execute => exact hshift .decode rfl
  | memory => exact hshift .execute rfl
  | writeBack => exact hshift .memory rfl

theorem traced_moveOn (config : Config) (h : Follows program s) (c : Nat) (snapshot : Snapshot)
    (hc : (s.moveOn config program).2.trace[c]? = some snapshot) :
    program.Occupies c snapshot.pipeline := by
  rw [State.trace_moveOn] at hc
  rcases Nat.lt_trichotomy c s.trace.length with hlt | heq | hgt
  · rw [List.getElem?_append_left hlt] at hc
    exact h.traced c snapshot hc
  · subst heq
    rw [List.getElem?_append_right (Nat.le_refl _), Nat.sub_self] at hc
    obtain rfl := Option.some.inj hc
    exact h.occupies
  · have hout : (s.trace ++ [s.toSnapshot]).length ≤ c := by
      rw [List.length_append, List.length_singleton]
      exact hgt
    rw [List.getElem?_eq_none hout] at hc
    cases hc

theorem moveOn (config : Config) (hids : program.ids.Nodup) (h : Follows program s) :
    Follows program (s.moveOn config program).2 := by
  have hlength : (s.moveOn config program).2.trace.length = s.trace.length + 1 := by
    rw [State.trace_moveOn, List.length_append, List.length_singleton]
  have hcases := h.fetched_moveOn_cases config hids
  constructor
  case fetched_le => exact s.fetched_moveOn_le config program h.fetched_le
  case entered =>
    intro i hi
    rw [hlength]
    rcases Nat.lt_or_ge i s.fetched with hold | hnew
    · have := h.entered i hold
      omega
    · rcases hcases with ⟨_, he, hk⟩ | ⟨_, hk⟩
      · obtain rfl : i = s.fetched := by omega
        omega
      · omega
  case ahead =>
    intro hlt
    rw [hlength]
    rcases hcases with ⟨_, he, hk⟩ | ⟨hlater, hk⟩
    · have hnext : program.entry s.fetched < program.entry (s.fetched + 1) :=
        program.entry_strictMono (Nat.lt_succ_self _)
      rw [hk]
      omega
    · rw [hk] at hlt ⊢
      exact hlater hlt
  case occupies =>
    rw [hlength]
    exact h.occupies_moveOn config hids
  case logged =>
    rw [checked_moveOn]
    exact h.logged_moveOn config hids
  case traced => exact h.traced_moveOn config

theorem serveStall (h : Follows program s) : Follows program s.serveStall.2 where
  fetched_le := h.fetched_le
  entered := h.entered
  ahead := h.ahead
  occupies := by
    intro stage id
    rw [State.occupant_serveStall]
    exact h.occupies stage id
  logged := by
    have hcount : s.serveStall.2.pipeline.fetch.count = s.pipeline.fetch.count :=
      congrArg (fun id => id.toList.length) (State.occupant_serveStall s .fetch)
    show s.events.map HazardEvent.summary = _
    rw [h.logged, State.checked, State.checked, hcount]
    rfl
  traced := h.traced

end Follows

theorem History.follows {config : Config} {program : Program} {turns : List Turn} {s : State}
    (hids : program.ids.Nodup) (h : History config program turns s) : Follows program s :=
  h.preserves .initial
    (fun _ _ hs => ⟨hs.fetched_le, hs.entered, hs.ahead, hs.occupies, hs.logged, hs.traced⟩)
    (fun _ _ hs => hs.serveStall) (fun _ _ hs => hs.moveOn config hids)

end FiveStage
