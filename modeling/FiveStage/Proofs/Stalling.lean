import FiveStage.Proofs.Accounting
import FiveStage.Proofs.Schedule.Forwarding

/-!
# The stall being served

The stall counter, the mark on ID and the last entry of the hazard log tell of one stall. A move
begins it, the cycles that follow serve it, and the last of them takes the mark away. The mark
belongs to the stage and no shift removes it, so a stall of no cycles would leave it behind. A valid
configuration has no such stall.
-/
namespace FiveStage

namespace State

/-- The stall that a log entry tells of is under way: the reader waits in ID for the writer in EX,
and what is left of the stall is what the cycles since the entry have not served. -/
structure Serves (config : Config) (program : Program) (s : State) (e : HazardEvent) : Prop where
  vacant : s.pipeline.occupant .fetch = none
  reader : s.pipeline.occupant .decode = some e.instruction
  tagged : (s.pipeline.slot .decode).tag = some .stall
  writer : s.pipeline.occupant .execute = some e.producer
  left_le : s.stallCounter ≤ e.stallLength config program
  elapsed : s.cycle = e.cycle + 1 + (e.stallLength config program - s.stallCounter)

theorem stalled_serveStall (s : State) (stage : Stage) :
    (s.serveStall.2.pipeline.slot stage).stalled =
      if s.stallCounter - 1 = 0 then false else (s.pipeline.slot stage).stalled := by
  simp only [serveStall]
  split
  · cases stage <;> rfl
  · rfl

variable (config : Config) (program : Program) (s : State)

/-- Marks do not move: a shift leaves them where they are, and only the fetch clears one. -/
theorem stalled_moveOn (stage : Stage) :
    ((s.moveOn config program).2.pipeline.slot stage).stalled =
      match stage with
      | .fetch => false
      | .decode => (s.moveOn config program).1.needsStall || (s.pipeline.slot .decode).stalled
      | .execute => (s.pipeline.slot .execute).stalled
      | .memory => (s.pipeline.slot .memory).stalled
      | .writeBack => (s.pipeline.slot .writeBack).stalled := by
  rw [pipeline_moveOn]
  cases (s.moveOn config program).1 <;> cases stage <;> rfl

variable {config program s}

/-- A move that begins a stall logs it, and all of it is left to be served. -/
theorem serves_moveOn (h : (s.moveOn config program).1.needsStall = true) :
    ∃ e writer, (s.moveOn config program).2.events = s.events ++ [e] ∧
      (s.moveOn config program).2.stallCounter = config.stallCycles writer ∧
      (s.moveOn config program).2.Serves config program e := by
  cases hh : (s.moveOn config program).1 with
  | clear =>
    rw [hh] at h
    cases h
  | forward _ _ =>
    rw [hh] at h
    cases h
  | stall producer stage cycles =>
    obtain ⟨reader, writer, hf, _, hc, rfl, rfl, rfl⟩ := Pipeline.eq_of_hazard_shift_stall hh
    obtain ⟨hd, _, hw, _⟩ := Hazard.conflict?_eq_some_iff.mp hc
    have hcounter : (s.moveOn config program).2.stallCounter =
        config.stallCycles writer.opcode := by
      rw [stallCounter_moveOn, hh]
      rfl
    have hlength : (HazardEvent.stalled s.cycle writer.id reader.id).stallLength config program =
        config.stallCycles writer.opcode := by
      simp only [HazardEvent.stallLength, HazardEvent.stalled, hw]
    refine ⟨.stalled s.cycle writer.id reader.id, writer.opcode, ?_, hcounter, ?_⟩
    · rw [events_moveOn, hh, hf]
      rfl
    constructor
    case vacant =>
      rw [occupant_moveOn, incoming, h]
      rfl
    case reader =>
      rw [occupant_moveOn]
      exact hf
    case tagged =>
      rw [tag_moveOn, hh]
      rfl
    case writer =>
      rw [occupant_moveOn]
      exact hd
    case left_le => exact Nat.le_of_eq (hcounter.trans hlength.symm)
    case elapsed =>
      rw [hcounter, hlength, Nat.sub_self]
      rfl

/-- A cycle served leaves one less to be served. -/
theorem Serves.serveStall {e : HazardEvent} (h : s.Serves config program e)
    (hpos : 0 < s.stallCounter) : s.serveStall.2.Serves config program e := by
  have hcounter : s.serveStall.2.stallCounter = s.stallCounter - 1 := rfl
  have hleft := h.left_le
  constructor
  case vacant => rw [occupant_serveStall, h.vacant]
  case reader => rw [occupant_serveStall, h.reader]
  case tagged => rw [tag_serveStall, h.tagged]
  case writer => rw [occupant_serveStall, h.writer]
  case left_le => omega
  case elapsed =>
    have hcycle : s.serveStall.2.cycle = s.cycle + 1 := rfl
    have hbefore := h.elapsed
    omega

end State

/-- What the stall counter, the marks and the log say together. -/
structure Stalling (config : Config) (program : Program) (s : State) : Prop where
  marked : ∀ stage, (s.pipeline.slot stage).stalled = true ↔ stage = .decode ∧ 0 < s.stallCounter
  serving : 0 < s.stallCounter → ∃ e, s.events.getLast? = some e ∧ s.Serves config program e
  recorded : ∀ x ∈ s.trace, x.stallCounter = 0 ∧ ∀ stage, (x.pipeline.slot stage).stalled = false

namespace Stalling

variable {config : Config} {program : Program} {s : State}

theorem initial (config : Config) (program : Program) : Stalling config program .initial where
  marked := by
    intro stage
    cases stage <;> decide
  serving := nofun
  recorded := fun _ h => nomatch h

/-- Between stalls no stage is marked. -/
theorem unmarked (h : Stalling config program s) (hzero : s.stallCounter = 0) (stage : Stage) :
    (s.pipeline.slot stage).stalled = false := by
  rw [Bool.eq_false_iff]
  intro hmarked
  have hpos := ((h.marked stage).mp hmarked).2
  omega

theorem serveStall (hpos : 0 < s.stallCounter) (h : Stalling config program s) :
    Stalling config program s.serveStall.2 where
  marked := by
    intro stage
    have hcounter : s.serveStall.2.stallCounter = s.stallCounter - 1 := rfl
    rw [State.stalled_serveStall, hcounter]
    split
    · next hlast => simp [hlast]
    · next hmore =>
      rw [h.marked stage]
      exact and_congr_right fun _ => iff_of_true hpos (Nat.pos_of_ne_zero hmore)
  serving := by
    intro _
    obtain ⟨e, hlast, hserves⟩ := h.serving hpos
    exact ⟨e, hlast, hserves.serveStall hpos⟩
  recorded := h.recorded

/-- A move marks ID just if it begins a stall, since no mark was left. -/
theorem marked_moveOn (hlength : ∀ producer, 0 < config.stallCycles producer)
    (hzero : s.stallCounter = 0) (h : Stalling config program s) (stage : Stage) :
    ((s.moveOn config program).2.pipeline.slot stage).stalled = true ↔
      stage = .decode ∧ 0 < (s.moveOn config program).2.stallCounter := by
  have hbegins : (s.moveOn config program).1.needsStall = true ↔
      0 < (s.moveOn config program).2.stallCounter := by
    constructor
    · intro hstall
      obtain ⟨_, writer, _, hcounter, _⟩ := State.serves_moveOn hstall
      rw [hcounter]
      exact hlength writer
    · intro hpos
      rw [State.stallCounter_moveOn, hzero] at hpos
      cases hh : (s.moveOn config program).1 with
      | stall _ _ _ => rfl
      | _ =>
        rw [hh] at hpos
        cases hpos
  rw [State.stalled_moveOn]
  cases stage with
  | decode =>
    dsimp only
    rw [h.unmarked hzero .decode, Bool.or_false, hbegins]
    exact (and_iff_right rfl).symm
  | fetch => simp
  | execute => simp [h.unmarked hzero .execute]
  | memory => simp [h.unmarked hzero .memory]
  | writeBack => simp [h.unmarked hzero .writeBack]

theorem moveOn (hlength : ∀ producer, 0 < config.stallCycles producer)
    (hzero : s.stallCounter = 0) (h : Stalling config program s) :
    Stalling config program (s.moveOn config program).2 where
  marked := h.marked_moveOn hlength hzero
  serving := by
    intro hpos
    have hstall : (s.moveOn config program).1.needsStall = true := by
      have hdecode := (h.marked_moveOn hlength hzero .decode).mpr ⟨rfl, hpos⟩
      rw [State.stalled_moveOn] at hdecode
      dsimp only at hdecode
      rwa [h.unmarked hzero .decode, Bool.or_false] at hdecode
    obtain ⟨e, _, hevents, _, hserves⟩ := State.serves_moveOn hstall
    exact ⟨e, by rw [hevents, List.getLast?_concat], hserves⟩
  recorded := by
    intro x hx
    rw [State.trace_moveOn] at hx
    rcases List.mem_append.mp hx with hold | hnew
    · exact h.recorded x hold
    · obtain rfl := List.mem_singleton.mp hnew
      exact ⟨hzero, h.unmarked hzero⟩

end Stalling

theorem History.stalling {config : Config} {program : Program} {turns : List Turn} {s : State}
    (hlength : ∀ producer, 0 < config.stallCycles producer)
    (h : History config program turns s) : Stalling config program s := by
  refine h.preserves (.initial config program) ?_ (fun _ hpos hs => hs.serveStall hpos)
    (fun _ hzero hs => hs.moveOn hlength hzero)
  intro s next hs
  refine ⟨hs.marked, fun hpos => ?_, hs.recorded⟩
  obtain ⟨e, hlast, hserves⟩ := hs.serving hpos
  exact ⟨e, hlast, ⟨hserves.vacant, hserves.reader, hserves.tagged, hserves.writer,
    hserves.left_le, hserves.elapsed⟩⟩

namespace Simulator

/-- Under a valid configuration, whatever is done to a simulator, ID is marked just while a stall is
being served, and no other stage ever is. The stall is the one logged last. No stall is under way
where a move is recorded. -/
theorem stall_bookkeeping {requested config : Config} (hvalid : requested.validated = .ok config)
    (program : Program) (actions : List Action) :
    let s := ofActions config program actions
    (∀ stage, (s.state.pipeline.slot stage).stalled = true ↔
        stage = .decode ∧ 0 < s.state.stallCounter) ∧
      (0 < s.state.stallCounter →
        ∃ e, s.state.events.getLast? = some e ∧ s.state.Serves config s.program e) ∧
      ∀ x ∈ s.state.trace,
        x.stallCounter = 0 ∧ ∀ stage, (x.pipeline.slot stage).stalled = false := by
  intro s
  have hlength : ∀ producer, 0 < config.stallCycles producer := Config.stallCycles_pos hvalid
  have h : Stalling config s.program s.state :=
    (history_ofActions config program actions).stalling hlength
  exact ⟨h.marked, h.serving, h.recorded⟩

/-- The run is paused and started again within the stall that an ADD waits for a LW. -/
theorem stall_bookkeeping_across_pause :
    let actions : List Action :=
      [.start, .advance, .advance, .advance, .pause, .start, .fire, .deliver 2]
    let s := ofActions .standard .chain actions
    Config.standard.validated = .ok .standard ∧ s.state.stallCounter = 1 ∧
      (s.state.pipeline.slot .decode).stalled = true ∧
      (s.state.pipeline.slot .execute).stalled = false ∧ s.state.trace.length = 3 ∧
      (∀ x ∈ s.state.trace, x.stallCounter = 0) ∧
      s.state.events.getLast? = some (.stalled 2 1 2) ∧
      s.state.Serves .standard s.program (.stalled 2 1 2) := by
  intro actions s
  have hvalid : Config.standard.validated = .ok .standard := rfl
  have hcounter : s.state.stallCounter = 1 := by decide +kernel
  have hlast : s.state.events.getLast? = some (.stalled 2 1 2) := by decide +kernel
  obtain ⟨hmarked, hserving, hrecorded⟩ := stall_bookkeeping hvalid .chain actions
  obtain ⟨e, he, hserves⟩ := hserving (by rw [hcounter]; decide)
  obtain rfl := Option.some.inj (he.symm.trans hlast)
  refine ⟨hvalid, hcounter, (hmarked .decode).mpr ⟨rfl, by rw [hcounter]; decide⟩, ?_, ?_, ?_,
    hlast, hserves⟩
  · rw [Bool.eq_false_iff]
    intro hother
    cases ((hmarked .execute).mp hother).1
  · decide +kernel
  · exact fun x hx => (hrecorded x hx).1

end Simulator

end FiveStage
