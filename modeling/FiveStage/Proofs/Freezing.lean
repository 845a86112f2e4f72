import Mathlib.Data.List.Chain
import FiveStage.Proofs.Completion
import FiveStage.Proofs.Stalling

/-!
# The frozen pipe

A move that has to wait for an instruction in EX begins a stall. The turns after it serve the stall,
one cycle each, and nothing else changes, whatever is done between them. The turn that follows moves
the instructions on. It checks nothing: the instruction that waited has left ID, and none came after
it.
-/
namespace FiveStage

/-- The same state with another status. -/
def State.withStatus (s : State) (status : Status) : State := { s with status }

/-- The second turn begins in the state that the first one ended in, up to the status. -/
def Turn.Leads (x y : Turn) : Prop := ∃ status, y.before = x.after.withStatus status

namespace State

/-- The reader waits in ID for the producer in EX, and nothing was fetched after it. -/
structure Waits (s : State) (reader producer : InstructionId) : Prop where
  vacant : s.pipeline.occupant .fetch = none
  reader : s.pipeline.occupant .decode = some reader
  tagged : (s.pipeline.slot .decode).tag = some .stall
  producer : s.pipeline.occupant .execute = some producer

/-- So many stall cycles later: time has passed, and nothing else has changed. -/
structure Frozen (s : State) (cycles : Nat) (t : State) : Prop where
  cycle : t.cycle = s.cycle + cycles
  left : t.stallCounter + cycles = s.stallCounter
  occupant : ∀ stage, t.pipeline.occupant stage = s.pipeline.occupant stage
  tag : ∀ stage, (t.pipeline.slot stage).tag = (s.pipeline.slot stage).tag
  fetched : t.fetched = s.fetched
  events : t.events = s.events
  trace : t.trace = s.trace

/-- The reader has moved on behind the producer, and what was withheld is fetched. -/
structure Thaws (program : Program) (s : State) (reader producer : InstructionId) (t : State) :
    Prop where
  reader : t.pipeline.occupant .execute = some reader
  tagged : (t.pipeline.slot .execute).tag = some .stall
  producer : t.pipeline.occupant .memory = some producer
  incoming : t.pipeline.occupant .fetch = program.ids[s.fetched]?
  fetched : t.fetched = s.fetched + program.ids[s.fetched]?.toList.length
  events : t.events = s.events

variable {config : Config} {program : Program} {s t : State} {reader producer : InstructionId}
  {cycles : Nat}

theorem Frozen.refl (s : State) : s.Frozen 0 s where
  cycle := rfl
  left := rfl
  occupant := fun _ => rfl
  tag := fun _ => rfl
  fetched := rfl
  events := rfl
  trace := rfl

theorem Frozen.withStatus (h : s.Frozen cycles t) (status : Status) :
    s.Frozen cycles (t.withStatus status) :=
  ⟨h.cycle, h.left, h.occupant, h.tag, h.fetched, h.events, h.trace⟩

theorem Frozen.before {x y : Turn} (h : s.Frozen cycles x.after) (hleads : x.Leads y) :
    s.Frozen cycles y.before := by
  obtain ⟨status, hbefore⟩ := hleads
  rw [hbefore]
  exact h.withStatus status

/-- A cycle served touches nothing but the time and what is left of the stall. -/
theorem Frozen.serveStall (h : s.Frozen cycles t) (hpos : 0 < t.stallCounter) :
    s.Frozen (cycles + 1) t.serveStall.2 where
  cycle := congrArg (· + 1) h.cycle
  left := by
    have hcounter : t.serveStall.2.stallCounter = t.stallCounter - 1 := rfl
    have hleft := h.left
    omega
  occupant := fun stage => (occupant_serveStall t stage).trans (h.occupant stage)
  tag := fun stage => (tag_serveStall t stage).trans (h.tag stage)
  fetched := h.fetched
  events := h.events
  trace := h.trace

theorem Waits.frozen (h : s.Waits reader producer) (hfrozen : s.Frozen cycles t) :
    t.Waits reader producer where
  vacant := (hfrozen.occupant .fetch).trans h.vacant
  reader := (hfrozen.occupant .decode).trans h.reader
  tagged := (hfrozen.tag .decode).trans h.tagged
  producer := (hfrozen.occupant .execute).trans h.producer

/-- A move that finds a stall withholds the fetch, and all of the stall is left. -/
theorem waits_moveOn {stage : Stage}
    (h : (s.moveOn config program).1 = .stall producer stage cycles) :
    (∃ reader, (s.moveOn config program).2.Waits reader producer) ∧
      (s.moveOn config program).2.stallCounter = cycles ∧
      (s.moveOn config program).2.fetched = s.fetched := by
  obtain ⟨e, _, hevents, _, hserves⟩ := serves_moveOn (by rw [h]; rfl)
  have hproducer : e.producer = producer := by
    rw [events_moveOn, h] at hevents
    have hin : e ∈ newEvents s.cycle s.pipeline.fetch.instruction
        (.stall producer stage cycles) := by
      rw [List.append_cancel_left hevents]
      exact List.mem_singleton_self e
    obtain ⟨_, _, rfl⟩ := List.mem_map.mp hin
    rfl
  have hincoming : s.incoming config program = none := by
    rw [incoming, h]
    rfl
  refine ⟨⟨e.instruction, hserves.vacant, hserves.reader, hserves.tagged, ?_⟩, ?_, ?_⟩
  · rw [hserves.writer, hproducer]
  · rw [stallCounter_moveOn, h]
    rfl
  · rw [fetched_moveOn_eq, hincoming]
    rfl

/-- Nothing comes into ID behind an instruction that waited, so the move after the stall finds no
hazard, and the producer keeps the pipe busy. -/
theorem Waits.cycled {outcome : Outcome} (h : s.Waits reader producer) (hzero : s.stallCounter = 0)
    (hcycled : s.Cycled config program outcome t) :
    outcome = .advanced s.pipeline.writeBack.instruction .clear ∧
      s.Thaws program reader producer t := by
  have hclear : (s.moveOn config program).1 = .clear := Pipeline.hazard_of_vacant _ _ h.vacant
  have hincoming : s.incoming config program = program.ids[s.fetched]? := by
    rw [incoming, hclear]
    rfl
  have hproducer : (s.moveOn config program).2.pipeline.occupant .memory = some producer := by
    rw [occupant_moveOn]
    exact h.producer
  cases hcycled with
  | served hpos => omega
  | finished _ hdone =>
    have hempty := (Pipeline.inFlight_eq_nil_iff _).mp ((isDone_iff _ _).mp hdone).2
    rw [(Pipeline.isEmpty_iff_occupant _).mp hempty .memory] at hproducer
    cases hproducer
  | moved _ _ =>
    refine ⟨by rw [hclear], ?_⟩
    constructor
    case reader => rw [occupant_moveOn]; exact h.reader
    case tagged => rw [tag_moveOn]; exact h.tagged
    case producer => exact hproducer
    case incoming => rw [occupant_moveOn, hincoming]
    case fetched => rw [fetched_moveOn_eq, hincoming]
    case events => rw [events_moveOn, hclear]; exact List.append_nil _

end State

namespace History

variable {config : Config} {program : Program} {turns : List Turn} {s : State}

/-- Between two turns only the status changes, and after the last one as well. -/
theorem linked (h : History config program turns s) :
    turns.IsChain Turn.Leads ∧
      ∀ x ∈ turns.getLast?, ∃ status, s = x.after.withStatus status := by
  induction h with
  | initial => exact ⟨.nil, fun _ hx => nomatch hx⟩
  | @move turns s t next h _ hmove ih =>
    refine ⟨ih.1, fun x hx => ⟨next, ?_⟩⟩
    obtain ⟨_, hs⟩ := ih.2 x hx
    rw [eq_of_moveTo hmove, hs]
    rfl
  | @turn turns s t outcome h _ _ ih =>
    refine ⟨ih.1.append (.singleton _) ?_, ?_⟩
    · rintro x hx y ⟨⟩
      exact ih.2 x hx
    · intro x hx
      rw [List.getLast?_concat] at hx
      obtain rfl := Option.some.inj hx
      exact ⟨t.status, rfl⟩

theorem leads (h : History config program turns s) {place : Nat} {x y : Turn}
    (hx : turns[place]? = some x) (hy : turns[place + 1]? = some y) : x.Leads y := by
  obtain ⟨hlt, rfl⟩ := List.getElem?_eq_some_iff.mp hy
  obtain ⟨_, rfl⟩ := List.getElem?_eq_some_iff.mp hx
  exact List.isChain_iff_getElem.mp h.linked.1 place hlt

theorem not_idle (h : History config program turns s) (hne : turns ≠ []) : s.status ≠ .idle := by
  have hactive {s : State} (hs : s.Active) : s.status ≠ .idle := by
    rcases hs with hs | hs <;> rw [hs] <;> decide
  cases h with
  | initial => exact absurd rfl hne
  | @move _ s _ next _ _ hmove =>
    intro hidle
    rw [eq_of_moveTo hmove] at hidle
    obtain rfl : next = .idle := hidle
    have hno : s.status.canMoveTo .idle = false := by cases s.status <;> rfl
    simp [State.moveTo?, hno] at hmove
  | turn _ hs hcycled =>
    cases hcycled with
    | served _ => exact hactive hs
    | moved _ _ => exact hactive hs
    | finished _ _ =>
      intro hidle
      cases hidle

/-- The turns that follow on one serve the stall that it left, and freeze all else. The induction is
on the cycles served: while one is left, the next turn can only serve it. -/
theorem frozen (h : History config program turns s) {place : Nat} {x : Turn}
    (hx : turns[place]? = some x) {served : Nat} (hserved : served ≤ x.after.stallCounter)
    {y : Turn} (hy : turns[place + served]? = some y) : x.after.Frozen served y.after ∧
      (0 < served → y.outcome = .stalled (x.after.stallCounter - served)) := by
  induction served generalizing y with
  | zero =>
    obtain rfl := Option.some.inj (hx.symm.trans hy)
    exact ⟨.refl _, nofun⟩
  | succ served ih =>
    obtain ⟨hlt, _⟩ := List.getElem?_eq_some_iff.mp hy
    have hz := List.getElem?_eq_getElem (Nat.lt_of_succ_lt hlt)
    obtain ⟨hfrozen, _⟩ := ih (Nat.le_of_succ_le hserved) hz
    have hstart := hfrozen.before (h.leads hz hy)
    have hleft := hstart.left
    obtain ⟨_, _, _, hcycled⟩ := h.of_mem_turns (List.mem_of_getElem? hy)
    generalize y.outcome = outcome, y.after = after at hcycled
    cases hcycled with
    | served hpos => exact ⟨hstart.serveStall hpos, fun _ => congrArg Outcome.stalled (by omega)⟩
    | moved hzero _ => omega
    | finished hzero _ => omega

/-- Once the stall is served the next turn moves the instructions on. -/
theorem thaws (h : History config program turns s) {place : Nat} {x : Turn}
    {reader producer : InstructionId} (hx : turns[place]? = some x)
    (hwaits : x.after.Waits reader producer) {y : Turn}
    (hy : turns[place + x.after.stallCounter + 1]? = some y) :
    (∃ retired, y.outcome = .advanced retired .clear) ∧
      x.after.Thaws program reader producer y.after := by
  obtain ⟨hlt, _⟩ := List.getElem?_eq_some_iff.mp hy
  have hz := List.getElem?_eq_getElem (Nat.lt_of_succ_lt hlt)
  obtain ⟨hfrozen, _⟩ := h.frozen hx (Nat.le_refl _) hz
  have hstart := hfrozen.before (h.leads hz hy)
  have hzero : y.before.stallCounter = 0 := Nat.add_eq_right.mp hstart.left
  obtain ⟨_, _, _, hcycled⟩ := h.of_mem_turns (List.mem_of_getElem? hy)
  obtain ⟨houtcome, hthaws⟩ := (hwaits.frozen hstart).cycled hzero hcycled
  refine ⟨⟨_, houtcome⟩, hthaws.reader, hthaws.tagged, hthaws.producer, ?_, ?_, ?_⟩
  · rw [hthaws.incoming, hstart.fetched]
  · rw [hthaws.fetched, hstart.fetched]
  · rw [hthaws.events, hstart.events]

/-- A stall that is under way does not end a run. -/
theorem active_of_stalling (h : History config program turns s) {place : Nat} {x : Turn}
    (hx : turns[place]? = some x) (hx_moved : x.outcome ≠ .completed)
    (hshort : turns.length ≤ place + x.after.stallCounter + 1) : s.Active := by
  have hidle := h.not_idle (List.ne_nil_of_mem (List.mem_of_getElem? hx))
  have hcomplete : s.status ≠ .complete := by
    intro hs
    obtain ⟨earlier, u, _, _, rfl, _⟩ := h.completed hs
    obtain ⟨hlt, _⟩ := List.getElem?_eq_some_iff.mp hx
    rw [List.length_append, List.length_singleton] at hshort hlt
    obtain ⟨served, hserved⟩ := Nat.exists_eq_add_of_le (Nat.le_of_lt_succ hlt)
    have hlast : (earlier ++ [⟨u, .completed, s⟩])[place + served]? = some ⟨u, .completed, s⟩ := by
      rw [← hserved, List.getElem?_concat_length]
    cases served with
    | zero =>
      obtain rfl := Option.some.inj (hx.symm.trans hlast)
      exact hx_moved rfl
    | succ served => cases (h.frozen hx (by omega) hlast).2 (Nat.succ_pos served)
  cases hs : s.status with
  | idle => exact absurd hs hidle
  | running => exact .inl hs
  | paused => exact .inr hs
  | complete => exact absurd hs hcomplete

end History

namespace Simulator

/-- Whatever is done to a simulator, a cycle that begins a stall fetches nothing and leaves the
reader in ID behind its producer in EX. The turns after it, so many as the stall is long, count it
down to zero and change nothing but the time. The turn after those moves the reader on to EX and the
producer to MEM, finds no hazard, logs none, and fetches what was withheld. Until then the
simulation is running or paused, so that no cycle is ignored. -/
theorem stall_freezes_pipe (config : Config) (program : Program) (actions : List Action)
    {place : Nat} {x : Turn} {retired : Option InstructionId} {producer : InstructionId}
    {stage : Stage} {cycles : Nat} (hx : (turnsOf config program actions)[place]? = some x)
    (hstall : x.outcome = .advanced retired (.stall producer stage cycles)) :
    let s := ofActions config program actions
    let turns := turnsOf config program actions
    x.after.fetched = x.before.fetched ∧ x.after.pipeline.occupant .fetch = none ∧
      (∀ k < cycles, ∀ y, turns[place + 1 + k]? = some y →
        y.outcome = .stalled (cycles - 1 - k) ∧ x.after.Frozen (k + 1) y.after) ∧
      (∃ reader, x.after.Waits reader producer ∧
        ∀ y, turns[place + 1 + cycles]? = some y →
          (∃ retired, y.outcome = .advanced retired .clear) ∧
            x.after.Thaws s.program reader producer y.after) ∧
      (turns.length ≤ place + 1 + cycles → s.state.Active) := by
  intro s turns
  have h : History config s.program turns s.state := history_ofActions config program actions
  obtain ⟨_, _, _, hcycled⟩ := h.of_mem_turns (List.mem_of_getElem? hx)
  obtain ⟨_, _, hhazard, hafter⟩ := hcycled.of_advanced hstall
  obtain ⟨⟨reader, hwaits⟩, hleft, hfetched⟩ := State.waits_moveOn hhazard.symm
  rw [← hafter] at hwaits hleft hfetched
  refine ⟨hfetched, hwaits.vacant, ?_, ⟨reader, hwaits, ?_⟩, ?_⟩
  · intro k hk y hy
    have hplace : place + 1 + k = place + (k + 1) := by omega
    rw [hplace] at hy
    obtain ⟨hfrozen, houtcome⟩ := h.frozen hx (hleft ▸ hk) hy
    refine ⟨?_, hfrozen⟩
    rw [houtcome (Nat.succ_pos k), hleft]
    exact congrArg Outcome.stalled (by omega)
  · intro y hy
    rw [Nat.add_right_comm, ← hleft] at hy
    exact h.thaws hx hwaits hy
  · intro hshort
    rw [Nat.add_right_comm, ← hleft] at hshort
    exact h.active_of_stalling hx (by rw [hstall]; exact nofun) hshort

/-- The stall that an ADD waits for a LW, served by a tick and a step with a pause and a start
between them, and ended by a cycle by hand. -/
theorem stall_freezes_pipe_across_pause :
    let actions : List Action := [.start, .advance, .advance, .advance, .pause, .start, .fire,
      .deliver 2, .pause, .step, .advance]
    let s := ofActions .standard .chain actions
    ∃ x y z, (turnsOf .standard .chain actions)[2]? = some x ∧
      x.outcome = .advanced none (.stall 1 .execute 2) ∧
      (turnsOf .standard .chain actions)[3]? = some y ∧ y.outcome = .stalled 1 ∧
      x.after.Frozen 1 y.after ∧
      (turnsOf .standard .chain actions)[5]? = some z ∧
      x.after.Thaws s.program 2 1 z.after := by
  intro actions s
  have houtcome : ((turnsOf .standard .chain actions)[2]?).map Turn.outcome =
      some (.advanced none (.stall 1 .execute 2)) := by decide +kernel
  obtain ⟨x, hx, hstall⟩ := Option.map_eq_some_iff.mp houtcome
  have hlength : (turnsOf .standard .chain actions).length = 6 := by decide +kernel
  have hy := List.getElem?_eq_getElem (Nat.lt_of_lt_of_eq (by decide : 3 < 6) hlength.symm)
  have hz := List.getElem?_eq_getElem (Nat.lt_of_lt_of_eq (by decide : 5 < 6) hlength.symm)
  obtain ⟨_, _, hserved, ⟨reader, hwaits, hthaws⟩, _⟩ :=
    stall_freezes_pipe .standard .chain actions hx hstall
  obtain ⟨hstalled, hfrozen⟩ := hserved 0 (by decide) _ hy
  have hreader : ((turnsOf .standard .chain actions)[2]?).map
      (fun t => t.after.pipeline.occupant .decode) = some (some 2) := by decide +kernel
  rw [hx, Option.map_some, hwaits.reader] at hreader
  obtain rfl := Option.some.inj (Option.some.inj hreader)
  exact ⟨x, _, _, hx, hstall, hy, hstalled, hfrozen, hz, (hthaws _ hz).2⟩

end Simulator

end FiveStage
