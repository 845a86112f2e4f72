import FiveStage.Proofs.History

/-!
# Completion

A state that is complete has everything fetched and nothing in the pipe. Of a program with
instructions the converse holds as well, since the cycle that empties the pipe is the one that
completes the state. So the completing cycle is the last turn of a history and the only one of its
kind.
-/
namespace FiveStage.History

variable {config : Config} {program : Program} {turns : List Turn} {s : State}

theorem fetched_le (h : History config program turns s) : s.fetched ≤ program.length :=
  h.preserves (Nat.zero_le _) (fun _ _ hs => hs) (fun _ _ hs => hs)
    (fun s _ hs => s.fetched_moveOn_le config program hs)

theorem not_complete_of_moveTo {s t : State} {next : Status} (h : s.moveTo? next = some t) :
    s.status ≠ .complete := by
  intro hs
  simp [State.moveTo?, hs, Status.canMoveTo] at h

/-- The last turn of a complete history is the one that completed it: a move out of a state that
was not complete. -/
theorem completed (h : History config program turns s) (hs : s.status = .complete) :
    ∃ earlier u, History config program earlier u ∧ u.status ≠ .complete ∧
      turns = earlier ++ [⟨u, .completed, s⟩] ∧ u.stallCounter = 0 ∧
      (u.moveOn config program).2.isDone program = true ∧
      s = { (u.moveOn config program).2 with status := .complete } := by
  cases h with
  | initial => cases hs
  | move next h hnext hmove =>
    rw [eq_of_moveTo hmove] at hs
    exact absurd hs hnext
  | @turn turns u _ outcome h hactive hcycled =>
    cases hcycled with
    | served hpos => exact absurd hs hactive.not_complete
    | moved hzero hdone => exact absurd hs hactive.not_complete
    | finished hzero hdone => exact ⟨turns, u, h, hactive.not_complete, rfl, hzero, hdone, rfl⟩

theorem not_completed (h : History config program turns s) (hs : s.status ≠ .complete) :
    ∀ t ∈ turns, t.outcome ≠ .completed := by
  induction h with
  | initial => intro t ht; cases ht
  | move next h hnext hmove ih => exact ih (not_complete_of_moveTo hmove)
  | turn h hactive hcycled ih =>
    intro t ht
    rcases List.mem_append.mp ht with hold | hnew
    · exact ih hactive.not_complete t hold
    · obtain rfl := List.mem_singleton.mp hnew
      intro houtcome
      cases hcycled with
      | served hpos => cases houtcome
      | moved hzero hdone => cases houtcome
      | finished hzero hdone => exact hs rfl

theorem isDone_of_complete (h : History config program turns s) (hs : s.status = .complete) :
    s.isDone program = true := by
  obtain ⟨_, _, _, _, _, _, hdone, rfl⟩ := h.completed hs
  exact hdone

/-- Nothing is left to serve once a state is complete: a stall would have kept the pipe busy. -/
theorem stallCounter_of_complete (h : History config program turns s) (hs : s.status = .complete) :
    s.stallCounter = 0 := by
  obtain ⟨_, u, _, _, _, hzero, hdone, rfl⟩ := h.completed hs
  have hempty := ((State.isDone_iff _ _).mp hdone).2
  have hvacant : u.pipeline.shift.decode.instruction = none := by
    have hall := (Pipeline.isEmpty_iff_occupant _).mp
      ((Pipeline.inFlight_eq_nil_iff _).mp hempty) .decode
    rw [State.occupant_moveOn] at hall
    exact hall
  show (u.moveOn config program).2.stallCounter = 0
  rw [State.stallCounter_moveOn, State.hazard_moveOn, Pipeline.hazard_of_vacant _ _ hvacant]
  exact hzero

/-- Before its completion a program with instructions has one that is not fetched or has not left
the pipe. -/
theorem not_isDone (hne : program ≠ []) (h : History config program turns s)
    (hs : s.status ≠ .complete) : s.isDone program = false := by
  induction h with
  | initial =>
    have hpos := List.length_pos_of_ne_nil hne
    have hlt : ¬ program.length ≤ State.initial.fetched := Nat.not_le_of_lt hpos
    simp only [State.isDone, hlt, decide_false, Bool.false_and]
  | move next h hnext hmove ih =>
    rw [eq_of_moveTo hmove]
    exact ih (not_complete_of_moveTo hmove)
  | @turn turns u _ outcome h hactive hcycled ih =>
    cases hcycled with
    | served hpos => exact (State.isDone_serveStall program u).trans (ih hactive.not_complete)
    | moved hzero hdone => exact hdone
    | finished hzero hdone => exact absurd rfl hs

end FiveStage.History
