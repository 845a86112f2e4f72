import FiveStage.Simulator.Basic
import FiveStage.Tick.Queue

/-!
# Runs by hand

Everything that can be done to a simulator whose ticks the host fires: the operations of the
simulator, and what the host does to the queue on its own. A run is a list of such actions with
the answers they gave.
-/
namespace FiveStage

inductive Action
  | start | pause | step | advance
  /-- Delivers a handle, whether it was fired or not. -/
  | deliver (handle : TickHandle)
  | init | reset
  | load (source : String)
  | observe
  /-- The host schedules a tick for itself. -/
  | schedule
  /-- The host cancels a handle behind the simulator's back. -/
  | cancel (handle : TickHandle)
  /-- The host takes the oldest handle off the queue. -/
  | fire
  deriving DecidableEq, Repr

inductive Answer
  | done
  | started (accepted : Bool)
  | outcome (outcome : Outcome)
  | loaded (result : Except LoadError Nat)
  | observer (number : Nat)
  | handle (handle : Option TickHandle)

namespace Simulator

def perform (s : Simulator TickQueue) : Action → Answer × Simulator TickQueue
  | .start => (.started s.start.1, s.start.2)
  | .pause => (.done, s.pause)
  | .step => (.outcome s.step.1, s.step.2)
  | .advance => (.outcome s.advance.1, s.advance.2)
  | .deliver handle => (.outcome (s.onTick handle).1, (s.onTick handle).2)
  | .init => (.done, s.init)
  | .reset => (.done, s.reset)
  | .load source => (.loaded (s.load source).1, (s.load source).2)
  | .observe => (.observer s.observe.1, s.observe.2)
  | .schedule => (.handle (some s.ticks.schedule.1), { s with ticks := s.ticks.schedule.2 })
  | .cancel handle => (.done, { s with ticks := s.ticks.cancel handle })
  | .fire => (.handle s.ticks.fire.1, { s with ticks := s.ticks.fire.2 })

/-- Performs the actions one after the other. -/
def performAll (s : Simulator TickQueue) : List Action → List Answer × Simulator TickQueue
  | [] => ([], s)
  | action :: rest =>
    let (answer, next) := s.perform action
    let (answers, last) := next.performAll rest
    (answer :: answers, last)

/-- Fires the oldest tick and delivers it. -/
def tick (s : Simulator TickQueue) : Option (TickHandle × Outcome) × Simulator TickQueue :=
  match s.ticks.fire with
  | (none, _) => (none, s)
  | (some handle, ticks) =>
    let (outcome, next) := { s with ticks }.onTick handle
    (some (handle, outcome), next)

/-- Ticks so many times at most, as long as there is a tick to fire. -/
def tickMany : Nat → Simulator TickQueue → List Outcome × Simulator TickQueue
  | 0, s => ([], s)
  | n + 1, s =>
    match s.tick with
    | (none, s) => ([], s)
    | (some (_, outcome), s) =>
      let (outcomes, last) := tickMany n s
      (outcome :: outcomes, last)

theorem performAll_append (s : Simulator TickQueue) (first second : List Action) :
    s.performAll (first ++ second) =
      ((s.performAll first).1 ++ ((s.performAll first).2.performAll second).1,
       ((s.performAll first).2.performAll second).2) := by
  induction first generalizing s with
  | nil => rfl
  | cons action rest ih =>
    simp only [List.cons_append, performAll]
    rw [ih]

end Simulator

end FiveStage
