import FiveStage.Simulator.Work
import FiveStage.Simulator.Basic
import FiveStage.Tick.TimerPool

/-!
# Sessions

A simulator whose ticks are sent by timers, with the pace of those timers. Any steps of timers may
happen before a call, and the timing says which: nothing a session shows may depend on it. An
automatic run takes one tick after the other until it is complete, paused or out of ticks.
-/
namespace FiveStage

/-- The steps of timers before each call, by the number of the call. -/
abbrev Timing := Nat → List TimerStep

structure Session where
  simulator : Simulator TimerPool
  timing : Timing
  /-- The number of calls made so far. -/
  calls : Nat := 0

namespace Session

def status (s : Session) : Status := s.simulator.state.status

/-- Lets the timers take their steps up to the next call. -/
def elapse (s : Session) : Session :=
  { s with
    simulator.ticks := s.simulator.ticks.steps (s.timing s.calls)
    calls := s.calls + 1 }

/-- Calls an operation of the simulator. -/
def call {α : Type} (s : Session) (operation : Simulator TimerPool → α × Simulator TimerPool) :
    α × Session :=
  let s := s.elapse
  let (answer, simulator) := operation s.simulator
  (answer, { s with simulator })

def observe (s : Session) : Session := (s.call Simulator.observe).2

def start (s : Session) : Bool × Session := s.call Simulator.start

def pause (s : Session) : Session := (s.call fun simulator => ((), simulator.pause)).2

def step (s : Session) : Outcome × Session := s.call Simulator.step

def reset (s : Session) : Session := (s.call fun simulator => ((), simulator.reset)).2

def load (s : Session) (source : String) : Except LoadError Nat × Session :=
  s.call fun simulator => simulator.load source

/-- Waits for a tick, and answers none when nothing is scheduled. -/
def await (s : Session) : Option TickHandle × Session :=
  s.call fun simulator =>
    let (handle, ticks) := simulator.ticks.await
    (handle, { simulator with ticks })

def onTick (s : Session) (handle : TickHandle) : Outcome × Session :=
  s.call fun simulator => simulator.onTick handle

/-- Waits for a tick and takes it. -/
def tick (s : Session) : Option Outcome × Session :=
  match s.await with
  | (none, s) => (none, s)
  | (some handle, s) =>
    let (outcome, s) := s.onTick handle
    (some outcome, s)

/-- Halts a run that has used up its limit with the cycle just taken. -/
def haltAt (limit : Option Nat) (s : Session) : Session :=
  if limit.any (· ≤ 1) then s.pause else s

/-- Takes so many ticks at most, as long as the run goes on. -/
def runFor : Nat → Option Nat → Session → List (Simulator TimerPool) × Session
  | 0, _, s => ([], s)
  | ticks + 1, limit, s =>
    if s.status = .running then
      match s.tick with
      | (none, s) => ([], s)
      | (some .ignored, s) => runFor ticks limit s
      | (some _, s) =>
        let (later, last) := runFor ticks (limit.map (· - 1)) (s.haltAt limit)
        (s.simulator :: later, last)
    else ([], s)

/-- The ticks a run can take: stale ones that are live, and one for each cycle of work left. -/
def ticksLeft (s : Session) : Nat :=
  s.simulator.state.work s.simulator.config s.simulator.program + s.simulator.ticks.pending

/-- Takes ticks while the run goes on, and pauses it when a limit is reached. The limit is looked
at after a cycle, so that a limit of zero still takes one. Answers the simulator as it was after
each cycle. -/
def run (limit : Option Nat) (s : Session) : List (Simulator TimerPool) × Session :=
  runFor s.ticksLeft limit s

end Session

end FiveStage
