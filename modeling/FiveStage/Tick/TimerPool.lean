import FiveStage.Tick.Source

/-!
# Ticks sent by timers

Each tick has a timer of its own that sleeps, then checks whether it was cancelled, and then sends
its handle over a channel. Timers go their own pace, so a handle may be cancelled after its timer
has checked or even sent. The receiver therefore keeps the handles that are live, and drops every
other one it reads. The steps of timers are explicit here, in any order; `await` adds only that a
timer which is waited for finishes at some time.
-/
namespace FiveStage

/-- A timer that has not sent its handle yet. -/
structure Timer where
  handle : TickHandle
  /-- Milliseconds to sleep. -/
  delay : Nat
  cancelled : Bool := false
  /-- It woke up and saw that it was not cancelled. -/
  checked : Bool := false
  deriving DecidableEq, Repr

/-- What a timer does next. -/
inductive TimerStep
  | check (handle : TickHandle)
  | send (handle : TickHandle)
  deriving DecidableEq, Repr

structure TimerPool where
  issued : Nat := 0
  /-- Handles scheduled and neither cancelled nor delivered. -/
  live : List TickHandle := []
  timers : List Timer := []
  /-- Handles sent and not read. -/
  channel : List TickHandle := []
  deriving DecidableEq, Repr

/-- What a reader finds. -/
inductive Delivery
  | tick (handle : TickHandle)
  /-- Nothing is scheduled. -/
  | nothing
  /-- Something is scheduled and has not been sent. -/
  | blocked
  deriving DecidableEq, Repr

namespace Timer

def markCancelled (handle : TickHandle) (t : Timer) : Timer :=
  if t.handle = handle then { t with cancelled := true } else t

/-- A cancelled timer ends when it checks. -/
def afterCheck (handle : TickHandle) (t : Timer) : Option Timer :=
  if t.handle = handle ∧ t.checked = false then
    if t.cancelled then none else some { t with checked := true }
  else some t

def isSending (handle : TickHandle) (t : Timer) : Bool := t.handle == handle && t.checked

/-- The one that wakes up earlier, the older of two that sleep as long. -/
def earlier (a b : Timer) : Timer := if b.delay < a.delay then b else a

end Timer

namespace TimerPool

def schedule (p : TimerPool) (delay : Nat) : TickHandle × TimerPool :=
  let handle := p.issued + 1
  (handle,
   { p with
     issued := handle
     live := p.live ++ [handle]
     timers := p.timers ++ [{ handle, delay }] })

def cancel (p : TimerPool) (handle : TickHandle) : TimerPool :=
  if handle ∈ p.live then
    { p with
      live := p.live.filter (· != handle)
      timers := p.timers.map (Timer.markCancelled handle) }
  else p

def pending (p : TimerPool) : Nat := p.live.length

/-- One step of one timer. A step that no timer can take changes nothing. -/
def step (p : TimerPool) : TimerStep → TimerPool
  | .check handle => { p with timers := p.timers.filterMap (Timer.afterCheck handle) }
  | .send handle =>
    { p with
      timers := p.timers.filter fun t => !t.isSending handle
      channel := p.channel ++ if p.timers.any (Timer.isSending handle) then [handle] else [] }

def steps (p : TimerPool) (moves : List TimerStep) : TimerPool := moves.foldl step p

/-- Reads the channel up to the first live handle. The ones before it are stale and dropped. -/
def receive (p : TimerPool) : Delivery × TimerPool :=
  if p.live.isEmpty then (.nothing, p)
  else
    match p.channel.dropWhile fun handle => !p.live.contains handle with
    | [] => (.blocked, { p with channel := [] })
    | handle :: rest =>
      (.tick handle, { p with live := p.live.filter (· != handle), channel := rest })

/-- Lets a timer do all it has left to do. -/
def finish (p : TimerPool) (handle : TickHandle) : TimerPool :=
  p.steps [.check handle, .send handle]

/-- The live timer that finishes first when nothing else moves. -/
def earliest? (p : TimerPool) : Option Timer :=
  match p.timers.filter fun t => p.live.contains t.handle with
  | [] => none
  | t :: rest => some (rest.foldl Timer.earlier t)

/-- Waits for the next live handle, and answers none when nothing is scheduled. -/
def await (p : TimerPool) : Option TickHandle × TimerPool :=
  match p.receive with
  | (.tick handle, p) => (some handle, p)
  | (.nothing, p) => (none, p)
  | (.blocked, p) =>
    match p.earliest? with
    | none => (none, p)
    | some t =>
      match (p.finish t.handle).receive with
      | (.tick handle, p) => (some handle, p)
      | (_, p) => (none, p)

/-- Lets all timers finish that sleep no longer than this. -/
def settle (p : TimerPool) (longest : Nat) : TimerPool :=
  (p.timers.filter fun t => t.delay ≤ longest).foldl (fun p t => p.finish t.handle) p

/-- Waits so many times at most, and answers the handles in the order they came. -/
def awaitMany : Nat → TimerPool → List TickHandle × TimerPool
  | 0, p => ([], p)
  | n + 1, p =>
    match p.await with
    | (none, p) => ([], p)
    | (some handle, p) =>
      let (handles, p) := awaitMany n p
      (handle :: handles, p)

/-- Waits until nothing is scheduled. -/
def drain (p : TimerPool) : List TickHandle × TimerPool := awaitMany p.pending p

instance : TickSource TimerPool where
  schedule := schedule
  cancel := cancel

end TimerPool

end FiveStage
