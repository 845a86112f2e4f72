import FiveStage.Tick.Source

/-!
# Ticks fired by the host

A queue of handles in the order they were scheduled. The host fires the oldest. Delays play no
part, as time passes only when the host says so.
-/
namespace FiveStage

structure TickQueue where
  issued : Nat := 0
  waiting : List TickHandle := []
  deriving DecidableEq, Repr

namespace TickQueue

def schedule (q : TickQueue) : TickHandle × TickQueue :=
  (q.issued + 1, { issued := q.issued + 1, waiting := q.waiting ++ [q.issued + 1] })

def cancel (q : TickQueue) (handle : TickHandle) : TickQueue :=
  { q with waiting := q.waiting.filter (· != handle) }

/-- Takes the oldest handle, if there is one. -/
def fire (q : TickQueue) : Option TickHandle × TickQueue :=
  (q.waiting.head?, { q with waiting := q.waiting.tail })

def pending (q : TickQueue) : Nat := q.waiting.length

instance : TickSource TickQueue where
  schedule q _ := q.schedule
  cancel := cancel

theorem not_mem_cancel (q : TickQueue) (handle : TickHandle) :
    handle ∉ (q.cancel handle).waiting := by
  simp [cancel]

end TickQueue

end FiveStage
