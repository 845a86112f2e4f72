/-!
# Tick sources

An automatic run asks for one tick at a time. The source answers with a handle, and later the host
hands the handle back. A source keeps the promise that a handle it issued is not delivered once it
is cancelled.
-/
namespace FiveStage

/-- Handles count from 1 for each source. -/
abbrev TickHandle := Nat

class TickSource (σ : Type) where
  /-- Asks for one tick after so many milliseconds. -/
  schedule : σ → Nat → TickHandle × σ
  /-- Drops a tick. A handle that is unknown or delivered is ignored. -/
  cancel : σ → TickHandle → σ

end FiveStage
