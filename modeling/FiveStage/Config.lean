import FiveStage.Decimal.Shortest
import FiveStage.Isa.Opcode

/-!
# Configuration

The lengths of stalls, the width of the timeline, the pace of automatic runs and the baseline for
the speedup. A valid configuration has stalls of at least one cycle, at least one column and a
positive finite baseline.
-/
namespace FiveStage

structure Config where
  /-- Milliseconds between automatic cycles. -/
  cycleInterval : Nat := 1500
  /-- Stall cycles behind a word load. -/
  loadStall : Nat := 2
  /-- Stall cycles behind every other producer. -/
  defaultStall : Nat := 1
  /-- Columns of the timeline. -/
  timelineWidth : Nat := 15
  /-- Cycles per instruction of a machine without a pipeline. -/
  nonPipelinedCpi : Float := 5.0

inductive ConfigError
  | zeroStallCycles
  | zeroTimelineWidth
  | invalidCpi (cpi : Float)

def ConfigError.message : ConfigError → String
  | zeroStallCycles => "stall lengths must be at least one cycle"
  | zeroTimelineWidth => "timeline width must be at least one column"
  | invalidCpi cpi => "baseline CPI must be a positive number, got " ++ Decimal.shortest cpi

namespace Config

def standard : Config := {}

/-- Accepts a valid configuration as it is, and names the first fault of any other. -/
def validated (config : Config) : Except ConfigError Config :=
  if config.loadStall = 0 ∨ config.defaultStall = 0 then .error .zeroStallCycles
  else if config.timelineWidth = 0 then .error .zeroTimelineWidth
  else if !config.nonPipelinedCpi.isFinite || config.nonPipelinedCpi <= 0 then
    .error (.invalidCpi config.nonPipelinedCpi)
  else .ok config

/-- The stall behind a producer with the given opcode. -/
def stallCycles (config : Config) (producer : Opcode) : Nat :=
  if producer = .lw then config.loadStall else config.defaultStall

/-- The longest stall there can be. -/
def longestStall (config : Config) : Nat := max config.loadStall config.defaultStall

theorem stallCycles_le_longestStall (config : Config) (producer : Opcode) :
    config.stallCycles producer ≤ config.longestStall := by
  simp only [stallCycles, longestStall]
  split <;> omega

theorem stallCycles_pos {config valid : Config} (h : config.validated = .ok valid)
    (producer : Opcode) : 0 < valid.stallCycles producer := by
  simp only [validated] at h
  split at h
  · cases h
  · next hs =>
    split at h
    · cases h
    · split at h
      · cases h
      · cases h
        simp only [stallCycles]
        split <;> omega

end Config

end FiveStage
