import Mathlib.Order.Monotone.Basic
import FiveStage.Proofs.Cycle

/-!
# The schedule of a program

Which instructions have to wait, and in which move each one enters the pipe, read off the program
alone. Places count from zero, and so do moves, the cycles in which the instructions move on.
-/
namespace FiveStage.Program

/-- The instruction at the first place reads a register that the one at the second place writes. -/
def needs (program : Program) (consumer producer : Nat) : Bool :=
  program[consumer]?.any fun reader => program[producer]?.any fun writer => reader.dependsOn writer

/-- An instruction has to wait if it needs the one before it and that one did not wait itself. -/
def stalls (program : Program) : Nat → Bool
  | 0 => false
  | i + 1 => !program.stalls i && program.needs (i + 1) i

/-- The number of instructions before a place that have to wait. -/
def delay (program : Program) (i : Nat) : Nat := (List.range i).countP program.stalls

/-- The move in which the instruction at a place is fetched. -/
def entry (program : Program) (i : Nat) : Nat := i + program.delay i

/-- The places below a bound whose instructions have to wait. -/
def stalledBelow (program : Program) (bound : Nat) : List Nat :=
  (List.range bound).filter program.stalls

/-- Each instruction needs the one before it, so every other one has to wait. -/
def chain : Program :=
  [{ id := 1, opcode := .lw, rt := some ⟨"R1"⟩, rs := some ⟨"R0"⟩ },
   { id := 2, opcode := .add, rd := some ⟨"R2"⟩, rs := some ⟨"R1"⟩, rt := some ⟨"R1"⟩ },
   { id := 3, opcode := .or, rd := some ⟨"R3"⟩, rs := some ⟨"R2"⟩, rt := some ⟨"R2"⟩ },
   { id := 4, opcode := .sub, rd := some ⟨"R4"⟩, rs := some ⟨"R3"⟩, rt := some ⟨"R3"⟩ }]

variable (program : Program)

theorem needs_iff (i j : Nat) : program.needs i j = true ↔
    ∃ reader writer, program[i]? = some reader ∧ program[j]? = some writer ∧
      reader.dependsOn writer = true := by
  simp only [needs, Option.any_eq_true]
  constructor
  · rintro ⟨reader, hr, writer, hw, hd⟩
    exact ⟨reader, writer, hr, hw, hd⟩
  · rintro ⟨reader, writer, hr, hw, hd⟩
    exact ⟨reader, hr, writer, hw, hd⟩

theorem stalls_succ_iff (i : Nat) : program.stalls (i + 1) = true ↔
    program.stalls i = false ∧ program.needs (i + 1) i = true := by
  rw [stalls, Bool.and_eq_true, Bool.not_eq_true']

theorem lt_length_of_stalls {i : Nat} (h : program.stalls i = true) : i < program.length := by
  cases i with
  | zero => cases h
  | succ i =>
    obtain ⟨_, hneeds⟩ := (program.stalls_succ_iff i).mp h
    obtain ⟨reader, _, hr, _⟩ := (program.needs_iff (i + 1) i).mp hneeds
    exact (List.getElem?_eq_some_iff.mp hr).1

theorem delay_succ (i : Nat) :
    program.delay (i + 1) = program.delay i + if program.stalls i then 1 else 0 := by
  simp only [delay, List.range_succ, List.countP_append, List.countP_singleton]

theorem stalledBelow_succ (bound : Nat) : program.stalledBelow (bound + 1) =
    program.stalledBelow bound ++ if program.stalls bound then [bound] else [] := by
  simp only [stalledBelow, List.range_succ, List.filter_append, List.filter_cons, List.filter_nil]

theorem length_stalledBelow (bound : Nat) :
    (program.stalledBelow bound).length = program.delay bound :=
  List.countP_eq_length_filter.symm

theorem mem_stalledBelow {bound i : Nat} :
    i ∈ program.stalledBelow bound ↔ i < bound ∧ program.stalls i = true := by
  rw [stalledBelow, List.mem_filter, List.mem_range]

theorem countP_stalledBelow {bound total : Nat} (hle : bound ≤ total) :
    (program.stalledBelow total).countP (fun i => decide (i < bound)) = program.delay bound := by
  induction total, hle using Nat.le_induction with
  | base =>
    rw [← program.length_stalledBelow, List.countP_eq_length]
    intro i hi
    rw [decide_eq_true_iff]
    exact (program.mem_stalledBelow.mp hi).1
  | succ total hle ih =>
    rw [stalledBelow_succ, List.countP_append, ih]
    have hout : ¬ total < bound := Nat.not_lt_of_le hle
    split <;> simp [hout]

theorem entry_succ (i : Nat) :
    program.entry (i + 1) = program.entry i + 1 + if program.stalls i then 1 else 0 := by
  rw [entry, entry, delay_succ]
  omega

theorem entry_strictMono : StrictMono program.entry := by
  apply strictMono_nat_of_lt_succ
  intro i
  rw [entry_succ]
  omega

/-- The next move fetches the next instruction, unless the one just fetched has to wait. -/
theorem entry_eq_succ_iff {i j : Nat} :
    program.entry i = program.entry j + 1 ↔ i = j + 1 ∧ program.stalls j = false := by
  have hsucc := program.entry_succ j
  constructor
  · intro h
    have hlt : j < i := program.entry_strictMono.lt_iff_lt.mp (by omega)
    have hle : program.entry (j + 1) ≤ program.entry i :=
      program.entry_strictMono.monotone (Nat.succ_le_of_lt hlt)
    have hno : program.stalls j = false := by
      cases hs : program.stalls j with
      | false => rfl
      | true => rw [hs, if_pos rfl] at hsucc; omega
    refine ⟨?_, hno⟩
    apply program.entry_strictMono.injective
    rw [hno] at hsucc
    simp at hsucc
    omega
  · rintro ⟨rfl, hno⟩
    rw [hsucc, hno]
    rfl

end FiveStage.Program
