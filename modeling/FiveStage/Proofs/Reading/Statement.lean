import FiveStage.Proofs.Reading.Operand

/-!
# Statements as a relation

`Reads` says which instruction a list of operands stands for, one rule for each format, and
`readStatement_eq_ok_iff` that a statement is read by these rules. Whatever is read sets exactly the
operand fields of its format, and its names are free of the characters that end an operand. Only the
base of a load or store may hold parentheses.
-/
namespace FiveStage

open Text (Free)
open Assembly (isDelimiter isLooseDelimiter)

/-- A branch has a number or a target that is none. -/
inductive BranchOffset : Option Int → Option String → Prop
  | number (value : Int) : BranchOffset (some value) none
  | target (t : String) (h : Assembly.immediate? t.toList = none) : BranchOffset none (some t)

/-- The operand fields that a format sets, in the order rd, rs, rt, immediate, target. -/
inductive OperandFields : Format → Option Register → Option Register → Option Register →
    Option Int → Option String → Prop
  | registerRegister (rd rs rt : Register) :
      OperandFields .registerRegister (some rd) (some rs) (some rt) none none
  | registerImmediate (rt rs : Register) (value : Int) :
      OperandFields .registerImmediate none (some rs) (some rt) (some value) none
  | memory (rt : Register) (base : Option Register) (offset : Int) :
      OperandFields .memory none base (some rt) (some offset) none
  | loadUpper (rt : Register) (value : Int) :
      OperandFields .loadUpper none none (some rt) (some value) none
  | branchEqual (rs rt : Register) {immediate : Option Int} {target : Option String}
      (h : BranchOffset immediate target) :
      OperandFields .branchEqual none (some rs) (some rt) immediate target
  | branchZero (rs : Register) {immediate : Option Int} {target : Option String}
      (h : BranchOffset immediate target) :
      OperandFields .branchZero none (some rs) none immediate target
  | jump (target : String) : OperandFields .jump none none none none (some target)
  | jumpRegister (rs : Register) : OperandFields .jumpRegister none (some rs) none none none

namespace Instruction

/-- Exactly the operand fields of the format are set. -/
def Formed (i : Instruction) : Prop :=
  OperandFields i.opcode.format i.rd i.rs i.rt i.immediate i.target

theorem Formed.of_format {i : Instruction} {format : Format} (hf : i.opcode.format = format)
    (h : OperandFields format i.rd i.rs i.rt i.immediate i.target) : i.Formed := by
  rwa [Formed, hf]

def registers (i : Instruction) : List Register := i.rd.toList ++ i.rs.toList ++ i.rt.toList

/-- What every instruction that was read from a text satisfies. -/
structure Accepted (i : Instruction) : Prop where
  formed : i.Formed
  rd : ∀ r ∈ i.rd, r.Written isDelimiter
  rs : ∀ r ∈ i.rs, r.Written isLooseDelimiter
  unenclosed : i.opcode.format ≠ .memory → ∀ r ∈ i.rs, r.Written isDelimiter
  rt : ∀ r ∈ i.rt, r.Written isDelimiter
  immediate : ∀ value ∈ i.immediate, Assembly.fitsWord value = true
  target : ∀ t ∈ i.target, t.toList ≠ [] ∧ Free isDelimiter t.toList

end Instruction

namespace Assembly

/-- The instructions that operands stand for, one rule for each format. -/
inductive Reads (id : InstructionId) (op : Opcode) (code : List Char) :
    List (List Char) → Instruction → Prop
  | registerRegister {rd rs rt : List Char} {more : List (List Char)}
      (h : op.format = .registerRegister) :
      Reads id op code (rd :: rs :: rt :: more)
        { id, opcode := op, source := String.ofList code, rd := some (.ofChars rd),
          rs := some (.ofChars rs), rt := some (.ofChars rt) }
  | registerImmediate {rt rs token : List Char} {more : List (List Char)} {value : Int}
      (h : op.format = .registerImmediate) (hvalue : immediate? token = some value) :
      Reads id op code (rt :: rs :: token :: more)
        { id, opcode := op, source := String.ofList code, rs := some (.ofChars rs),
          rt := some (.ofChars rt), immediate := some value }
  | memory {rt address : List Char} {more : List (List Char)} (h : op.format = .memory) :
      Reads id op code (rt :: address :: more)
        { id, opcode := op, source := String.ofList code, rt := some (.ofChars rt),
          immediate := some (MemoryOperand.ofChars (memoryText code)).offset,
          rs := (MemoryOperand.ofChars (memoryText code)).base }
  | loadUpper {rt token : List Char} {more : List (List Char)} {value : Int}
      (h : op.format = .loadUpper) (hvalue : immediate? token = some value) :
      Reads id op code (rt :: token :: more)
        { id, opcode := op, source := String.ofList code, rt := some (.ofChars rt),
          immediate := some value }
  | branchEqual {rs rt token : List Char} {more : List (List Char)} {i : Instruction}
      (h : op.format = .branchEqual)
      (hi : withOffset
        { id, opcode := op, source := String.ofList code, rs := some (.ofChars rs),
          rt := some (.ofChars rt) } token = i) :
      Reads id op code (rs :: rt :: token :: more) i
  | branchZero {rs token : List Char} {more : List (List Char)} {i : Instruction}
      (h : op.format = .branchZero)
      (hi : withOffset
        { id, opcode := op, source := String.ofList code, rs := some (.ofChars rs) } token = i) :
      Reads id op code (rs :: token :: more) i
  | jump {target : List Char} {more : List (List Char)} (h : op.format = .jump) :
      Reads id op code (target :: more)
        { id, opcode := op, source := String.ofList code, target := some (String.ofList target) }
  | jumpRegister {rs : List Char} {more : List (List Char)} (h : op.format = .jumpRegister) :
      Reads id op code (rs :: more)
        { id, opcode := op, source := String.ofList code, rs := some (.ofChars rs) }

section Reading

variable {id : InstructionId} {op : Opcode} {code : List Char} {operands : List (List Char)}
  {i : Instruction}

theorem map_immediate_eq_ok_iff {token : List Char} {f : Int → Instruction} :
    (immediate token).map f = .ok i ↔ ∃ value, immediate? token = some value ∧ f value = i := by
  unfold immediate
  cases immediate? token with
  | none => exact iff_of_false nofun nofun
  | some value => simp [Except.map]

theorem readOperands_eq_ok_iff :
    readOperands { id, opcode := op, source := String.ofList code } code operands = .ok i ↔
      Reads id op code operands i := by
  constructor
  · intro h
    unfold readOperands at h
    dsimp only at h
    split at h
    · next rd rs rt more hf => exact Except.ok.inj h ▸ .registerRegister hf
    · next rt rs token more hf =>
      obtain ⟨value, hvalue, rfl⟩ := map_immediate_eq_ok_iff.mp h
      exact .registerImmediate hf hvalue
    · next rt address more hf => exact Except.ok.inj h ▸ .memory hf
    · next rt token more hf =>
      obtain ⟨value, hvalue, rfl⟩ := map_immediate_eq_ok_iff.mp h
      exact .loadUpper hf hvalue
    · next rs rt token more hf => exact .branchEqual hf (Except.ok.inj h)
    · next rs token more hf => exact .branchZero hf (Except.ok.inj h)
    · next target more hf => exact Except.ok.inj h ▸ .jump hf
    · next rs more hf => exact Except.ok.inj h ▸ .jumpRegister hf
    · cases h
    · cases h
  · intro h
    unfold readOperands
    cases h with
    | registerRegister hf => simp only [hf]
    | registerImmediate hf hvalue =>
      simp only [hf]
      exact map_immediate_eq_ok_iff.mpr ⟨_, hvalue, rfl⟩
    | memory hf => simp only [hf]
    | loadUpper hf hvalue =>
      simp only [hf]
      exact map_immediate_eq_ok_iff.mpr ⟨_, hvalue, rfl⟩
    | branchEqual hf hi => simp only [hf, hi]
    | branchZero hf hi => simp only [hf, hi]
    | jump hf => simp only [hf]
    | jumpRegister hf => simp only [hf]

/-- A statement is an opcode of the source language and operands that can be read. -/
theorem readStatement_eq_ok_iff : readStatement id code = .ok i ↔
    ∃ name operands op, tokens code = name :: operands ∧ sourceOpcode? name = some op ∧
      Reads id op code operands i := by
  unfold readStatement
  constructor
  · intro h
    split at h
    · cases h
    · next name operands htokens =>
      split at h
      · cases h
      · next op hop => exact ⟨name, operands, op, htokens, hop, readOperands_eq_ok_iff.mp h⟩
  · rintro ⟨name, operands, op, htokens, hop, h⟩
    rw [htokens]
    simp only [hop]
    exact readOperands_eq_ok_iff.mpr h

end Reading

section Characters

theorem mem_of_mem_dropLabel {cs : List Char} {c : Char} (h : c ∈ dropLabel cs) : c ∈ cs := by
  unfold dropLabel at h
  split at h
  · next rest _ hcolon =>
    split at h
    · have hrest : c ∈ cs.dropWhile Text.isLabelChar := by
        rw [hcolon]
        exact List.mem_cons_of_mem _ (Text.mem_of_mem_trim h)
      exact (List.dropWhile_suffix _).subset hrest
    · exact h
  · exact h

/-- A statement holds no comment. -/
theorem free_statement (line : List Char) : Free isMarker (statement line) := by
  intro c hc
  have hbefore := List.mem_takeWhile_imp (Text.mem_of_mem_trim (mem_of_mem_dropLabel hc))
  simpa using hbefore

variable {code : List Char}

theorem free_token (hcode : Free isMarker code) {token : List Char} (h : token ∈ tokens code) :
    Free isDelimiter token := by
  intro c hc
  rw [isDelimiter, Text.free_of_mem_fields h c hc, hcode c (Text.mem_of_mem_fields h c hc)]
  rfl

/-- Between the blanks of a memory operand stand characters of the statement. -/
theorem loose_of_mem_memoryText (hcode : Free isMarker code) {c : Char} (h : c ∈ memoryText code)
    (hblank : Text.isBlank c = false) : isLooseDelimiter c = false := by
  rcases Text.mem_intercalate h with hgap | ⟨part, hpart, hc⟩
  · rw [List.mem_singleton.mp hgap] at hblank
    cases hblank
  · have hfield := List.mem_of_mem_drop hpart
    rw [isLooseDelimiter, Text.free_of_mem_fields hfield c hc,
      hcode c (Text.mem_of_mem_fields hfield c hc)]
    rfl

end Characters

section Accepting

variable {id : InstructionId} {op : Opcode} {code : List Char} {operands : List (List Char)}
  {i : Instruction}

/-- A branch takes its token as a number if it reads as one, and else as a target. -/
theorem withOffset_cases (i : Instruction) (token : List Char) :
    (∃ value, immediate? token = some value ∧
        withOffset i token = { i with immediate := some value }) ∨
      immediate? token = none ∧
        withOffset i token = { i with target := some (String.ofList token) } := by
  unfold withOffset
  cases immediate? token with
  | some value => exact .inl ⟨value, rfl, rfl⟩
  | none => exact .inr ⟨rfl, rfl⟩

/-- Whatever is read has exactly the operand fields of its format. -/
theorem Reads.formed (h : Reads id op code operands i) : i.Formed := by
  cases h with
  | registerRegister hf => exact .of_format hf (.registerRegister _ _ _)
  | registerImmediate hf _ => exact .of_format hf (.registerImmediate _ _ _)
  | memory hf => exact .of_format hf (.memory _ _ _)
  | loadUpper hf _ => exact .of_format hf (.loadUpper _ _)
  | @branchEqual rs rt token more _ hf hi =>
    subst hi
    rcases withOffset_cases _ token with ⟨value, _, heq⟩ | ⟨hread, heq⟩
    · rw [heq]
      exact .of_format hf (.branchEqual _ _ (.number value))
    · rw [heq]
      exact .of_format hf (.branchEqual _ _ (.target _ (by rwa [String.toList_ofList])))
  | @branchZero rs token more _ hf hi =>
    subst hi
    rcases withOffset_cases _ token with ⟨value, _, heq⟩ | ⟨hread, heq⟩
    · rw [heq]
      exact .of_format hf (.branchZero _ (.number value))
    · rw [heq]
      exact .of_format hf (.branchZero _ (.target _ (by rwa [String.toList_ofList])))
  | jump hf => exact .of_format hf (.jump _)
  | jumpRegister hf => exact .of_format hf (.jumpRegister _)

theorem Reads.accepted (hcode : Free isMarker code)
    (hoperands : ∀ token ∈ operands, token ∈ tokens code) (h : Reads id op code operands i) :
    i.Accepted := by
  have hregister {token : List Char} (hin : token ∈ operands) :
      ∀ r ∈ some (Register.ofChars token), r.Written isDelimiter := by
    rintro r ⟨⟩
    exact Register.written_ofChars (fun _ => isDelimiter_of_isAlpha)
      (free_token hcode (hoperands token hin))
  have htarget {token : List Char} (hin : token ∈ operands) :
      ∀ t ∈ some (String.ofList token), t.toList ≠ [] ∧ Free isDelimiter t.toList := by
    rintro t ⟨⟩
    rw [String.toList_ofList]
    exact ⟨Text.ne_nil_of_mem_fields (hoperands token hin), free_token hcode (hoperands token hin)⟩
  have hvalue {token : List Char} {value : Int} (hread : immediate? token = some value) :
      ∀ n ∈ some value, fitsWord n = true := by
    rintro n ⟨⟩
    exact immediate?_fits hread
  have hloose {o : Option Register} (hall : ∀ r ∈ o, r.Written isDelimiter) :
      ∀ r ∈ o, r.Written isLooseDelimiter := fun r hr => (hall r hr).loose
  have hformed := h.formed
  -- All operands are tokens of the statement but the address, which is cut at other separators.
  cases h with
  | registerRegister _ =>
    exact ⟨hformed, hregister (by simp), hloose (hregister (by simp)),
      fun _ => hregister (by simp), hregister (by simp), nofun, nofun⟩
  | registerImmediate _ hread =>
    exact ⟨hformed, nofun, hloose (hregister (by simp)), fun _ => hregister (by simp),
      hregister (by simp), hvalue hread, nofun⟩
  | memory hf =>
    refine ⟨hformed, nofun, ?_, fun hother => absurd hf hother, hregister (by simp), ?_, nofun⟩
    · intro r hr
      obtain ⟨base, hbase, rfl⟩ := MemoryOperand.exists_base hr
      refine Register.written_ofChars
        (fun _ hc => loose_of_isDelimiter (isDelimiter_of_isAlpha hc)) fun c hc => ?_
      exact loose_of_mem_memoryText hcode (hbase c hc).1 (hbase c hc).2
    · rintro n ⟨⟩
      exact MemoryOperand.fits_offset _
  | loadUpper _ hread =>
    exact ⟨hformed, nofun, nofun, nofun, hregister (by simp), hvalue hread, nofun⟩
  | @branchEqual rs rt token more _ _ hi =>
    subst hi
    rcases withOffset_cases _ token with ⟨value, hread, heq⟩ | ⟨hread, heq⟩
    · rw [heq] at hformed ⊢
      exact ⟨hformed, nofun, hloose (hregister (by simp)), fun _ => hregister (by simp),
        hregister (by simp), hvalue hread, nofun⟩
    · rw [heq] at hformed ⊢
      exact ⟨hformed, nofun, hloose (hregister (by simp)), fun _ => hregister (by simp),
        hregister (by simp), nofun, htarget (by simp)⟩
  | @branchZero rs token more _ _ hi =>
    subst hi
    rcases withOffset_cases _ token with ⟨value, hread, heq⟩ | ⟨hread, heq⟩
    · rw [heq] at hformed ⊢
      exact ⟨hformed, nofun, hloose (hregister (by simp)), fun _ => hregister (by simp), nofun,
        hvalue hread, nofun⟩
    · rw [heq] at hformed ⊢
      exact ⟨hformed, nofun, hloose (hregister (by simp)), fun _ => hregister (by simp), nofun,
        nofun, htarget (by simp)⟩
  | jump _ => exact ⟨hformed, nofun, nofun, nofun, nofun, nofun, htarget (by simp)⟩
  | jumpRegister _ =>
    exact ⟨hformed, nofun, hloose (hregister (by simp)), fun _ => hregister (by simp), nofun,
      nofun, nofun⟩

/-- What is read from a statement is formed as its format asks for. -/
theorem accepted_of_readStatement (hcode : Free isMarker code)
    (h : readStatement id code = .ok i) : i.Accepted := by
  obtain ⟨name, operands, op, htokens, _, hreads⟩ := readStatement_eq_ok_iff.mp h
  refine hreads.accepted hcode fun token htoken => ?_
  rw [htokens]
  exact List.mem_cons_of_mem _ htoken

end Accepting

end Assembly

end FiveStage
