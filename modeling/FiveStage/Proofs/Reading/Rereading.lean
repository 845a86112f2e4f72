import Mathlib.Data.List.Basic
import FiveStage.Proofs.Reading.Printing

/-!
# Reading a canonical text again

An instruction that was read is printed as words that its format asks for. Read again, it is the
instruction with every register read from its name, provided that no word is empty and that the base
of a load or store can stand in parentheses. So it is the same instruction exactly when all its
registers are plain.
-/
namespace FiveStage

open Text (Free)
open Assembly (isDelimiter isLooseDelimiter isSeparator isGap)

namespace Assembly

variable {id : InstructionId} {op : Opcode} {code : List Char} {operands : List (List Char)}
  {i : Instruction}

theorem Reads.unique {j : Instruction} (hi : Reads id op code operands i)
    (hj : Reads id op code operands j) : i = j :=
  Except.ok.inj ((readOperands_eq_ok_iff.mpr hi).symm.trans (readOperands_eq_ok_iff.mpr hj))

theorem Reads.operandCount_le (h : Reads id op code operands i) :
    op.format.operandCount ≤ operands.length := by
  cases h <;> simp_all [Format.operandCount]

theorem Reads.rs_of_memory (h : Reads id op code operands i) (hf : op.format = .memory) :
    i.rs = (MemoryOperand.ofChars (memoryText code)).base := by
  cases h <;> simp_all

end Assembly

namespace Instruction

variable {i : Instruction} {code : List Char}

/-- The instruction with this number and statement that has the registers of `i` read anew. -/
def rereadAs (i : Instruction) (id : InstructionId) (code : List Char) : Instruction :=
  { i with
    id
    source := String.ofList code
    rd := i.rd.map Register.reread
    rs := i.rs.map Register.reread
    rt := i.rt.map Register.reread }

/-- The last word of a branch is read as the number or the target that it was printed from. -/
theorem withOffset_offsetText {start : Instruction} (hstart : start.immediate = none)
    (hempty : start.target = none) (hoffset : BranchOffset i.immediate i.target)
    (hvalue : ∀ value ∈ i.immediate, Assembly.fitsWord value = true) :
    Assembly.withOffset start i.offsetText.toList =
      { start with immediate := i.immediate, target := i.target } := by
  obtain ⟨id, opcode, rd, rs, rt, immediate, target, source⟩ := start
  cases hstart
  cases hempty
  unfold offsetText
  generalize i.immediate = immediate at hoffset hvalue ⊢
  generalize i.target = target at hoffset ⊢
  cases hoffset with
  | number value => simp only [Assembly.withOffset, Assembly.immediate?_repr (hvalue value rfl)]
  | target t ht => simp only [Assembly.withOffset, ht, String.ofList_toList]

/-- A text with the words of an instruction that is no load or store is read as that instruction. -/
theorem Accepted.reads_words (h : i.Accepted) (hf : i.opcode.format ≠ .memory)
    (id : InstructionId) (code : List Char) :
    Assembly.Reads id i.opcode code i.printed (i.rereadAs id code) := by
  obtain ⟨id₀, op, rd, rs, rt, immediate, target, source⟩ := i
  have hvalue := h.immediate
  have hformed := h.formed
  simp only [Formed, printed] at hformed hf hvalue ⊢
  generalize hformat : op.format = format at hformed hf
  cases hformed with
  | registerRegister rd rs rt => exact .registerRegister hformat
  | registerImmediate rt rs value =>
    exact .registerImmediate hformat (Assembly.immediate?_repr (hvalue value rfl))
  | memory => exact absurd rfl hf
  | loadUpper rt value =>
    exact .loadUpper hformat (Assembly.immediate?_repr (hvalue value rfl))
  | branchEqual rs rt hoffset =>
    exact .branchEqual hformat (withOffset_offsetText rfl rfl hoffset hvalue)
  | branchZero rs hoffset =>
    exact .branchZero hformat (withOffset_offsetText rfl rfl hoffset hvalue)
  | jump target =>
    have hread := @Assembly.Reads.jump id op code target.toList [] hformat
    rw [String.ofList_toList] at hread
    exact hread
  | jumpRegister rs => exact .jumpRegister hformat

theorem Formed.exists_of_memory (h : i.Formed) (hf : i.opcode.format = .memory) : ∃ rt offset,
    i.rd = none ∧ i.rt = some rt ∧ i.immediate = some offset ∧ i.target = none := by
  obtain ⟨id, op, rd, rs, rt, immediate, target, source⟩ := i
  simp only [Formed] at h hf
  rw [hf] at h
  cases h with
  | memory rt base offset => exact ⟨rt, offset, rfl, rfl, rfl, rfl⟩

theorem printed_of_memory (hf : i.opcode.format = .memory) : i.printed =
    [(registerText i.rt).toList, MemoryOperand.printed (i.immediate.getD 0) i.rs] := by
  simp only [printed, hf]

/-- The address of a load or store stands alone after the first operand. -/
theorem Accepted.memoryText_of_spelled (h : i.Accepted) (hf : i.opcode.format = .memory)
    (hwords : ∀ w ∈ i.printed, w ≠ []) (hspelled : i.Spelled code) :
    Assembly.memoryText code = MemoryOperand.printed (i.immediate.getD 0) i.rs := by
  rw [Assembly.memoryText, hspelled.gaps, Text.flatMap_fields_of_ne_nil h.free_gap hwords,
    printed_of_memory hf]
  exact List.intercalate_singleton

/-- A text spelled as a load or store is read as that instruction, provided that its base is a name
that can stand in parentheses. -/
theorem Accepted.reads_address (h : i.Accepted) (hf : i.opcode.format = .memory)
    (hwords : ∀ w ∈ i.printed, w ≠ [])
    (hbase : ∀ r ∈ i.rs, Free MemoryOperand.isParen r.name.toList ∧ r.name ≠ "")
    (hspelled : i.Spelled code) (id : InstructionId) :
    Assembly.Reads id i.opcode code (i.printed.flatMap (Text.fields isSeparator))
      (i.rereadAs id code) := by
  have hprinted := printed_of_memory hf
  obtain ⟨rt, offset, hrd, hrt, himmediate, htarget⟩ := h.formed.exists_of_memory hf
  obtain ⟨more, hmore⟩ := MemoryOperand.exists_fields_printed offset i.rs
  have hoperand : MemoryOperand.ofChars (Assembly.memoryText code) =
      ⟨offset, i.rs.map Register.reread⟩ := by
    rw [h.memoryText_of_spelled hf hwords hspelled, himmediate]
    exact MemoryOperand.ofChars_printed (h.immediate offset himmediate)
      fun r hr => ⟨(h.rs r hr).2, hbase r hr⟩
  have hfirst : Text.fields isSeparator rt.name.toList = [rt.name.toList] := by
    refine Text.fields_of_free
      (h.rt rt hrt).2.separator (hwords _ ?_)
    rw [hprinted, hrt]
    exact List.mem_cons_self
  have hread := @Assembly.Reads.memory id i.opcode code rt.name.toList (Int.repr offset).toList more
    hf
  have hi : i.rereadAs id code =
      { id, opcode := i.opcode, source := String.ofList code, rt := some rt.reread,
        immediate := some offset, rs := i.rs.map Register.reread } := by
    rw [rereadAs, hrd, hrt, himmediate, htarget]
    rfl
  rw [hoperand] at hread
  rw [hi, hprinted, hrt, himmediate, List.flatMap_cons, List.flatMap_cons, List.flatMap_nil,
    List.append_nil, registerText, hfirst, Option.getD_some, hmore]
  exact hread

/-- Where every word has characters, and a base can stand in parentheses, the words of an
instruction are read as that instruction with its registers read anew. -/
theorem Accepted.reads_printed (h : i.Accepted) (hwords : ∀ w ∈ i.printed, w ≠ [])
    (hbase : i.opcode.format = .memory →
      ∀ r ∈ i.rs, Free MemoryOperand.isParen r.name.toList ∧ r.name ≠ "")
    (hspelled : i.Spelled code) (id : InstructionId) :
    Assembly.Reads id i.opcode code (i.printed.flatMap (Text.fields isSeparator))
      (i.rereadAs id code) := by
  by_cases hf : i.opcode.format = .memory
  · exact h.reads_address hf hwords (hbase hf) hspelled id
  · rw [Text.flatMap_fields_of_ne_nil (h.free_separator hf) hwords]
    exact h.reads_words hf id code

theorem readStatement_spelled_iff (hi : i.Formed) (hspelled : i.Spelled code) {id : InstructionId}
    {j : Instruction} : Assembly.readStatement id code = .ok j ↔
      Assembly.Reads id i.opcode code (i.printed.flatMap (Text.fields isSeparator)) j := by
  rw [Assembly.readStatement_eq_ok_iff, hspelled.tokens]
  constructor
  · rintro ⟨name, operands, op, htokens, hop, hreads⟩
    obtain ⟨rfl, rfl⟩ := List.cons.inj htokens
    rw [Assembly.sourceOpcode?_name hi.ne_pseudo] at hop
    cases hop
    exact hreads
  · exact fun hreads => ⟨_, _, _, rfl, Assembly.sourceOpcode?_name hi.ne_pseudo, hreads⟩

section Plain

variable {id : InstructionId} {j : Instruction}

theorem length_printed (i : Instruction) : i.printed.length = i.opcode.format.operandCount := by
  unfold printed
  split <;> simp_all [Format.operandCount]

/-- Where the text of an instruction is read as one with the same registers, no word of it is
empty: the operands that follow would move up. -/
theorem Accepted.printed_ne_nil_of_reads (h : i.Accepted) (hspelled : i.Spelled code)
    (hreads : Assembly.Reads id i.opcode code (i.printed.flatMap (Text.fields isSeparator)) j)
    (hrs : j.rs = i.rs) : ∀ w ∈ i.printed, w ≠ [] := by
  have hcount := hreads.operandCount_le
  by_cases hf : i.opcode.format = .memory
  · have hprinted := printed_of_memory hf
    have hrt : (registerText i.rt).toList ≠ [] := by
      intro hnil
      -- The address moves up to the place of rt, so that nothing is left to be read as an address.
      have hempty : Assembly.memoryText code = [] := by
        rw [Assembly.memoryText, hspelled.gaps, Text.flatMap_fields h.free_gap, hprinted, hnil]
        simp [MemoryOperand.printed_ne_nil]
      have hbase : i.rs = none := by
        rw [← hrs, hreads.rs_of_memory hf, hempty]
        rfl
      have hone : Text.fields isSeparator (MemoryOperand.printed (i.immediate.getD 0) none) =
          [(MemoryOperand.printed (i.immediate.getD 0) none)] := by
        refine Text.fields_of_free ?_ (MemoryOperand.printed_ne_nil _ _)
        exact MemoryOperand.free_printed (fun _ => Assembly.separator_of_isDelimiter) nofun
      rw [hprinted, hnil, hbase, List.flatMap_cons, List.flatMap_cons, hone, hf] at hcount
      exact Nat.not_succ_le_self 1 hcount
    rw [hprinted]
    simp [hrt, MemoryOperand.printed_ne_nil]
  · rw [← i.length_printed] at hcount
    exact Text.ne_nil_of_length_fields (h.free_separator hf) hcount

/-- Where the text of a load or store is read as one with the same base, the base can stand in
parentheses. -/
theorem Accepted.base_of_reads (h : i.Accepted) (hf : i.opcode.format = .memory)
    (hwords : ∀ w ∈ i.printed, w ≠ []) (hspelled : i.Spelled code)
    (hreads : Assembly.Reads id i.opcode code (i.printed.flatMap (Text.fields isSeparator)) j)
    (hrs : j.rs = i.rs) : ∀ r ∈ i.rs, Free MemoryOperand.isParen r.name.toList ∧ r.name ≠ "" := by
  intro r hr
  let address := MemoryOperand.printed (i.immediate.getD 0) i.rs
  have hbase : (MemoryOperand.ofChars address).base = some r := by
    rw [← hr, ← hrs, hreads.rs_of_memory hf, h.memoryText_of_spelled hf hwords hspelled]
  have hblank : Free Text.isBlank address :=
    (Assembly.free_loose.mp (h.free_printed address (by simp [printed_of_memory hf, address]))).1
  obtain ⟨offset, base, henclosed, rfl⟩ :=
    MemoryOperand.exists_enclosed_of_base hblank (MemoryOperand.printed_ne_nil _ _) hbase
  obtain ⟨haddress, hoffset, hparen, hne⟩ := MemoryOperand.enclosed?_eq_some_iff.mp henclosed
  have hprinted : address = (Int.repr (i.immediate.getD 0)).toList ++
      '(' :: ((Register.ofChars base).name.toList ++ [')']) := by
    rw [show address = MemoryOperand.printed _ _ from rfl, Option.mem_def.mp hr]
    rfl
  -- No offset holds a parenthesis, so the base that was read is the whole name of the register.
  obtain ⟨-, hname⟩ := Text.append_cons_inj rfl
    (Assembly.free_repr _).paren hoffset (hprinted.symm.trans haddress)
  rw [List.append_cancel_right hname]
  exact ⟨hparen, mt String.toList_eq_nil_iff.mpr (by rwa [List.append_cancel_right hname])⟩

/-- A register is a word of its own, unless it is a base. -/
theorem Formed.mem_printed (h : i.Formed) {r : Register} (hr : r ∈ i.registers) :
    r.name.toList ∈ i.printed ∨ i.opcode.format = .memory ∧ r ∈ i.rs := by
  rw [mem_registers] at hr
  obtain ⟨id, op, rd, rs, rt, immediate, target, source⟩ := i
  simp only [Formed, printed] at *
  generalize op.format = format at *
  rcases hr with hr | hr | hr
  · cases h <;> cases hr
    exact .inl List.mem_cons_self
  · cases h <;> cases hr <;> simp [registerText]
  · cases h <;> cases hr <;> simp [registerText]

/-- Where the text of an instruction is read as one with the same registers, all of them are
plain. -/
theorem Accepted.plain_of_reads (h : i.Accepted) (hspelled : i.Spelled code)
    (hreads : Assembly.Reads id i.opcode code (i.printed.flatMap (Text.fields isSeparator)) j)
    (hrd : j.rd = i.rd) (hrs : j.rs = i.rs) (hrt : j.rt = i.rt) :
    ∀ r ∈ i.registers, r.Plain := by
  have hwords := h.printed_ne_nil_of_reads hspelled hreads hrs
  have hbase (hf : i.opcode.format = .memory) := h.base_of_reads hf hwords hspelled hreads hrs
  have hj : j = i.rereadAs id code :=
    hreads.unique (h.reads_printed hwords hbase hspelled id)
  intro r hr
  -- A name that is read as itself begins with no dollar sign.
  have hsame : r.reread = r := by
    subst hj
    rcases mem_registers.mp hr with hin | hin | hin
    · exact Option.some.inj (by rwa [rereadAs, Option.mem_def.mp hin] at hrd)
    · exact Option.some.inj (by rwa [rereadAs, Option.mem_def.mp hin] at hrs)
    · exact Option.some.inj (by rwa [rereadAs, Option.mem_def.mp hin] at hrt)
  have hblank := (Assembly.free_loose.mp (h.loose_of_mem_registers hr).2).1
  obtain ⟨hparen, hne⟩ : Free MemoryOperand.isParen r.name.toList ∧ r.name ≠ "" := by
    by_cases hb : i.opcode.format = .memory ∧ r ∈ i.rs
    · exact hbase hb.1 r hb.2
    · have hfree := (h.free_of_mem_registers hr).resolve_right hb
      have hin := (h.formed.mem_printed hr).resolve_right hb
      exact ⟨hfree.paren, mt String.toList_eq_nil_iff.mpr (hwords _ hin)⟩
  exact ⟨hne, Register.head_ne_of_ofChars_name hblank hsame, hparen⟩

variable (h : i.Accepted) (hplain : ∀ r ∈ i.registers, r.Plain)
include h hplain

theorem Accepted.printed_ne_nil : ∀ w ∈ i.printed, w ≠ [] :=
  Instruction.printed_ne_nil (fun r hr => (hplain r hr).1) fun t ht => (h.target t ht).1

/-- The text of an instruction with plain registers ends in a word. -/
theorem Accepted.trim_text : Text.trim i.text.toList = i.text.toList := by
  have hprinted : i.printed ≠ [] := by
    have hpseudo := h.formed.ne_pseudo
    unfold printed
    split <;> simp_all
  have hwords := h.printed_ne_nil hplain
  have hrest := Text.intercalate_ne_nil [',', ' '] hprinted hwords
  rw [toList_text h.formed.ne_pseudo]
  refine Text.trim_of_ends (fun c hc => ?_) (fun c hc => ?_)
  · have hname : c ∈ i.opcode.name.toList := by
      rw [List.head?_append_of_ne_nil _ i.opcode.name_ne_nil] at hc
      exact List.mem_of_head? hc
    exact Text.isBlank_of_isAlphanum (by simp [Char.isAlphanum, i.opcode.isAlpha_name c hname])
  · rw [List.getLast?_append_of_ne_nil _ (List.cons_ne_nil _ _), ← List.singleton_append,
      List.getLast?_append_of_ne_nil _ hrest] at hc
    obtain ⟨w, hw, hcw⟩ := Text.mem_of_getLast?_intercalate [',', ' '] hwords hc
    exact (Assembly.free_loose.mp (h.free_printed w hw)).1 c hcw

theorem Accepted.rereadAs_of_plain (id : InstructionId) (code : List Char) :
    i.rereadAs id code = { i with id, source := String.ofList code } := by
  have hsame {r : Register} (hr : r ∈ i.registers) : r.reread = r := by
    obtain ⟨hwritten, hloose⟩ := h.loose_of_mem_registers hr
    exact Register.ofChars_name hwritten (Assembly.free_loose.mp hloose).1 (hplain r hr).2.1
  have hmap {o : Option Register} (hall : ∀ r ∈ o, r ∈ i.registers) :
      o.map Register.reread = o := by
    cases o with
    | none => rfl
    | some r => exact congrArg some (hsame (hall r rfl))
  rw [rereadAs, hmap fun r hr => mem_registers.mpr (.inl hr),
    hmap fun r hr => mem_registers.mpr (.inr (.inl hr)),
    hmap fun r hr => mem_registers.mpr (.inr (.inr hr))]

/-- An instruction with plain registers is read from its own text. -/
theorem Accepted.readStatement_text (id : InstructionId) :
    Assembly.readStatement id (Assembly.statement i.text.toList) =
      .ok { i with id, source := i.text } := by
  have hspelled := spelled_trim_text h.formed.ne_pseudo
  have hbase (r : Register) (hr : r ∈ i.rs) :
      Free MemoryOperand.isParen r.name.toList ∧ r.name ≠ "" := by
    have hr := hplain r (mem_registers.mpr (.inr (.inl hr)))
    exact ⟨hr.2.2, hr.1⟩
  have hreads := h.reads_printed (h.printed_ne_nil hplain) (fun _ => hbase) hspelled id
  rw [h.rereadAs_of_plain hplain] at hreads
  rw [h.statement_text, (readStatement_spelled_iff h.formed hspelled).mpr hreads,
    h.trim_text hplain, String.ofList_toList]

end Plain

end Instruction

end FiveStage
