import FiveStage.Proofs.Reading.Statement

/-!
# Canonical texts

The canonical text of an instruction is the name of its opcode and a list of words with commas in
between. The address of a load or store is one word. Cut at separators, the text gives the fields of
these words. It begins with a word of letters and holds no comment, so it is its own statement.
-/
namespace FiveStage

open Text (Free)
open Assembly (isDelimiter isLooseDelimiter isSeparator isGap)

/-- The register that the name of a register stands for. -/
def Register.reread (r : Register) : Register := ofChars r.name.toList

/-- The address of a load or store as it is printed: the offset, and the base in parentheses. -/
def MemoryOperand.printed (offset : Int) (base : Option Register) : List Char :=
  (Int.repr offset).toList ++
    match base with
    | some base => '(' :: (base.name.toList ++ [')'])
    | none => []

namespace Instruction

/-- The words after the opcode in the canonical text. An address is one word. -/
def printed (i : Instruction) : List (List Char) :=
  let rd := (registerText i.rd).toList
  let rs := (registerText i.rs).toList
  let rt := (registerText i.rt).toList
  let value := i.immediateText.toList
  let offset := i.offsetText.toList
  match i.opcode.format with
  | .registerRegister => [rd, rs, rt]
  | .registerImmediate => [rt, rs, value]
  | .memory => [rt, MemoryOperand.printed (i.immediate.getD 0) i.rs]
  | .loadUpper => [rt, value]
  | .branchEqual => [rs, rt, offset]
  | .branchZero => [rs, offset]
  | .jump => [(i.target.getD "?").toList]
  | .jumpRegister => [rs]
  | .pseudo => []

/-- The canonical text is the opcode, a blank, and the words with commas between them. -/
theorem toList_text {i : Instruction} (h : i.opcode.format ≠ .pseudo) :
    i.text.toList = i.opcode.name.toList ++ ' ' :: List.intercalate [',', ' '] i.printed := by
  rw [text, String.toList_append, operands, printed]
  cases hf : i.opcode.format with
  | memory =>
    cases i.rs <;> simp [List.intercalate_cons_cons, MemoryOperand.printed, immediateText]
  | pseudo => exact absurd hf h
  | _ => simp [List.intercalate_cons_cons]

end Instruction

namespace MemoryOperand

theorem printed_ne_nil (offset : Int) (base : Option Register) : printed offset base ≠ [] :=
  List.append_ne_nil_of_left_ne_nil (Assembly.repr_ne_nil offset) _

/-- The first field of an address is its offset. -/
theorem exists_fields_printed (offset : Int) (base : Option Register) : ∃ more,
    Text.fields isSeparator (printed offset base) = (Int.repr offset).toList :: more := by
  have hnumber : Text.fields isSeparator (Int.repr offset).toList = [(Int.repr offset).toList] :=
    Text.fields_of_free
      (Assembly.free_repr offset).separator
      (Assembly.repr_ne_nil offset)
  unfold printed
  split
  · exact ⟨_, by rw [Text.fields_append_cons (by decide), hnumber]; rfl⟩
  · exact ⟨[], by rw [List.append_nil, hnumber]⟩

theorem free_printed {offset : Int} {base : Option Register} {sep : Char → Bool}
    (hsep : ∀ c, isDelimiter c = false → sep c = false)
    (hbase : ∀ r ∈ base, Free sep r.name.toList ∧ sep '(' = false ∧ sep ')' = false) :
    Free sep (printed offset base) := by
  refine List.forall_mem_append.mpr ⟨fun c hc => hsep c (Assembly.free_repr offset c hc), ?_⟩
  cases base with
  | none => exact nofun
  | some base =>
    obtain ⟨hname, hopen, hclose⟩ := hbase base rfl
    simp only [List.forall_mem_cons, List.forall_mem_append]
    exact ⟨hopen, hname, hclose, nofun⟩

/-- An address is read as its offset and the register that the name of its base stands for. -/
theorem ofChars_printed {offset : Int} {base : Option Register}
    (hoffset : Assembly.fitsWord offset = true)
    (hbase : ∀ r ∈ base, Free isLooseDelimiter r.name.toList ∧ Free isParen r.name.toList ∧
      r.name ≠ "") :
    ofChars (printed offset base) = ⟨offset, base.map Register.reread⟩ := by
  have hblank : Free Text.isBlank (printed offset base) := by
    refine (Assembly.free_loose.mp (free_printed (fun _ => Assembly.loose_of_isDelimiter) ?_)).1
    exact fun r hr => ⟨(hbase r hr).1, by decide⟩
  have hvalue : offsetOrZero (Int.repr offset).toList = offset := by
    rw [offsetOrZero, Assembly.immediate?_repr hoffset]
    rfl
  have hdigits := (Assembly.free_repr offset).paren
  cases base with
  | none =>
    rw [printed, List.append_nil] at hblank ⊢
    rw [ofChars_bare hblank hdigits (Assembly.repr_ne_nil offset), hvalue]
    rfl
  | some base =>
    obtain ⟨_, hparen, hne⟩ := hbase base rfl
    have hname := mt String.toList_eq_nil_iff.mp hne
    rw [printed, ofChars_enclosed hblank hdigits hparen hname, hvalue]
    rfl

end MemoryOperand

namespace Opcode

theorem name_ne_nil (op : Opcode) : op.name.toList ≠ [] := by cases op <;> decide

theorem isAlpha_name (op : Opcode) : ∀ c ∈ op.name.toList, c.isAlpha = true := by
  rw [← List.all_eq_true]
  cases op <;> decide

theorem free_name (op : Opcode) : Free isDelimiter op.name.toList :=
  fun c hc => Assembly.isDelimiter_of_isAlpha (op.isAlpha_name c hc)

end Opcode

namespace Assembly

theorem sourceOpcode?_name {op : Opcode} (h : op.format ≠ .pseudo) :
    sourceOpcode? op.name.toList = some op := by
  rw [sourceOpcode?, Opcode.ofName?_name]
  simp [h]

/-- A word of letters with a blank or nothing after it is no label. -/
theorem dropLabel_of_word {word tail : List Char} (hword : ∀ c ∈ word, c.isAlpha = true)
    (htail : ∀ c ∈ tail.head?, c = ' ') : dropLabel (word ++ tail) = word ++ tail := by
  have hlabel : ∀ c ∈ word, Text.isLabelChar c = true :=
    fun c hc => by simp [Text.isLabelChar, Char.isAlphanum, hword c hc]
  unfold dropLabel
  split
  · next rest _ hcolon =>
    -- A label ends in a colon, but after the word there is a blank or nothing.
    rw [List.dropWhile_append_of_pos hlabel] at hcolon
    cases tail with
    | nil => cases hcolon
    | cons c cs =>
      obtain rfl := htail c rfl
      cases hcolon
  · rfl

end Assembly

namespace Instruction

section Words

variable {i : Instruction} {sep : Char → Bool}

theorem mem_registers {r : Register} : r ∈ i.registers ↔ r ∈ i.rd ∨ r ∈ i.rs ∨ r ∈ i.rt := by
  simp [registers]

theorem free_registerText (hsep : ∀ c, isDelimiter c = false → sep c = false)
    {register : Option Register} (h : ∀ r ∈ register, Free sep r.name.toList) :
    Free sep (registerText register).toList := by
  cases register with
  | none => exact List.forall_mem_singleton.mpr (hsep '?' (by decide))
  | some r => exact h r rfl

theorem free_offsetText (h : ∀ t ∈ i.target, Free isDelimiter t.toList) :
    Free isDelimiter i.offsetText.toList := by
  unfold offsetText
  split
  · exact Assembly.free_repr _
  · next htarget => exact h _ htarget
  · exact List.forall_mem_singleton.mpr (by decide)

/-- What holds of no character in a register and of no other operand holds of none in a word, except
for the parentheses of an address. -/
theorem free_printed (hsep : ∀ c, isDelimiter c = false → sep c = false)
    (hregisters : ∀ r ∈ i.registers, Free sep r.name.toList)
    (htarget : ∀ t ∈ i.target, Free isDelimiter t.toList)
    (hparen : i.opcode.format = .memory → i.rs ≠ none → sep '(' = false ∧ sep ')' = false) :
    ∀ w ∈ i.printed, Free sep w := by
  have hrd : Free sep (registerText i.rd).toList :=
    free_registerText hsep fun r hr => hregisters r (mem_registers.mpr (.inl hr))
  have hrs : Free sep (registerText i.rs).toList :=
    free_registerText hsep fun r hr => hregisters r (mem_registers.mpr (.inr (.inl hr)))
  have hrt : Free sep (registerText i.rt).toList :=
    free_registerText hsep fun r hr => hregisters r (mem_registers.mpr (.inr (.inr hr)))
  have himmediate : Free sep i.immediateText.toList :=
    fun c hc => hsep c (Assembly.free_repr _ c hc)
  have hoffset : Free sep i.offsetText.toList :=
    fun c hc => hsep c (free_offsetText htarget c hc)
  have hjump : Free sep (i.target.getD "?").toList := by
    cases ht : i.target with
    | none => exact List.forall_mem_singleton.mpr (hsep '?' (by decide))
    | some t => exact fun c hc => hsep c (htarget t ht c hc)
  unfold printed
  split
  · simp [hrd, hrs, hrt]
  · simp [hrs, hrt, himmediate]
  · next hf =>
    have haddress : Free sep (MemoryOperand.printed (i.immediate.getD 0) i.rs) := by
      refine MemoryOperand.free_printed hsep fun r hr => ?_
      have hsome : i.rs ≠ none := by
        rw [Option.mem_def.mp hr]
        exact Option.some_ne_none r
      exact ⟨hregisters r (mem_registers.mpr (.inr (.inl hr))), hparen hf hsome⟩
    simp [hrt, haddress]
  · simp [hrt, himmediate]
  · simp [hrs, hrt, hoffset]
  · simp [hrs, hoffset]
  · simp [hjump]
  · simp [hrs]
  · simp

theorem registerText_ne_nil {register : Option Register} (h : ∀ r ∈ register, r.name ≠ "") :
    (registerText register).toList ≠ [] := by
  cases register with
  | none => decide
  | some r => exact fun hnil => h r rfl (String.toList_eq_nil_iff.mp hnil)

theorem printed_ne_nil (hregisters : ∀ r ∈ i.registers, r.name ≠ "")
    (htarget : ∀ t ∈ i.target, t.toList ≠ []) : ∀ w ∈ i.printed, w ≠ [] := by
  have hrd := registerText_ne_nil fun r hr => hregisters r (mem_registers.mpr (.inl hr))
  have hrs := registerText_ne_nil fun r hr => hregisters r (mem_registers.mpr (.inr (.inl hr)))
  have hrt := registerText_ne_nil fun r hr => hregisters r (mem_registers.mpr (.inr (.inr hr)))
  have himmediate : i.immediateText.toList ≠ [] := Assembly.repr_ne_nil _
  have hoffset : i.offsetText.toList ≠ [] := by
    unfold offsetText
    split
    · exact Assembly.repr_ne_nil _
    · next ht => exact htarget _ ht
    · decide
  have hjump : (i.target.getD "?").toList ≠ [] := by
    cases ht : i.target with
    | none => decide
    | some t => exact htarget t ht
  unfold printed
  split
  · simp [hrd, hrs, hrt]
  · simp [hrs, hrt, himmediate]
  · simp [hrt, MemoryOperand.printed_ne_nil]
  · simp [hrt, himmediate]
  · simp [hrs, hrt, hoffset]
  · simp [hrs, hoffset]
  · simp [hjump]
  · simp [hrs]
  · simp

end Words

theorem Formed.ne_pseudo {i : Instruction} (h : i.Formed) : i.opcode.format ≠ .pseudo := by
  intro hf
  rw [Formed, hf] at h
  cases h

/-- The fields of a line are those of the canonical text. -/
structure Spelled (i : Instruction) (code : List Char) : Prop where
  tokens : Assembly.tokens code =
    i.opcode.name.toList :: i.printed.flatMap (Text.fields isSeparator)
  gaps : Text.fields isGap code = i.opcode.name.toList :: i.printed.flatMap (Text.fields isGap)

section Spelling

variable {i : Instruction}

theorem fields_text {sep : Char → Bool} (h : i.opcode.format ≠ .pseudo)
    (hsep : ∀ c, isDelimiter c = false → sep c = false) (hcomma : sep ',' = true)
    (hblank : sep ' ' = true) : Text.fields sep i.text.toList =
      i.opcode.name.toList :: i.printed.flatMap (Text.fields sep) := by
  have hname : Free sep i.opcode.name.toList := fun c hc => hsep c (i.opcode.free_name c hc)
  have hbetween : ∀ c ∈ [',', ' '], sep c = true := by simp [hcomma, hblank]
  rw [toList_text h, Text.fields_append_cons hblank,
    Text.fields_intercalate hbetween (List.cons_ne_nil _ _),
    Text.fields_of_free hname i.opcode.name_ne_nil]
  rfl

theorem spelled_trim_text (h : i.opcode.format ≠ .pseudo) :
    i.Spelled (Text.trim i.text.toList) where
  tokens := by
    rw [Assembly.tokens, Text.fields_trim fun c hc => by simp [isSeparator, hc]]
    exact fields_text h (fun _ => Assembly.separator_of_isDelimiter) (by decide) (by decide)
  gaps := by
    rw [Text.fields_trim fun c hc => by simp [isGap, hc]]
    exact fields_text h (fun _ => Assembly.gap_of_isDelimiter) (by decide) (by decide)

theorem Accepted.loose_of_mem_registers (h : i.Accepted) {r : Register} (hr : r ∈ i.registers) :
    r.Written isLooseDelimiter := by
  rcases mem_registers.mp hr with hrd | hrs | hrt
  · exact (h.rd r hrd).loose
  · exact h.rs r hrs
  · exact (h.rt r hrt).loose

/-- Only the base of a load or store may hold parentheses. -/
theorem Accepted.free_of_mem_registers (h : i.Accepted) {r : Register} (hr : r ∈ i.registers) :
    Free isDelimiter r.name.toList ∨ i.opcode.format = .memory ∧ r ∈ i.rs := by
  rcases mem_registers.mp hr with hrd | hrs | hrt
  · exact .inl (h.rd r hrd).2
  · by_cases hf : i.opcode.format = .memory
    · exact .inr ⟨hf, hrs⟩
    · exact .inl (h.unenclosed hf r hrs).2
  · exact .inl (h.rt r hrt).2

/-- No word of an instruction that was read holds a character that ends an operand, parentheses
apart. -/
theorem Accepted.free_printed (h : i.Accepted) : ∀ w ∈ i.printed, Free isLooseDelimiter w :=
  Instruction.free_printed (fun _ => Assembly.loose_of_isDelimiter)
    (fun _ hr => (h.loose_of_mem_registers hr).2) (fun t ht => (h.target t ht).2)
    (fun _ _ => by decide)

/-- Only an address has separators within a word. -/
theorem Accepted.free_separator (h : i.Accepted) (hf : i.opcode.format ≠ .memory) :
    ∀ w ∈ i.printed, Free isSeparator w := by
  refine Instruction.free_printed (fun _ => Assembly.separator_of_isDelimiter) (fun r hr => ?_)
    (fun t ht => (h.target t ht).2) (fun hmemory => absurd hmemory hf)
  rcases h.free_of_mem_registers hr with hfree | ⟨hmemory, _⟩
  · exact hfree.separator
  · exact absurd hmemory hf

theorem Accepted.free_gap (h : i.Accepted) : ∀ w ∈ i.printed, Free isGap w :=
  fun w hw c hc => Assembly.gap_of_loose (h.free_printed w hw c hc)

theorem Accepted.loose_of_mem_text (h : i.Accepted) {c : Char} (hc : c ∈ i.text.toList) :
    c = ' ' ∨ c = ',' ∨ isLooseDelimiter c = false := by
  rw [toList_text h.formed.ne_pseudo, List.mem_append, List.mem_cons] at hc
  rcases hc with hname | rfl | hrest
  · exact .inr (.inr (Assembly.loose_of_isDelimiter (i.opcode.free_name c hname)))
  · exact .inl rfl
  · rcases Text.mem_intercalate hrest with hbetween | ⟨w, hw, hcw⟩
    · simp only [List.mem_cons, List.not_mem_nil, or_false] at hbetween
      exact hbetween.elim (fun hcomma => .inr (.inl hcomma)) .inl
    · exact .inr (.inr (h.free_printed w hw c hcw))

/-- The text of an instruction that was read is its own statement, but for blanks at the end. -/
theorem Accepted.statement_text (h : i.Accepted) :
    Assembly.statement i.text.toList = Text.trim i.text.toList := by
  have hmarker : i.text.toList.takeWhile (fun c => !Assembly.isMarker c) = i.text.toList := by
    rw [List.takeWhile_eq_self_iff]
    intro c hc
    rcases h.loose_of_mem_text hc with rfl | rfl | hloose
    · decide
    · decide
    · simpa using (Assembly.free_loose.mp (List.forall_mem_singleton.mpr hloose)).2.2 c
        (List.mem_singleton_self c)
  have hname : Free Text.isBlank i.opcode.name.toList :=
    fun c hc => Text.isBlank_of_isAlphanum (by simp [Char.isAlphanum, i.opcode.isAlpha_name c hc])
  rw [Assembly.statement, hmarker, toList_text h.formed.ne_pseudo,
    Text.trim_append hname i.opcode.name_ne_nil]
  refine Assembly.dropLabel_of_word i.opcode.isAlpha_name fun c hc => ?_
  obtain ⟨front, hfront⟩ := List.head?_eq_some_iff.mp hc
  obtain ⟨back, hback⟩ := Text.trimEnd_prefix (' ' :: List.intercalate [',', ' '] i.printed)
  rw [hfront] at hback
  exact (List.cons.inj hback).1

end Spelling

end Instruction

end FiveStage
