import FiveStage.Proofs.Reading.Cleaning
import FiveStage.Proofs.Reading.Lines
import FiveStage.Proofs.Reading.Numeral
import FiveStage.Proofs.Reading.Statement

/-!
# One operand too many

A word added at the end of a line is one more token of its statement, unless the line has a comment,
which takes it in. The formats read their operands from the front, so they do not notice it. Only a
load or store reads its address from all that is left of the line. With a word behind it an address
is no longer in the form with parentheses, and is read by its first two words instead.
-/
namespace FiveStage

open Text (Free)

namespace Text

section Fields

variable {sep : Char → Bool}

/-- A word behind separators is one more field. -/
theorem fields_append_word {gap word : List Char} (hgap : ∀ c ∈ gap, sep c = true)
    (hgap_ne : gap ≠ []) (hword : Free sep word) (hne : word ≠ []) (cs : List Char) :
    fields sep (cs ++ gap ++ word) = fields sep cs ++ [word] := by
  rw [fields_append_gap hgap hgap_ne, fields_of_free hword hne]

end Fields

/-- A word more is joined as the others are. -/
theorem intercalate_concat {ws : List (List Char)} (sep word : List Char) (h : ws ≠ []) :
    List.intercalate sep (ws ++ [word]) = List.intercalate sep ws ++ sep ++ word := by
  match ws with
  | [] => exact absurd rfl h
  | [w] => simp [List.intercalate_cons_cons]
  | w :: v :: rest =>
    have hrest := intercalate_concat sep word (List.cons_ne_nil v rest)
    rw [List.cons_append, List.cons_append, List.intercalate_cons_cons, ← List.cons_append, hrest,
      List.intercalate_cons_cons]
    simp only [List.append_assoc]

end Text

namespace Assembly

/-- Blanks or commas, and then a word that could be an operand. -/
structure Extra (gap word : List Char) : Prop where
  gap_ne_nil : gap ≠ []
  gap : ∀ c ∈ gap, isGap c = true
  word_ne_nil : word ≠ []
  word : Free isDelimiter word

instance (gap word : List Char) : Decidable (Extra gap word) :=
  decidable_of_iff (gap ≠ [] ∧ gap.all isGap = true ∧ word ≠ [] ∧ Free isDelimiter word)
    ⟨fun ⟨hgap_ne, hgap, hne, hword⟩ => ⟨hgap_ne, List.all_eq_true.mp hgap, hne, hword⟩,
      fun ⟨hgap_ne, hgap, hne, hword⟩ => ⟨hgap_ne, List.all_eq_true.mpr hgap, hne, hword⟩⟩

section Characters

variable {c : Char} (h : isGap c = true)
include h

theorem separator_of_gap : isSeparator c = true := by
  rw [isGap, Bool.or_eq_true] at h
  rcases h with hblank | hcomma
  · simp [isSeparator, hblank]
  · simp [isSeparator, hcomma]

theorem marker_of_gap : isMarker c = false := by
  rw [Bool.eq_false_iff]
  intro hmarker
  simp only [isMarker, Bool.or_eq_true, beq_iff_eq] at hmarker
  rcases hmarker with rfl | rfl <;> exact absurd h (by decide)

theorem labelChar_of_gap : Text.isLabelChar c = false := by
  rw [Bool.eq_false_iff]
  intro hlabel
  rw [gap_of_isDelimiter (isDelimiter_of_isLabelChar hlabel)] at h
  cases h

theorem ne_colon_of_gap : c ≠ ':' := by
  rintro rfl
  exact absurd h (by decide)

end Characters

namespace Extra

variable {gap word : List Char}

theorem marker (h : Extra gap word) : Free isMarker (gap ++ word) :=
  List.forall_mem_append.mpr ⟨fun c hc => marker_of_gap (h.gap c hc), h.word.marker⟩

/-- More blanks make no difference. -/
theorem prepend (h : Extra gap word) {back : List Char}
    (hback : ∀ c ∈ back, Text.isBlank c = true) : Extra (back ++ gap) word where
  gap_ne_nil := List.append_ne_nil_of_right_ne_nil back h.gap_ne_nil
  gap := by
    intro c hc
    rcases List.mem_append.mp hc with hblank | hgap
    · rw [isGap, hback c hblank, Bool.true_or]
    · exact h.gap c hgap
  word_ne_nil := h.word_ne_nil
  word := h.word

theorem dropLabel_append (h : Extra gap word) {cs : List Char} (hcs : dropLabel cs ≠ []) :
    ∃ space, Extra space word ∧
      dropLabel (cs ++ gap ++ word) = dropLabel cs ++ space ++ word := by
  by_cases hlabelled : Labelled cs
  · obtain ⟨name, rest, hname, rfl⟩ := hlabelled
    rw [dropLabel_of_label hname] at hcs ⊢
    obtain ⟨back, hback, htrim⟩ := Text.trim_append_word hcs h.word.blank h.word_ne_nil gap
    refine ⟨back ++ gap, h.prepend hback, ?_⟩
    rw [← htrim, List.append_assoc, List.append_assoc, List.cons_append,
      dropLabel_of_label hname, List.append_assoc]
  · refine ⟨gap, h, ?_⟩
    have htail : ∀ c ∈ (gap ++ word).head?, Text.isLabelChar c = false ∧ c ≠ ':' := by
      intro c hc
      rw [List.head?_append_of_ne_nil _ h.gap_ne_nil] at hc
      have hgap := h.gap c (List.mem_of_head? hc)
      exact ⟨labelChar_of_gap hgap, ne_colon_of_gap hgap⟩
    rw [List.append_assoc, dropLabel_of_unlabelled (not_labelled_append hlabelled htail),
      dropLabel_of_unlabelled hlabelled, List.append_assoc]

/-- A line with a word more has a statement with a word more. -/
theorem statement_append (h : Extra gap word) {line : List Char} (hline : Free isMarker line)
    (hne : statement line ≠ []) : ∃ space, Extra space word ∧
      statement (line ++ gap ++ word) = statement line ++ space ++ word := by
  have hfree : Free isMarker (line ++ gap ++ word) := by
    rw [List.append_assoc]
    exact List.forall_mem_append.mpr ⟨hline, h.marker⟩
  rw [statement_of_free hline] at hne ⊢
  rw [statement_of_free hfree]
  have htrim_ne : Text.trim line ≠ [] := by
    intro hnil
    rw [hnil] at hne
    exact hne rfl
  obtain ⟨back, hback, htrim⟩ := Text.trim_append_word htrim_ne h.word.blank h.word_ne_nil gap
  rw [htrim]
  exact (h.prepend hback).dropLabel_append hne

theorem tokens_append (h : Extra gap word) (code : List Char) :
    tokens (code ++ gap ++ word) = tokens code ++ [word] :=
  Text.fields_append_word (fun c hc => separator_of_gap (h.gap c hc)) h.gap_ne_nil
    h.word.separator h.word_ne_nil code

/-- The word is one more word of an address that there is. -/
theorem memoryText_append (h : Extra gap word) {code : List Char} (hcode : memoryText code ≠ []) :
    memoryText (code ++ gap ++ word) = memoryText code ++ [' '] ++ word := by
  have hparts : (Text.fields isGap code).drop 2 ≠ [] := by
    intro hnil
    rw [memoryText, hnil] at hcode
    exact hcode rfl
  have hlength : 2 ≤ (Text.fields isGap code).length := by
    rw [Ne, List.drop_eq_nil_iff] at hparts
    omega
  rw [memoryText, Text.fields_append_word h.gap h.gap_ne_nil
    (fun c hc => gap_of_isDelimiter (h.word c hc)) h.word_ne_nil,
    List.drop_append_of_le_length hlength, Text.intercalate_concat _ _ hparts]
  rfl

end Extra

end Assembly

namespace MemoryOperand

variable {cs word : List Char}

/-- Nothing stands behind the parenthesis that closes. -/
theorem enclosed?_append_word (hword : Free isParen word) (hne : word ≠ []) :
    enclosed? (cs ++ word) = none := by
  rw [Option.eq_none_iff_forall_ne_some]
  rintro ⟨offset, base⟩ henclosed
  have hlast := congrArg List.getLast? (enclosed?_eq_some_iff.mp henclosed).1
  rw [List.getLast?_append_of_ne_nil _ hne, ← List.cons_append, ← List.append_assoc,
    List.getLast?_concat] at hlast
  exact absurd (hword ')' (List.mem_of_getLast? hlast)) (by decide)

/-- With a word behind it an address is read by its first two words. -/
theorem ofChars_append_word (hblank : Free Text.isBlank word) (hparen : Free isParen word)
    (hne : word ≠ []) (hcs : Text.words cs ≠ []) : ∃ offset base rest,
      Text.words cs ++ [word] = offset :: base :: rest ∧
        ofChars (cs ++ [' '] ++ word) = ⟨offsetOrZero offset, some (Register.ofChars base)⟩ := by
  have hsqueeze : Text.squeeze (cs ++ [' '] ++ word) = Text.squeeze cs ++ word := by
    have hspace : Text.squeeze [' '] = [] := by decide
    have happend (as bs : List Char) :
        Text.squeeze (as ++ bs) = Text.squeeze as ++ Text.squeeze bs := List.filter_append ..
    rw [happend, happend, hspace, List.append_nil, squeeze_of_free hblank]
  have hwords : Text.words (cs ++ [' '] ++ word) = Text.words cs ++ [word] :=
    Text.fields_append_word (List.forall_mem_singleton.mpr (by decide)) (List.cons_ne_nil _ _)
      hblank hne cs
  obtain ⟨offset, rest, hfirst⟩ := List.exists_cons_of_ne_nil hcs
  obtain ⟨base, rest', hsecond⟩ := List.exists_cons_of_ne_nil
    (List.append_ne_nil_of_right_ne_nil rest (List.cons_ne_nil word []))
  have hall : Text.words cs ++ [word] = offset :: base :: rest' := by
    rw [hfirst, List.cons_append, hsecond]
  refine ⟨offset, base, rest', hall, ?_⟩
  rw [ofChars, hsqueeze, enclosed?_append_word hparen hne, hwords, hall]

/-- The address in the form with parentheses, written as one word, is no number. -/
theorem offsetOrZero_of_enclosed {offset base : List Char}
    (h : enclosed? cs = some (offset, base)) : offsetOrZero cs = 0 := by
  have hparen : '(' ∈ cs := by
    rw [(enclosed?_eq_some_iff.mp h).1]
    exact List.mem_append_right _ List.mem_cons_self
  have hnone : Assembly.immediate? cs = none := by
    rw [Option.eq_none_iff_forall_ne_some]
    intro value hvalue
    have hfree := (Assembly.immediate?_eq_some_iff.mp hvalue).1.free
    exact absurd (hfree '(' hparen) (by decide)
  rw [offsetOrZero, hnone]
  rfl

end MemoryOperand

namespace Assembly

section Rules

variable {id : InstructionId} {op : Opcode} {code : List Char} {operands : List (List Char)}
  {i : Instruction}

theorem withOffset_source (i : Instruction) (source : String) (token : List Char) :
    withOffset { i with source } token = { withOffset i token with source } := by
  unfold withOffset
  split <;> rfl

/-- Every rule but the one for loads and stores reads its operands from the front, and nothing of
the statement but its text. -/
theorem Reads.extend (hop : op.format ≠ .memory) (h : Reads id op code operands i)
    (code' : List Char) (more : List (List Char)) :
    Reads id op code' (operands ++ more) { i with source := String.ofList code' } := by
  cases h with
  | registerRegister hf => exact .registerRegister hf
  | registerImmediate hf hvalue => exact .registerImmediate hf hvalue
  | memory hf => exact absurd hf hop
  | loadUpper hf hvalue => exact .loadUpper hf hvalue
  | branchEqual hf hi => exact .branchEqual hf (by rw [← hi, ← withOffset_source])
  | branchZero hf hi => exact .branchZero hf (by rw [← hi, ← withOffset_source])
  | jump hf => exact .jump hf
  | jumpRegister hf => exact .jumpRegister hf

/-- A load or store reads its address from the statement, and only rt from the tokens. -/
theorem Reads.extend_memory (hop : op.format = .memory) (h : Reads id op code operands i)
    (code' : List Char) (more : List (List Char)) :
    Reads id op code' (operands ++ more)
      { i with
        source := String.ofList code'
        immediate := some (MemoryOperand.ofChars (memoryText code')).offset
        rs := (MemoryOperand.ofChars (memoryText code')).base } := by
  cases h with
  | memory hf => exact .memory hf
  | registerRegister hf => exact absurd (hop.symm.trans hf) (by decide)
  | registerImmediate hf _ => exact absurd (hop.symm.trans hf) (by decide)
  | loadUpper hf _ => exact absurd (hop.symm.trans hf) (by decide)
  | branchEqual hf _ => exact absurd (hop.symm.trans hf) (by decide)
  | branchZero hf _ => exact absurd (hop.symm.trans hf) (by decide)
  | jump hf => exact absurd (hop.symm.trans hf) (by decide)
  | jumpRegister hf => exact absurd (hop.symm.trans hf) (by decide)

/-- Whatever is read has the opcode of its statement, and keeps the statement. -/
theorem Reads.opcode_source_eq (h : Reads id op code operands i) :
    i.opcode = op ∧ i.source = String.ofList code := by
  have hbranch {i j : Instruction} {token : List Char} (hi : withOffset i token = j) :
      j.opcode = i.opcode ∧ j.source = i.source := by
    subst hi
    unfold withOffset
    split <;> exact ⟨rfl, rfl⟩
  cases h with
  | branchEqual _ hi => exact hbranch hi
  | branchZero _ hi => exact hbranch hi
  | _ => exact ⟨rfl, rfl⟩

end Rules

section Lines

variable {line gap word : List Char} {i : Instruction}

theorem instruction?_eq_some_iff : instruction? line = some i ↔
    statement line ≠ [] ∧ readStatement 0 (statement line) = .ok i := by
  rw [instruction?]
  by_cases h : statement line = []
  · simp [reading?_of_none h, h]
  · rw [reading?_of_some h, and_iff_right h, Option.bind_some]
    cases readStatement 0 (statement line) <;> simp [Except.toOption]

/-- A word behind a line that has no comment is one more operand of the same opcode. -/
theorem Extra.instruction?_append (h : Extra gap word) (hline : Free isMarker line)
    (hread : instruction? line = some i) : ∃ space operands, Extra space word ∧
      Reads 0 i.opcode (statement line) operands i ∧
      ∀ j, Reads 0 i.opcode (statement line ++ space ++ word) (operands ++ [word]) j →
        instruction? (line ++ gap ++ word) = some j := by
  obtain ⟨hne, hok⟩ := instruction?_eq_some_iff.mp hread
  obtain ⟨name, operands, op, htokens, hop, hreads⟩ := readStatement_eq_ok_iff.mp hok
  obtain ⟨space, hspace, hstatement⟩ := h.statement_append hline hne
  rw [hreads.opcode_source_eq.1]
  refine ⟨space, operands, hspace, hreads, fun j hj => ?_⟩
  rw [instruction?_eq_some_iff, hstatement]
  refine ⟨List.append_ne_nil_of_right_ne_nil _ h.word_ne_nil, ?_⟩
  refine readStatement_eq_ok_iff.mpr ⟨name, operands ++ [word], op, ?_, hop, hj⟩
  rw [hspace.tokens_append, htokens, List.cons_append]

/-- An address in the form with parentheses, with a word behind it, is read by its first two words.
If it was written as one word, the offset is lost and the word behind it is the base. -/
theorem ofChars_enclosed_append_word {cs : List Char}
    (hcs : (MemoryOperand.enclosed? (Text.squeeze cs)).isSome = true) (h : Extra gap word) :
    ∃ offset base rest, Text.words cs ++ [word] = offset :: base :: rest ∧
      MemoryOperand.ofChars (cs ++ [' '] ++ word) =
        ⟨MemoryOperand.offsetOrZero offset, some (.ofChars base)⟩ ∧
      (rest = [] → MemoryOperand.offsetOrZero offset = 0 ∧ base = word) := by
  obtain ⟨⟨_, _⟩, henclosed⟩ := Option.isSome_iff_exists.mp hcs
  have hwords : Text.words cs ≠ [] := by
    intro hnil
    rw [← Text.flatten_words, hnil] at henclosed
    cases henclosed
  obtain ⟨offset, base, rest, hall, hread⟩ :=
    MemoryOperand.ofChars_append_word h.word.blank h.word.paren h.word_ne_nil hwords
  refine ⟨offset, base, rest, hall, hread, ?_⟩
  rintro rfl
  have hsplit : Text.words cs ++ [word] = [offset] ++ [base] := hall
  obtain ⟨hone, hbase⟩ := List.append_inj' hsplit rfl
  refine ⟨?_, (List.singleton_inj.mp hbase).symm⟩
  have hsqueeze : Text.squeeze cs = offset := by
    rw [← Text.flatten_words, hone, List.flatten_singleton]
  exact MemoryOperand.offsetOrZero_of_enclosed (hsqueeze ▸ henclosed)

/-- A line with a word more is accepted like the line itself, for a load or store if its address is
in the form with parentheses. The word is ignored, save by a load or store that no comment ends:
there the address is read by the first two words that now make it up. So an address that was written
as one word loses its offset, and its base is the word. -/
theorem extra_operand (hread : instruction? line = some i) (h : Extra gap word)
    (haddress : i.opcode.format = .memory →
      (MemoryOperand.enclosed? (Text.squeeze (memoryText (statement line)))).isSome = true) :
    ∃ j, instruction? (line ++ gap ++ word) = some j ∧
      j.opcode = i.opcode ∧ j.rd = i.rd ∧ j.rt = i.rt ∧ j.target = i.target ∧
      (i.opcode.format ≠ .memory ∨ ¬ Free isMarker line →
        j.rs = i.rs ∧ j.immediate = i.immediate) ∧
      (i.opcode.format = .memory ∧ Free isMarker line → ∃ offset base rest,
        Text.words (memoryText (statement line)) ++ [word] = offset :: base :: rest ∧
        j.rs = some (.ofChars base) ∧ j.immediate = some (MemoryOperand.offsetOrZero offset) ∧
        (rest = [] → j.rs = some (.ofChars word) ∧ j.immediate = some 0)) := by
  by_cases hline : Free isMarker line
  · obtain ⟨space, operands, hspace, hreads, hlonger⟩ := h.instruction?_append hline hread
    by_cases hmemory : i.opcode.format = .memory
    · have hcode : memoryText (statement line) ≠ [] := by
        intro hnil
        have hsome := haddress hmemory
        rw [hnil] at hsome
        cases hsome
      obtain ⟨offset, base, rest, hall, hoperand, hone⟩ :=
        ofChars_enclosed_append_word (haddress hmemory) h
      have hmore := hreads.extend_memory hmemory (statement line ++ space ++ word) [word]
      rw [hspace.memoryText_append hcode, hoperand] at hmore
      refine ⟨_, hlonger _ hmore, rfl, rfl, rfl, rfl, ?_, ?_⟩
      · rintro (hother | hcomment)
        · exact absurd hmemory hother
        · exact absurd hline hcomment
      · rintro -
        refine ⟨offset, base, rest, hall, rfl, rfl, fun hrest => ?_⟩
        obtain ⟨hzero, rfl⟩ := hone hrest
        exact ⟨rfl, congrArg some hzero⟩
    · have hmore := hreads.extend hmemory (statement line ++ space ++ word) [word]
      exact ⟨_, hlonger _ hmore, rfl, rfl, rfl, rfl, fun _ => ⟨rfl, rfl⟩,
        fun hboth => absurd hboth.1 hmemory⟩
  · have hsame : instruction? (line ++ gap ++ word) = some i := by
      rw [← hread, instruction?, instruction?, reading?, reading?, List.append_assoc,
        statement_append_of_comment hline]
    exact ⟨i, hsame, rfl, rfl, rfl, rfl, fun _ => ⟨rfl, rfl⟩, fun hboth => absurd hboth.2 hline⟩

/-- A labelled load, its address one word, with a comma and a word more. -/
theorem extra_operand_of_labelled_load :
    let line := "loop: lw $r2, 4(R1) ".toList
    ∃ i j, instruction? line = some i ∧ i.rs = some ⟨"R1"⟩ ∧ i.immediate = some 4 ∧
      instruction? (line ++ ", X".toList) = some j ∧ j.rt = i.rt ∧
      j.rs = some ⟨"X"⟩ ∧ j.immediate = some 0 := by
  intro line
  let i : Instruction :=
    { id := 0, opcode := .lw, source := "lw $r2, 4(R1)", rt := some ⟨"R2"⟩, rs := some ⟨"R1"⟩,
      immediate := some 4 }
  have hread : instruction? line = some i := by decide +kernel
  have hextra : Extra [',', ' '] ['X'] := by decide +kernel
  have hload : i.opcode.format = .memory ∧ Free isMarker line := by decide +kernel
  have hwords : Text.words (memoryText (statement line)) = ["4(R1)".toList] := by decide +kernel
  obtain ⟨j, hlonger, _, _, hrt, _, _, haddress⟩ :=
    extra_operand hread hextra fun _ => by decide +kernel
  obtain ⟨offset, base, rest, hall, _, _, hone⟩ := haddress hload
  rw [hwords] at hall
  obtain ⟨_, hbase⟩ := List.cons.inj hall
  obtain ⟨hrs, himmediate⟩ := hone (List.cons.inj hbase).2.symm
  exact ⟨i, j, hread, rfl, rfl, hlonger, hrt, hrs, himmediate⟩

/-- The word behind a load takes the place of its base, and the offset is lost. -/
theorem extra_operand_moves_address : ¬ ∀ {line gap word : List Char} {i : Instruction},
    instruction? line = some i → Extra gap word →
    (i.opcode.format = .memory →
      (MemoryOperand.enclosed? (Text.squeeze (memoryText (statement line)))).isSome = true) →
    ∃ j, instruction? (line ++ gap ++ word) = some j ∧ j.opcode = i.opcode ∧ j.rd = i.rd ∧
      j.rs = i.rs ∧ j.rt = i.rt ∧ j.immediate = i.immediate ∧ j.target = i.target := by
  intro hsame
  have hread : instruction? "LW R2, 4(R1)".toList = some
      { id := 0, opcode := .lw, source := "LW R2, 4(R1)", rt := some ⟨"R2"⟩, rs := some ⟨"R1"⟩,
        immediate := some 4 } := by decide +kernel
  have hlonger : instruction? "LW R2, 4(R1) X".toList = some
      { id := 0, opcode := .lw, source := "LW R2, 4(R1) X", rt := some ⟨"R2"⟩, rs := some ⟨"X"⟩,
        immediate := some 0 } := by decide +kernel
  have hextra : Extra [' '] ['X'] := by decide +kernel
  obtain ⟨j, hj, _, _, hrs, _⟩ := hsame hread hextra fun _ => by decide +kernel
  obtain rfl := Option.some.inj (hlonger.symm.trans hj)
  exact absurd hrs (by decide)

end Lines

end Assembly

end FiveStage
