import FiveStage.Proofs.Reading.Answers
import FiveStage.Proofs.Reading.Extras

/-!
# The spellings of an address

The address of a load or store is an offset and a base, the base in parentheses or behind the
offset, or an offset alone. Blanks and commas may stand between all of these pieces. The words of
the address are taken apart and put together again before it is read, so that no spelling of it
differs from another one.
-/
namespace FiveStage

open Text (Free)

namespace MemoryOperand

variable {cs : List Char}

/-- Blanks within the form with parentheses make no difference. -/
theorem ofChars_of_enclosed {offset base : List Char}
    (h : enclosed? (Text.words cs).flatten = some (offset, base)) :
    ofChars cs = ⟨offsetOrZero offset, some (Register.ofChars base)⟩ := by
  rw [Text.flatten_words] at h
  rw [ofChars, h]

/-- Two words without parentheses are an offset and a base. -/
theorem ofChars_of_pair {offset base : List Char} (hwords : Text.words cs = [offset, base])
    (hoffset : Free isParen offset) (hbase : Free isParen base) :
    ofChars cs = ⟨offsetOrZero offset, some (Register.ofChars base)⟩ := by
  have hparen : Free isParen (Text.squeeze cs) := by
    rw [← Text.flatten_words, hwords, List.flatten_cons, List.flatten_singleton]
    exact List.forall_mem_append.mpr ⟨hoffset, hbase⟩
  rw [ofChars, enclosed?_of_free hparen, hwords]

end MemoryOperand

theorem Opcode.format_eq_memory_iff (op : Opcode) :
    op.format = .memory ↔ op.isLoad = true ∨ op.isStore = true := by
  cases op <;> decide

namespace Assembly

/-- The number that an offset stands for: its own if it is an immediate, and otherwise zero. -/
def OffsetValue (offset : List Char) (value : Int) : Prop :=
  Numeral offset value ∧ fitsWord value = true ∨ ¬ IsImmediate offset ∧ value = 0

theorem offsetValue_offsetOrZero (offset : List Char) :
    OffsetValue offset (MemoryOperand.offsetOrZero offset) := by
  rw [MemoryOperand.offsetOrZero]
  cases h : immediate? offset with
  | none => exact .inr ⟨immediate?_eq_none_iff.mp h, rfl⟩
  | some value => exact .inl (immediate?_eq_some_iff.mp h)

/-- The texts of an address, with the offset and the base that they spell. -/
inductive Address : List Char → List Char → Option (List Char) → Prop
  | enclosed {offset base before inside after : List Char} (hoffset : Free isDelimiter offset)
      (hbase : Free isDelimiter base) (hne : base ≠ []) (hbefore : ∀ c ∈ before, isGap c = true)
      (hinside : ∀ c ∈ inside, isGap c = true) (hafter : ∀ c ∈ after, isGap c = true) :
      Address (offset ++ before ++ '(' :: (inside ++ base ++ after ++ [')'])) offset (some base)
  | apart {offset base gap : List Char} (hoffset : Free isDelimiter offset) (hne : offset ≠ [])
      (h : Extra gap base) : Address (offset ++ gap ++ base) offset (some base)
  | alone {offset : List Char} (hoffset : Free isDelimiter offset) (hne : offset ≠ []) :
      Address offset offset none

section Joined

variable {text offset : List Char} {base : Option (List Char)}

/-- The parts of a text between gaps are the words of these parts joined by blanks. -/
theorem words_joined (text : List Char) :
    Text.words (List.intercalate [' '] (Text.fields isGap text)) = Text.fields isGap text := by
  have hblank : ∀ part ∈ Text.fields isGap text, Free Text.isBlank part := by
    intro part hpart c hc
    have hgap := Text.free_of_mem_fields hpart c hc
    rw [isGap, Bool.or_eq_false_iff] at hgap
    exact hgap.1
  rw [Text.words, Text.fields_intercalate (List.forall_mem_singleton.mpr (by decide))
    (List.cons_ne_nil _ _)]
  exact Text.flatMap_fields_of_ne_nil hblank fun part => Text.ne_nil_of_mem_fields

/-- An address is read as what it spells. -/
theorem Address.operand (h : Address text offset base) :
    MemoryOperand.ofChars (List.intercalate [' '] (Text.fields isGap text)) =
      ⟨MemoryOperand.offsetOrZero offset, base.map Register.ofChars⟩ := by
  cases h with
  | @enclosed offset base before inside after hoffset hbase hne hbefore hinside hafter =>
    refine MemoryOperand.ofChars_of_enclosed ?_
    rw [words_joined, Text.flatten_fields, MemoryOperand.enclosed?_eq_some_iff]
    refine ⟨?_, hoffset.paren, hbase.paren, hne⟩
    have hopen : isGap '(' = false := by decide
    have hclose : isGap ')' = false := by decide
    simp only [List.filter_append, List.filter_cons, Text.filter_of_free hoffset.gap,
      Text.filter_of_free hbase.gap, Text.filter_of_separators hbefore,
      Text.filter_of_separators hinside, Text.filter_of_separators hafter, hopen, hclose,
      Bool.not_false, if_true, List.append_nil, List.nil_append, List.filter_nil]
  | @apart offset base gap hoffset hne hextra =>
    refine MemoryOperand.ofChars_of_pair ?_ hoffset.paren hextra.word.paren
    rw [words_joined, Text.fields_append_gap hextra.gap hextra.gap_ne_nil,
      Text.fields_of_free hoffset.gap hne,
      Text.fields_of_free hextra.word.gap hextra.word_ne_nil]
    rfl
  | alone hoffset hne =>
    rw [Text.fields_of_free hoffset.gap hne, List.intercalate_singleton]
    exact MemoryOperand.ofChars_bare hoffset.blank hoffset.paren hne

/-- An address is one operand at least, opens no comment, and begins and ends with no blank. -/
theorem Address.fields_ne_nil (h : Address text offset base) :
    Text.fields isSeparator text ≠ [] := by
  have hword {cs : List Char} (hfree : Free isDelimiter cs) (hne : cs ≠ [])
      (hin : ∀ c ∈ cs, c ∈ text) : Text.fields isSeparator text ≠ [] := by
    obtain ⟨c, hc⟩ := List.exists_mem_of_ne_nil cs hne
    exact Text.fields_ne_nil (hin c hc) (separator_of_isDelimiter (hfree c hc))
  cases h with
  | enclosed _ hbase hne _ _ _ => exact hword hbase hne fun c hc => by simp [hc]
  | apart hoffset hne _ => exact hword hoffset hne fun c hc => by simp [hc]
  | alone hoffset hne => exact hword hoffset hne fun c hc => hc

theorem Address.marker (h : Address text offset base) : Free isMarker text := by
  have hgap {cs : List Char} (hgaps : ∀ c ∈ cs, isGap c = true) : Free isMarker cs :=
    fun c hc => marker_of_gap (hgaps c hc)
  cases h with
  | enclosed hoffset hbase _ hbefore hinside hafter =>
    simp only [Free, List.forall_mem_append, List.forall_mem_cons]
    exact ⟨⟨hoffset.marker, hgap hbefore⟩, by decide,
      ⟨⟨hgap hinside, hbase.marker⟩, hgap hafter⟩, by decide, List.forall_mem_nil _⟩
  | apart hoffset _ hextra =>
    rw [List.append_assoc]
    exact List.forall_mem_append.mpr ⟨hoffset.marker, hextra.marker⟩
  | alone hoffset _ => exact hoffset.marker

theorem Address.getLast?_not_blank (h : Address text offset base) :
    ∃ c, text.getLast? = some c ∧ Text.isBlank c = false := by
  have hword {cs : List Char} (hfree : Free isDelimiter cs) (hne : cs ≠ []) :
      ∃ c, cs.getLast? = some c ∧ Text.isBlank c = false := by
    refine ⟨cs.getLast hne, List.getLast?_eq_some_getLast hne, ?_⟩
    exact hfree.blank _ (List.getLast_mem hne)
  cases h with
  | @enclosed offset base before inside after hoffset hbase hne hbefore hinside hafter =>
    refine ⟨')', ?_, by decide⟩
    rw [← List.cons_append, ← List.append_assoc, List.getLast?_concat]
  | @apart offset base gap hoffset hne hextra =>
    obtain ⟨c, hc, hblank⟩ := hword hextra.word hextra.word_ne_nil
    exact ⟨c, by rw [List.getLast?_append_of_ne_nil _ hextra.word_ne_nil, hc], hblank⟩
  | alone hoffset hne => exact hword hoffset hne

end Joined

section Lines

variable {name rt gap between text offset : List Char} {base : Option (List Char)} {op : Opcode}

/-- A line that begins with the name of an opcode and ends in no blank is a statement. -/
theorem Names.statement_eq {code : List Char} {operands : List (List Char)} (h : Names name op)
    (htokens : tokens code = name :: operands) (hmarker : Free isMarker code)
    (hhead : ∀ c ∈ code.head?, Text.isBlank c = false)
    (hlast : ∀ c ∈ code.getLast?, Text.isBlank c = false) : statement code = code := by
  rw [statement_of_free hmarker, Text.trim_of_ends hhead hlast,
    dropLabel_of_unlabelled (h.not_labelled htokens)]

theorem fields_of_line {sep : Char → Bool} (hsep : ∀ c, isDelimiter c = false → sep c = false)
    (hgap : ∀ c, isGap c = true → sep c = true) (hname : Names name op) (h : Extra gap rt)
    (hbetween : ∀ c ∈ between, isGap c = true) (hne : between ≠ []) :
    Text.fields sep (name ++ gap ++ rt ++ between ++ text) =
      name :: rt :: Text.fields sep text := by
  rw [Text.fields_append_gap (fun c hc => hgap c (hbetween c hc)) hne,
    Text.fields_append_word (fun c hc => hgap c (h.gap c hc)) h.gap_ne_nil
      (fun c hc => hsep c (h.word c hc)) h.word_ne_nil,
    Text.fields_of_free (fun c hc => hsep c (hname.free c hc)) hname.ne_nil]
  rfl

section Spelled

variable (hname : Names name op) (hrt : Extra gap rt) (hbetween : ∀ c ∈ between, isGap c = true)
  (hne : between ≠ []) (haddress : Address text offset base)
include hname hrt hbetween hne haddress

/-- Such a line holds its own statement. -/
theorem statement_of_line : statement (name ++ gap ++ rt ++ between ++ text) =
    name ++ gap ++ rt ++ between ++ text := by
  have htokens : tokens (name ++ gap ++ rt ++ between ++ text) =
      name :: rt :: Text.fields isSeparator text :=
    fields_of_line (fun _ => separator_of_isDelimiter) (fun _ => separator_of_gap) hname hrt
      hbetween hne
  refine hname.statement_eq htokens ?_ ?_ ?_
  · rw [List.append_assoc name]
    simp only [Free, List.forall_mem_append]
    exact ⟨⟨⟨hname.free.marker, List.forall_mem_append.mp hrt.marker⟩,
      fun c hc => marker_of_gap (hbetween c hc)⟩, haddress.marker⟩
  · intro c hc
    simp only [List.append_assoc] at hc
    rw [List.head?_append_of_ne_nil _ hname.ne_nil] at hc
    exact Text.isBlank_of_isAlphanum
      (by simp [Char.isAlphanum, hname.isAlpha c (List.mem_of_head? hc)])
  · obtain ⟨c, hlast, hblank⟩ := haddress.getLast?_not_blank
    intro d hd
    rw [List.getLast?_append, hlast, Option.some_or] at hd
    cases hd
    exact hblank

end Spelled

/-- A load or store is read by what its address spells. It does not matter which gaps stand between
the pieces, nor whether the base is put in parentheses or behind the offset. The offset is its own
number if it is an immediate, and otherwise zero. -/
theorem address_spellings (hload : op.isLoad = true ∨ op.isStore = true) (hname : Names name op)
    (hrt : Extra gap rt) (hbetween : ∀ c ∈ between, isGap c = true) (hne : between ≠ [])
    (haddress : Address text offset base) :
    let line := name ++ gap ++ rt ++ between ++ text
    ∃ value, OffsetValue offset value ∧
      reading? line = some (.ok
        { id := 0, opcode := op, source := String.ofList line, rt := some (.ofChars rt)
          rs := base.map .ofChars, immediate := some value }) := by
  intro line
  have hmemory := op.format_eq_memory_iff.mpr hload
  have htokens : tokens line = name :: rt :: Text.fields isSeparator text :=
    fields_of_line (fun _ => separator_of_isDelimiter) (fun _ => separator_of_gap) hname hrt
      hbetween hne
  have hgaps : Text.fields isGap line = name :: rt :: Text.fields isGap text :=
    fields_of_line (fun _ => gap_of_isDelimiter) (fun _ => id) hname hrt hbetween hne
  have hoperand : MemoryOperand.ofChars (memoryText line) =
      ⟨MemoryOperand.offsetOrZero offset, base.map Register.ofChars⟩ := by
    rw [memoryText, hgaps]
    exact haddress.operand
  have hknown : sourceOpcode? name = some op := by
    rw [sourceOpcode?_eq_some_iff, Opcode.mem_written_iff, hmemory]
    exact ⟨by decide, hname⟩
  obtain ⟨address, more, hvisible⟩ := List.exists_cons_of_ne_nil haddress.fields_ne_nil
  have hread := @Reads.memory 0 op line rt address more hmemory
  rw [hoperand, ← hvisible] at hread
  refine ⟨_, offsetValue_offsetOrZero offset, ?_⟩
  have hstatement : statement line = line := statement_of_line hname hrt hbetween hne haddress
  have hne_nil : statement line ≠ [] := by
    rw [hstatement]
    simp [line, hname.ne_nil]
  rw [reading?_of_some hne_nil, hstatement]
  exact congrArg some (readStatement_eq_ok_iff.mpr ⟨name, _, op, htokens, hknown, hread⟩)

/-- Blanks and commas between all pieces, and no offset. -/
theorem address_spellings_of_spaced_load :
    let line := "Lw $t0 ,\t( ,$r2 )"
    ∃ value, OffsetValue [] value ∧ reading? line.toList = some (.ok
      { id := 0, opcode := .lw, source := line, rt := some ⟨"T0"⟩, rs := some ⟨"R2"⟩
        immediate := some value }) := by
  intro line
  have hname : Names "Lw".toList .lw := by decide +kernel
  have hrt : Extra " ".toList "$t0".toList := by decide +kernel
  have hbase : Free isDelimiter "$r2".toList := by decide +kernel
  have hbetween : ∀ c ∈ " ,\t".toList, isGap c = true := List.all_eq_true.mp (by decide)
  have hinside : ∀ c ∈ " ,".toList, isGap c = true := List.all_eq_true.mp (by decide)
  have hafter : ∀ c ∈ " ".toList, isGap c = true := List.all_eq_true.mp (by decide)
  have haddress := Address.enclosed (List.forall_mem_nil _) hbase (by decide)
    (List.forall_mem_nil _) hinside hafter
  obtain ⟨value, hvalue, hread⟩ :=
    address_spellings (.inl rfl) hname hrt hbetween (by decide) haddress
  have hline : "Lw".toList ++ " ".toList ++ "$t0".toList ++ " ,\t".toList ++ ([] ++ [] ++
      '(' :: (" ,".toList ++ "$r2".toList ++ " ".toList ++ [')'])) = line.toList := by
    decide +kernel
  have hregisters : Register.ofChars "$t0".toList = ⟨"T0"⟩ ∧
      Register.ofChars "$r2".toList = ⟨"R2"⟩ := by decide +kernel
  rw [hline, String.ofList_toList, hregisters.1, Option.map_some, hregisters.2] at hread
  exact ⟨value, hvalue, hread⟩

end Lines

end Assembly

end FiveStage
