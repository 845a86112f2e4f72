import FiveStage.Proofs.Reading.Cleaning
import FiveStage.Proofs.Reading.Numeral
import FiveStage.Proofs.Reading.Printing

/-!
# What a statement is answered

Of the faults a statement can have the first one is reported: its first token names no opcode of the
source language, too few operands follow it, or the operand that has to be a number is none. Every
other statement holds an instruction with the operand fields of its format. Operands are taken from
their places only after they were counted, and the count of a format covers all its places.
-/
namespace FiveStage

open Text (Free)

namespace Opcode

/-- The opcodes that a source line may use. -/
def written : List Opcode := all.filter fun op => op.format != .pseudo

theorem mem_written_iff {op : Opcode} : op ∈ written ↔ op.format ≠ .pseudo := by
  simp [written, mem_all]

theorem written_count : written.Nodup ∧ written.length = 31 := by decide

end Opcode

namespace Assembly

/-- The token is the name of the opcode in some letter case. -/
def Names (token : List Char) (op : Opcode) : Prop := Text.upperCase token = op.name.toList

instance (token : List Char) (op : Opcode) : Decidable (Names token op) :=
  inferInstanceAs (Decidable (_ = _))

/-- The text of a number that fits a signed 32-bit word. -/
def IsImmediate (token : List Char) : Prop :=
  ∃ value, Numeral token value ∧ fitsWord value = true

/-- The operand that has to be a number, in the formats that ask for one. -/
def immediateOperand? (op : Opcode) (operands : List (List Char)) : Option (List Char) :=
  match op.format with
  | .registerImmediate => operands[2]?
  | .loadUpper => operands[1]?
  | _ => none

/-- Operands taken from the places that the format gives them. There is no answer if one of these
lies past the last operand. -/
def readPlaces? (i : Instruction) (code : List Char) (operands : List (List Char)) :
    Option (Except LineError Instruction) :=
  let register (place : Nat) := (operands[place]?).map fun token => some (Register.ofChars token)
  match i.opcode.format with
  | .registerRegister => do
    let rd ← register 0
    let rs ← register 1
    let rt ← register 2
    return .ok { i with rd, rs, rt }
  | .registerImmediate => do
    let rt ← register 0
    let rs ← register 1
    let token ← operands[2]?
    return (immediate token).map fun value => { i with rt, rs, immediate := some value }
  | .memory => do
    let address := MemoryOperand.ofChars (memoryText code)
    let rt ← register 0
    return .ok { i with rt, immediate := some address.offset, rs := address.base }
  | .loadUpper => do
    let rt ← register 0
    let token ← operands[1]?
    return (immediate token).map fun value => { i with rt, immediate := some value }
  | .branchEqual => do
    let rs ← register 0
    let rt ← register 1
    let token ← operands[2]?
    return .ok (withOffset { i with rs, rt } token)
  | .branchZero => do
    let rs ← register 0
    let token ← operands[1]?
    return .ok (withOffset { i with rs } token)
  | .jump => do
    let target ← operands[0]?
    return .ok { i with target := some (String.ofList target) }
  | .jumpRegister => do
    let rs ← register 0
    return .ok { i with rs }
  | .pseudo => return .error (.unknownOpcode i.opcode.name)

/-- A statement whose operands are counted, and then taken from their places. -/
def readStatementByPlaces? (id : InstructionId) (code : List Char) :
    Option (Except LineError Instruction) :=
  let name := (tokens code).headD []
  let operands := (tokens code).tail
  match sourceOpcode? name with
  | none => some (.error (.unknownOpcode (String.ofList (Text.upperCase name))))
  | some op =>
    let count := op.format.operandCount
    if operands.length < count then
      some (.error (.missingOperands op count operands.length))
    else readPlaces? { id, opcode := op, source := String.ofList code } code operands

section Names

variable {token : List Char} {op : Opcode}

theorem upperCase_name (op : Opcode) : Text.upperCase op.name.toList = op.name.toList := by
  cases op <;> decide

/-- A token is taken for the opcode that it names, unless it is a pseudo operation. -/
theorem sourceOpcode?_eq_some_iff :
    sourceOpcode? token = some op ↔ op ∈ Opcode.written ∧ Names token op := by
  rw [sourceOpcode?, Option.filter_eq_some_iff, Opcode.mem_written_iff, bne_iff_ne, and_comm]
  refine and_congr_right fun _ => ⟨fun h => ?_, fun h => ?_⟩
  · rw [Opcode.ofName?] at h
    have hfound := List.find?_some h
    exact (beq_iff_eq.mp hfound).symm
  · have hsame : Opcode.ofName? token = Opcode.ofName? op.name.toList := by
      rw [Opcode.ofName?, Opcode.ofName?, upperCase_name, h]
    rw [hsame, Opcode.ofName?_name]

theorem sourceOpcode?_eq_none_iff :
    sourceOpcode? token = none ↔ ∀ op ∈ Opcode.written, ¬ Names token op := by
  rw [Option.eq_none_iff_forall_ne_some]
  refine forall_congr' fun op => ?_
  rw [Ne, sourceOpcode?_eq_some_iff, not_and]

/-- The name of an opcode is letters. -/
theorem Names.isAlpha (h : Names token op) : ∀ c ∈ token, c.isAlpha = true := by
  intro c hc
  have hupper : c.toUpper ∈ op.name.toList := by
    rw [← h]
    exact List.mem_map_of_mem hc
  rw [← Char.isAlpha_toUpper_eq_isAlpha]
  exact op.isAlpha_name _ hupper

theorem Names.ne_nil (h : Names token op) : token ≠ [] := by
  rintro rfl
  exact op.name_ne_nil h.symm

theorem Names.free (h : Names token op) : Free isDelimiter token :=
  fun c hc => isDelimiter_of_isAlpha (h.isAlpha c hc)

/-- A statement that begins with the name of an opcode has no label: a colon is no letter. -/
theorem Names.not_labelled {code : List Char} {operands : List (List Char)}
    (htokens : tokens code = token :: operands) (h : Names token op) : ¬ Labelled code := by
  rintro ⟨label, rest, hlabel, rfl⟩
  have hne : label ++ [':'] ≠ [] := List.append_ne_nil_of_right_ne_nil _ (List.cons_ne_nil _ _)
  obtain ⟨more, others, hfields⟩ := Text.fields_append_of_free hlabel.free.separator hne rest
  rw [List.append_assoc, List.singleton_append, ← tokens, htokens] at hfields
  obtain ⟨rfl, _⟩ := List.cons.inj hfields
  exact absurd (h.isAlpha ':' (by simp)) (by decide)

theorem immediate?_eq_none_iff : immediate? token = none ↔ ¬ IsImmediate token := by
  rw [Option.eq_none_iff_forall_ne_some, IsImmediate, not_exists]
  exact forall_congr' fun value => not_congr immediate?_eq_some_iff

end Names

section Operands

variable {id : InstructionId} {op : Opcode} {code : List Char} {operands : List (List Char)}
  {i : Instruction}

/-- Too few operands are refused, whatever they are. -/
theorem readOperands_of_lt (hwritten : op.format ≠ .pseudo)
    (h : operands.length < op.format.operandCount) :
    readOperands { id, opcode := op, source := String.ofList code } code operands =
      .error (.missingOperands op op.format.operandCount operands.length) := by
  unfold readOperands
  dsimp only
  generalize op.format = format at h hwritten
  cases format with
  | registerRegister | registerImmediate | branchEqual =>
    match operands, h with
    | [], _ | [_], _ | [_, _], _ => rfl
  | memory | loadUpper | branchZero =>
    match operands, h with
    | [], _ | [_], _ => rfl
  | jump | jumpRegister =>
    match operands, h with
    | [], _ => rfl
  | pseudo => exact absurd rfl hwritten

/-- No place that a format looks at lies past the operands that it asks for. -/
theorem readPlaces?_eq_some (h : i.opcode.format.operandCount ≤ operands.length) :
    readPlaces? i code operands = some (readOperands i code operands) := by
  unfold readPlaces? readOperands
  generalize i.opcode.format = format at h
  cases format with
  | registerRegister | registerImmediate | branchEqual =>
    match operands, h with
    | first :: second :: third :: more, _ => rfl
  | memory | loadUpper | branchZero =>
    match operands, h with
    | first :: second :: more, _ => rfl
  | jump | jumpRegister =>
    match operands, h with
    | first :: more, _ => rfl
  | pseudo => rfl

theorem immediate_of_not {token : List Char} (h : ¬ IsImmediate token) :
    immediate token = .error (.invalidImmediate (String.ofList token)) := by
  rw [immediate, immediate?_eq_none_iff.mpr h]

/-- Where the operand that has to be a number is none, it is what is reported. -/
theorem readOperands_of_not_immediate {token : List Char}
    (hcount : op.format.operandCount ≤ operands.length)
    (htoken : token ∈ immediateOperand? op operands) (h : ¬ IsImmediate token) :
    readOperands { id, opcode := op, source := String.ofList code } code operands =
      .error (.invalidImmediate (String.ofList token)) := by
  unfold readOperands
  unfold immediateOperand? at htoken
  dsimp only
  generalize op.format = format at hcount htoken
  cases format with
  | registerImmediate =>
    match operands, hcount with
    | rt :: rs :: third :: more, _ =>
      obtain rfl : third = token := Option.some.inj htoken
      exact congrArg (Except.map _) (immediate_of_not h)
  | loadUpper =>
    match operands, hcount with
    | rt :: second :: more, _ =>
      obtain rfl : second = token := Option.some.inj htoken
      exact congrArg (Except.map _) (immediate_of_not h)
  | _ => cases htoken

/-- Enough operands are read by the rule of the format, if a number stands where one has to. -/
theorem exists_reads (hwritten : op.format ≠ .pseudo)
    (hcount : op.format.operandCount ≤ operands.length)
    (h : ∀ token ∈ immediateOperand? op operands, IsImmediate token) :
    ∃ i, Reads id op code operands i := by
  unfold immediateOperand? at h
  cases hf : op.format with
  | registerRegister =>
    rw [hf] at hcount
    match operands, hcount with
    | rd :: rs :: rt :: more, _ => exact ⟨_, .registerRegister hf⟩
  | registerImmediate =>
    rw [hf] at hcount h
    match operands, hcount with
    | rt :: rs :: token :: more, _ =>
      obtain ⟨value, hvalue⟩ := h token rfl
      exact ⟨_, .registerImmediate hf (immediate?_eq_some_iff.mpr hvalue)⟩
  | memory =>
    rw [hf] at hcount
    match operands, hcount with
    | rt :: address :: more, _ => exact ⟨_, .memory hf⟩
  | loadUpper =>
    rw [hf] at hcount h
    match operands, hcount with
    | rt :: token :: more, _ =>
      obtain ⟨value, hvalue⟩ := h token rfl
      exact ⟨_, .loadUpper hf (immediate?_eq_some_iff.mpr hvalue)⟩
  | branchEqual =>
    rw [hf] at hcount
    match operands, hcount with
    | rs :: rt :: token :: more, _ => exact ⟨_, .branchEqual hf rfl⟩
  | branchZero =>
    rw [hf] at hcount
    match operands, hcount with
    | rs :: token :: more, _ => exact ⟨_, .branchZero hf rfl⟩
  | jump =>
    rw [hf] at hcount
    match operands, hcount with
    | target :: more, _ => exact ⟨_, .jump hf⟩
  | jumpRegister =>
    rw [hf] at hcount
    match operands, hcount with
    | rs :: more, _ => exact ⟨_, .jumpRegister hf⟩
  | pseudo => exact absurd hf hwritten

end Operands

section Statements

variable {id : InstructionId} {code : List Char} {op : Opcode}

theorem sourceOpcode?_nil : sourceOpcode? [] = none := by decide

/-- The first token alone decides whether the opcode is known. A statement without a token has the
empty one. -/
theorem readStatement_of_unknown (id : InstructionId)
    (h : sourceOpcode? ((tokens code).headD []) = none) : readStatement id code =
      .error (.unknownOpcode (String.ofList (Text.upperCase ((tokens code).headD [])))) := by
  unfold readStatement
  cases htokens : tokens code with
  | nil => rfl
  | cons name operands =>
    rw [htokens] at h
    simp only [List.headD_cons] at h ⊢
    rw [h]

theorem readStatement_of_known (id : InstructionId)
    (h : sourceOpcode? ((tokens code).headD []) = some op) : readStatement id code =
      readOperands { id, opcode := op, source := String.ofList code } code (tokens code).tail := by
  unfold readStatement
  cases htokens : tokens code with
  | nil =>
    rw [htokens, List.headD_nil, sourceOpcode?_nil] at h
    cases h
  | cons name operands =>
    rw [htokens, List.headD_cons] at h
    simp only [h, List.tail_cons]

/-- Counting the operands first makes sure that each is found at its place. -/
theorem readStatementByPlaces?_eq_some (id : InstructionId) (code : List Char) :
    readStatementByPlaces? id code = some (readStatement id code) := by
  unfold readStatementByPlaces?
  dsimp only
  cases h : sourceOpcode? ((tokens code).headD []) with
  | none => exact congrArg some (readStatement_of_unknown id h).symm
  | some op =>
    have hformat := Opcode.mem_written_iff.mp (sourceOpcode?_eq_some_iff.mp h).1
    rw [readStatement_of_known id h]
    by_cases hcount : (tokens code).tail.length < op.format.operandCount
    · exact (if_pos hcount).trans (congrArg some (readOperands_of_lt hformat hcount).symm)
    · exact (if_neg hcount).trans (readPlaces?_eq_some (Nat.le_of_not_lt hcount))

/-- What becomes of a statement whose opcode is known. -/
theorem readStatement_cases (id : InstructionId) (hwritten : op ∈ Opcode.written)
    (hname : Names ((tokens code).headD []) op) :
    let operands := (tokens code).tail
    operands.length < op.format.operandCount ∧ readStatement id code =
        .error (.missingOperands op op.format.operandCount operands.length) ∨
      op.format.operandCount ≤ operands.length ∧
        ((∃ token ∈ immediateOperand? op operands, ¬ IsImmediate token ∧
            readStatement id code = .error (.invalidImmediate (String.ofList token))) ∨
          (∀ token ∈ immediateOperand? op operands, IsImmediate token) ∧
            ∃ i, readStatement id code = .ok i ∧ Reads id op code operands i) := by
  intro operands
  have hformat := Opcode.mem_written_iff.mp hwritten
  rw [readStatement_of_known id (sourceOpcode?_eq_some_iff.mpr ⟨hwritten, hname⟩)]
  by_cases hcount : operands.length < op.format.operandCount
  · exact .inl ⟨hcount, readOperands_of_lt hformat hcount⟩
  · have henough := Nat.le_of_not_lt hcount
    refine .inr ⟨henough, ?_⟩
    by_cases himmediate : ∀ token ∈ immediateOperand? op operands, IsImmediate token
    · obtain ⟨i, hi⟩ := exists_reads hformat henough himmediate
      exact .inr ⟨himmediate, i, readOperands_eq_ok_iff.mpr hi, hi⟩
    · push Not at himmediate
      obtain ⟨token, htoken, hnot⟩ := himmediate
      exact .inl ⟨token, htoken, hnot, readOperands_of_not_immediate henough htoken hnot⟩

theorem readStatement_unknown_iff {text : String} :
    readStatement id code = .error (.unknownOpcode text) ↔
      (∀ op ∈ Opcode.written, ¬ Names ((tokens code).headD []) op) ∧
        text = String.ofList (Text.upperCase ((tokens code).headD [])) := by
  by_cases hnone : ∀ op ∈ Opcode.written, ¬ Names ((tokens code).headD []) op
  · rw [readStatement_of_unknown id (sourceOpcode?_eq_none_iff.mpr hnone), and_iff_right hnone,
      Except.error.injEq, LineError.unknownOpcode.injEq, eq_comm]
  · refine iff_of_false (fun h => ?_) fun h => hnone h.1
    push Not at hnone
    obtain ⟨op, hwritten, hname⟩ := hnone
    rcases readStatement_cases id hwritten hname with
      ⟨_, hanswer⟩ | ⟨_, ⟨_, _, _, hanswer⟩ | ⟨_, _, hanswer, _⟩⟩
    all_goals cases h.symm.trans hanswer

section Known

variable (hwritten : op ∈ Opcode.written) (hname : Names ((tokens code).headD []) op)
include hwritten hname

theorem readStatement_missing_iff {other : Opcode} {expected found : Nat} :
    readStatement id code = .error (.missingOperands other expected found) ↔
      (tokens code).tail.length < op.format.operandCount ∧ other = op ∧
        expected = op.format.operandCount ∧ found = (tokens code).tail.length := by
  rcases readStatement_cases id hwritten hname with
    ⟨hfew, hanswer⟩ | ⟨henough, ⟨_, _, _, hanswer⟩ | ⟨_, _, hanswer, _⟩⟩
  · rw [hanswer, and_iff_right hfew, Except.error.injEq, LineError.missingOperands.injEq]
    simp only [eq_comm]
  all_goals
    rw [hanswer]
    exact iff_of_false nofun fun h => absurd h.1 (Nat.not_lt.mpr henough)

variable (hcount : op.format.operandCount ≤ (tokens code).tail.length)
include hcount

theorem readStatement_invalid_iff {text : String} :
    readStatement id code = .error (.invalidImmediate text) ↔
      ∃ token ∈ immediateOperand? op (tokens code).tail,
        ¬ IsImmediate token ∧ text = String.ofList token := by
  rcases readStatement_cases id hwritten hname with
    ⟨hfew, _⟩ | ⟨_, ⟨token, htoken, hnot, hanswer⟩ | ⟨hall, _, hanswer, _⟩⟩
  · exact absurd hfew (Nat.not_lt.mpr hcount)
  · rw [hanswer, Except.error.injEq, LineError.invalidImmediate.injEq]
    constructor
    · rintro rfl
      exact ⟨token, htoken, hnot, rfl⟩
    · rintro ⟨other, hother, _, rfl⟩
      rw [Option.mem_unique htoken hother]
  · rw [hanswer]
    refine iff_of_false nofun ?_
    rintro ⟨token, htoken, hnot, _⟩
    exact hnot (hall token htoken)

theorem readStatement_ok_iff :
    (∃ i, readStatement id code = .ok i ∧ Reads id op code (tokens code).tail i ∧ i.Formed) ↔
      ∀ token ∈ immediateOperand? op (tokens code).tail, IsImmediate token := by
  rcases readStatement_cases id hwritten hname with
    ⟨hfew, _⟩ | ⟨_, ⟨token, htoken, hnot, hanswer⟩ | ⟨hall, i, hanswer, hreads⟩⟩
  · exact absurd hfew (Nat.not_lt.mpr hcount)
  · rw [hanswer]
    refine iff_of_false ?_ fun hall => hnot (hall token htoken)
    rintro ⟨_, hok, _⟩
    cases hok
  · exact iff_of_true ⟨i, hanswer, hreads, hreads.formed⟩ hall

end Known

/-- A statement is answered by its first fault. Its opcode is unknown just if its first token names
none of the 31 opcodes in any letter case. Otherwise operands are missing just if fewer follow than
the format asks for. Otherwise an immediate is invalid just if the operand that has to be a number
is none. Otherwise the statement holds an instruction, read by the rule of its format and with
exactly the operand fields of the format. All operands are found at their places. -/
theorem statement_answered (id : InstructionId) (code : List Char) :
    let name := (tokens code).headD []
    let operands := (tokens code).tail
    let answer := readStatement id code
    readStatementByPlaces? id code = some answer ∧
      Opcode.written.Nodup ∧ Opcode.written.length = 31 ∧
      (∀ text, answer = .error (.unknownOpcode text) ↔
        (∀ op ∈ Opcode.written, ¬ Names name op) ∧ text = String.ofList (Text.upperCase name)) ∧
      ∀ op ∈ Opcode.written, Names name op →
        (∀ other expected found, answer = .error (.missingOperands other expected found) ↔
          operands.length < op.format.operandCount ∧
            other = op ∧ expected = op.format.operandCount ∧ found = operands.length) ∧
        (op.format.operandCount ≤ operands.length →
          (∀ text, answer = .error (.invalidImmediate text) ↔
            ∃ token ∈ immediateOperand? op operands,
              ¬ IsImmediate token ∧ text = String.ofList token) ∧
          ((∃ i, answer = .ok i ∧ Reads id op code operands i ∧ i.Formed) ↔
            ∀ token ∈ immediateOperand? op operands, IsImmediate token)) := by
  intro name operands answer
  refine ⟨readStatementByPlaces?_eq_some id code, Opcode.written_count.1, Opcode.written_count.2,
    fun text => readStatement_unknown_iff, fun op hwritten hname => ⟨?_, fun hcount => ⟨?_, ?_⟩⟩⟩
  · exact fun other expected found => readStatement_missing_iff hwritten hname
  · exact fun text => readStatement_invalid_iff hwritten hname hcount
  · exact readStatement_ok_iff hwritten hname hcount

/-- An opcode in capitals and small letters, with an immediate one above the greatest word. -/
theorem statement_answered_of_overflow :
    let code := "Addi r1, r2, 0x80000000".toList
    Names "Addi".toList .addi ∧
      Format.operandCount .registerImmediate ≤ (tokens code).tail.length ∧
      readStatement 1 code = .error (.invalidImmediate "0x80000000") := by
  intro code
  have hname : Names ((tokens code).headD []) .addi := by decide +kernel
  have hcount : Format.operandCount .registerImmediate ≤ (tokens code).tail.length := by
    decide +kernel
  have htoken : immediateOperand? .addi (tokens code).tail = some "0x80000000".toList := by
    decide +kernel
  have hnot : ¬ IsImmediate "0x80000000".toList :=
    immediate?_eq_none_iff.mp (by decide +kernel)
  obtain ⟨_, _, _, _, hknown⟩ := statement_answered 1 code
  obtain ⟨_, henough⟩ := hknown .addi (Opcode.mem_written_iff.mpr (by decide)) hname
  exact ⟨by decide +kernel, hcount, ((henough hcount).1 _).mpr ⟨_, htoken, hnot, rfl⟩⟩

end Statements

end Assembly

end FiveStage
