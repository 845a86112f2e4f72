import Mathlib.Data.Nat.Digits.Defs
import FiveStage.Proofs.Reading.Operand

/-!
# The grammar of immediates

A numeral is a sign or none, the mark of a base or none, and one or more digits of that base. It
stands for the sum of its digits by their places. An immediate is a numeral whose number fits a
word, and every other text is refused. A counter of 63 bits that gives up where a step would leave
it is large enough to read them all.
-/
namespace FiveStage.Assembly

/-- The character is the digit, a letter in either case. -/
def IsDigit (base digit : Nat) (c : Char) : Prop :=
  digit < base ∧ (c = Nat.digitChar digit ∨ c = (Nat.digitChar digit).toUpper)

inductive SignMark : List Char → Bool → Prop
  | absent : SignMark [] false
  | plus : SignMark ['+'] false
  | minus : SignMark ['-'] true

inductive BaseMark : List Char → Nat → Prop
  | absent : BaseMark [] 10
  | lower : BaseMark ['0', 'x'] 16
  | upper : BaseMark ['0', 'X'] 16

/-- The text stands for the number. The last of its digits counts ones. -/
inductive Numeral : List Char → Int → Prop
  | intro {sign mark cs : List Char} {negative : Bool} {base : Nat} {digits : List Nat}
      (hsign : SignMark sign negative) (hmark : BaseMark mark base)
      (hdigits : List.Forall₂ (IsDigit base) digits cs) (hne : cs ≠ []) :
      Numeral (sign ++ mark ++ cs) (signed negative (Nat.ofDigits base digits.reverse))

/-- One or more digits, read in a counter that gives up where a step would reach the bound. -/
def naturalBelow? (bound base : Nat) (cs : List Char) : Option Nat :=
  if cs.isEmpty then none
  else cs.foldlM (fun value c => (digit? base c).bind fun digit =>
    if base * value + digit < bound then some (base * value + digit) else none) 0

/-- An immediate, its digits read in a counter below a bound. -/
def immediateBelow? (bound : Nat) (token : List Char) : Option Int := do
  let (negative, unsigned) := sign token
  let (base, digits) := radix unsigned
  let value := signed negative (← naturalBelow? bound base digits)
  if fitsWord value then some value else none

section Digits

variable {base digit : Nat} {c : Char}

theorem digitChar_of_le_nine (h : digit ≤ 9) : Nat.digitChar digit = Char.ofNat (48 + digit) := by
  revert digit
  decide

theorem digitChar_of_letter (h : digit ≤ 5) :
    Nat.digitChar (digit + 10) = Char.ofNat (97 + digit) ∧
      (Nat.digitChar (digit + 10)).toUpper = Char.ofNat (65 + digit) := by
  revert digit
  decide

theorem eq_ofNat_add {start : Nat} (h : start ≤ c.toNat) :
    c = Char.ofNat (start + (c.toNat - start)) := by
  rw [Nat.add_sub_cancel' h, Char.ofNat_toNat]

theorem digit?_digitChar (h : digit < 16) : digit? 16 (Nat.digitChar digit) = some digit ∧
    digit? 16 (Nat.digitChar digit).toUpper = some digit := by
  revert digit
  decide

/-- Sixteen is the largest base, and the digits of a smaller one are the first of its digits. -/
theorem digit?_eq_some_iff_sixteen (hbase : base ≤ 16) :
    digit? base c = some digit ↔ digit < base ∧ digit? 16 c = some digit := by
  simp only [digit?, Option.ite_none_right_eq_some, Option.some_inj]
  split
  · omega
  · split
    · omega
    · split <;> omega

/-- A character is read as the digit that it is. -/
theorem digit?_eq_some_iff (hbase : base ≤ 16) :
    digit? base c = some digit ↔ IsDigit base digit c := by
  rw [digit?_eq_some_iff_sixteen hbase, IsDigit]
  refine and_congr_right fun hlt => ⟨fun h => ?_, ?_⟩
  · rw [digit?, Option.ite_none_right_eq_some, Option.some_inj] at h
    obtain ⟨_, hvalue⟩ := h
    split at hvalue
    · next hrange =>
      subst hvalue
      have hfrom : 48 ≤ c.toNat := hrange.1
      have hto : c.toNat ≤ 57 := hrange.2
      exact .inl ((eq_ofNat_add hfrom).trans (digitChar_of_le_nine (by omega)).symm)
    · split at hvalue
      · next hrange =>
        subst hvalue
        have hfrom : 97 ≤ c.toNat := hrange.1
        have hto : c.toNat ≤ 102 := hrange.2
        exact .inl ((eq_ofNat_add hfrom).trans (digitChar_of_letter (by omega)).1.symm)
      · split at hvalue
        · next hrange =>
          subst hvalue
          have hfrom : 65 ≤ c.toNat := hrange.1
          have hto : c.toNat ≤ 70 := hrange.2
          exact .inr ((eq_ofNat_add hfrom).trans (digitChar_of_letter (by omega)).2.symm)
        · omega
  · obtain ⟨hlower, hupper⟩ := digit?_digitChar (hlt.trans_le hbase)
    rintro (rfl | rfl)
    · exact hlower
    · exact hupper

/-- Digits are read from the front, and each one moves the ones before it up by a place. -/
theorem foldlM_digit?_eq_some_iff (hbase : base ≤ 16) {cs : List Char} {start n : Nat} :
    cs.foldlM (fun value c => (digit? base c).map (base * value + ·)) start = some n ↔
      ∃ digits, List.Forall₂ (IsDigit base) digits cs ∧
        digits.foldl (fun value digit => base * value + digit) start = n := by
  induction cs generalizing start with
  | nil =>
    rw [List.foldlM_nil]
    constructor
    · intro h
      exact ⟨[], .nil, Option.some.inj h⟩
    · rintro ⟨digits, hdigits, rfl⟩
      cases hdigits
      rfl
  | cons c cs ih =>
    rw [List.foldlM_cons, Option.bind_eq_bind, Option.bind_eq_some_iff]
    constructor
    · rintro ⟨value, hvalue, hrest⟩
      obtain ⟨digit, hdigit, rfl⟩ := Option.map_eq_some_iff.mp hvalue
      obtain ⟨digits, hdigits, rfl⟩ := ih.mp hrest
      exact ⟨digit :: digits, .cons ((digit?_eq_some_iff hbase).mp hdigit) hdigits, rfl⟩
    · rintro ⟨digits, hdigits, rfl⟩
      cases hdigits with
      | @cons digit _ digits _ hdigit hrest =>
        refine ⟨base * start + digit, ?_, ih.mpr ⟨digits, hrest, rfl⟩⟩
        exact Option.map_eq_some_iff.mpr ⟨digit, (digit?_eq_some_iff hbase).mpr hdigit, rfl⟩

theorem natural?_eq_some_iff (hbase : base ≤ 16) {cs : List Char} {n : Nat} :
    natural? base cs = some n ↔ cs ≠ [] ∧ ∃ digits, List.Forall₂ (IsDigit base) digits cs ∧
      Nat.ofDigits base digits.reverse = n := by
  rw [natural?]
  cases cs with
  | nil => simp
  | cons c cs =>
    rw [if_neg (by simp), foldlM_digit?_eq_some_iff hbase, and_iff_right (List.cons_ne_nil c cs)]
    refine exists_congr fun digits => and_congr_right fun _ => ?_
    rw [Nat.ofDigits_eq_foldr, List.foldr_reverse]
    simp only [Nat.cast_id, Nat.add_comm]

end Digits

section Marks

variable {token : List Char} {value : Int}

theorem BaseMark.le_sixteen {mark : List Char} {base : Nat} (h : BaseMark mark base) :
    base ≤ 16 := by
  cases h <;> decide

theorem IsDigit.isDigit {digit : Nat} {c : Char} (h : IsDigit 10 digit c) : c.isDigit = true := by
  obtain ⟨hlt, rfl | rfl⟩ := h
  · revert digit
    decide
  · revert digit
    decide

/-- A sign is taken off. -/
theorem exists_sign (token : List Char) :
    ∃ mark, SignMark mark (sign token).1 ∧ token = mark ++ (sign token).2 := by
  unfold sign
  split
  · exact ⟨['-'], .minus, rfl⟩
  · exact ⟨['+'], .plus, rfl⟩
  · exact ⟨[], .absent, rfl⟩

theorem exists_radix (unsigned : List Char) :
    ∃ mark, BaseMark mark (radix unsigned).1 ∧ unsigned = mark ++ (radix unsigned).2 := by
  unfold radix
  split
  · exact ⟨['0', 'x'], .lower, rfl⟩
  · exact ⟨['0', 'X'], .upper, rfl⟩
  · exact ⟨[], .absent, rfl⟩

theorem isDigit_of_forall₂ {digits : List Nat} {cs : List Char}
    (h : List.Forall₂ (IsDigit 10) digits cs) : ∀ c ∈ cs, c.isDigit = true := by
  induction h with
  | nil => exact fun _ hc => nomatch hc
  | cons hdigit _ ih => exact List.forall_mem_cons.mpr ⟨hdigit.isDigit, ih⟩

/-- Digits do not begin with a sign and do not announce a base, so both marks are told apart from
them. -/
theorem sign_radix_of_marks {mark announced cs : List Char} {negative : Bool} {base : Nat}
    {digits : List Nat} (hsign : SignMark mark negative) (hbase : BaseMark announced base)
    (hdigits : List.Forall₂ (IsDigit base) digits cs) :
    sign (mark ++ announced ++ cs) = (negative, announced ++ cs) ∧
      radix (announced ++ cs) = (base, cs) := by
  constructor
  · cases hsign with
    | absent =>
      cases hbase with
      | absent => exact sign_of_digits (isDigit_of_forall₂ hdigits)
      | lower => rfl
      | upper => rfl
    | plus => rfl
    | minus => rfl
  · cases hbase with
    | absent => exact radix_of_digits (isDigit_of_forall₂ hdigits)
    | lower => rfl
    | upper => rfl

theorem immediate?_eq_some_iff :
    immediate? token = some value ↔ Numeral token value ∧ fitsWord value = true := by
  constructor
  · intro h
    obtain ⟨mark, hsign, htoken⟩ := exists_sign token
    obtain ⟨announced, hbase, hunsigned⟩ := exists_radix (sign token).2
    simp only [immediate?, Option.bind_eq_bind, Option.bind_eq_some_iff,
      Option.ite_none_right_eq_some, Option.some_inj] at h
    obtain ⟨n, hn, hfits, rfl⟩ := h
    obtain ⟨hne, digits, hdigits, rfl⟩ := (natural?_eq_some_iff hbase.le_sixteen).mp hn
    have hnumeral := Numeral.intro hsign hbase hdigits hne
    rw [List.append_assoc, ← hunsigned, ← htoken] at hnumeral
    exact ⟨hnumeral, hfits⟩
  · rintro ⟨h, hfits⟩
    cases h with
    | @intro mark announced cs negative base digits hsign hbase hdigits hne =>
      obtain ⟨hs, hr⟩ := sign_radix_of_marks hsign hbase hdigits
      refine immediate?_of_natural? hs hr ?_ hfits
      exact (natural?_eq_some_iff hbase.le_sixteen).mpr ⟨hne, digits, hdigits, rfl⟩

theorem IsDigit.delimiter {base digit : Nat} {c : Char} (h : IsDigit base digit c)
    (hbase : base ≤ 16) : isDelimiter c = false := by
  obtain ⟨hlt, hc⟩ := h
  have hdigits : ∀ digit < 16, (Nat.digitChar digit).isAlphanum = true ∧
      (Nat.digitChar digit).toUpper.isAlphanum = true := by decide
  obtain ⟨hlower, hupper⟩ := hdigits digit (by omega)
  rcases hc with rfl | rfl
  · exact isDelimiter_of_isAlphanum hlower
  · exact isDelimiter_of_isAlphanum hupper

/-- A numeral is one operand. -/
theorem Numeral.free {token : List Char} {value : Int} (h : Numeral token value) :
    Text.Free isDelimiter token := by
  cases h with
  | @intro sign mark cs negative base digits hsign hmark hdigits hne =>
    have hsign_free : Text.Free isDelimiter sign := by cases hsign <;> decide
    have hmark_free : Text.Free isDelimiter mark := by cases hmark <;> decide
    have hcs : Text.Free isDelimiter cs := by
      clear hne
      induction hdigits with
      | nil => exact fun _ hc => nomatch hc
      | cons hdigit _ ih => exact List.forall_mem_cons.mpr ⟨hdigit.delimiter hmark.le_sixteen, ih⟩
    exact List.forall_mem_append.mpr ⟨List.forall_mem_append.mpr ⟨hsign_free, hmark_free⟩, hcs⟩

end Marks

section Counter

variable {bound base : Nat} {cs : List Char}

theorem le_of_foldlM (hbase : 0 < base) {start n : Nat}
    (h : cs.foldlM (fun value c => (digit? base c).map (base * value + ·)) start = some n) :
    start ≤ n := by
  induction cs generalizing start with
  | nil => exact Nat.le_of_eq (Option.some.inj h)
  | cons c cs ih =>
    rw [List.foldlM_cons, Option.bind_eq_bind, Option.bind_eq_some_iff] at h
    obtain ⟨value, hvalue, hrest⟩ := h
    obtain ⟨digit, _, rfl⟩ := Option.map_eq_some_iff.mp hvalue
    exact (Nat.le_mul_of_pos_left start hbase).trans ((Nat.le_add_right _ _).trans (ih hrest))

/-- The numbers on the way never fall, so a counter gives up just if the last one is out of its
reach. -/
theorem foldlM_below (hbase : 0 < base) {start : Nat} (hstart : start < bound) :
    cs.foldlM (fun value c => (digit? base c).bind fun digit =>
        if base * value + digit < bound then some (base * value + digit) else none) start =
      (cs.foldlM (fun value c => (digit? base c).map (base * value + ·)) start).filter
        (· < bound) := by
  induction cs generalizing start with
  | nil =>
    rw [List.foldlM_nil, List.foldlM_nil]
    exact (if_pos (decide_eq_true hstart)).symm
  | cons c cs ih =>
    rw [List.foldlM_cons, List.foldlM_cons]
    cases digit? base c with
    | none => rfl
    | some digit =>
      by_cases hnext : base * start + digit < bound
      · rw [Option.bind_some, if_pos hnext]
        exact ih hnext
      · rw [Option.bind_some, if_neg hnext]
        symm
        rw [Option.map_some, Option.bind_eq_bind, Option.bind_some, Option.bind_none,
          Option.filter_eq_none_iff]
        intro n hn
        have hle := le_of_foldlM hbase hn
        simp only [decide_eq_true_eq]
        omega

theorem naturalBelow?_eq (hbase : 0 < base) (hbound : 0 < bound) (cs : List Char) :
    naturalBelow? bound base cs = (natural? base cs).filter (· < bound) := by
  rw [naturalBelow?, natural?]
  split
  · rfl
  · exact foldlM_below hbase hbound

/-- A number that fits a word is no larger than the least one. -/
theorem le_of_fitsWord {negative : Bool} {n : Nat} (h : fitsWord (signed negative n) = true) :
    n ≤ 2147483648 := by
  simp only [fitsWord, Bool.and_eq_true, decide_eq_true_eq] at h
  cases negative <;> simp only [signed, if_true, if_false, Bool.false_eq_true] at h <;> omega

/-- A counter that holds the largest magnitude of a word reads every immediate. -/
theorem immediateBelow?_eq (hbound : 2147483648 < bound) (token : List Char) :
    immediateBelow? bound token = immediate? token := by
  obtain ⟨_, hmark, _⟩ := exists_radix (sign token).2
  have hbase : 0 < (radix (sign token).2).1 := by
    generalize (radix (sign token).2).1 = base at hmark
    cases hmark <;> decide
  simp only [immediateBelow?, immediate?, naturalBelow?_eq hbase (Nat.zero_lt_of_lt hbound)]
  cases natural? (radix (sign token).2).1 (radix (sign token).2).2 with
  | none => rfl
  | some n =>
    by_cases hn : n < bound
    · rw [Option.filter_some, if_pos (decide_eq_true hn)]
    · have hunfit : fitsWord (signed (sign token).1 n) ≠ true := by
        intro hfits
        have hle := le_of_fitsWord hfits
        omega
      rw [Option.filter_some, if_neg (by simpa using hn)]
      exact (if_neg hunfit).symm

end Counter

/-- A text is an immediate just if it is a numeral whose number lies in a signed 32-bit word, and
then it is read as that number. Any other text is refused as it stands. The digits can be read in a
counter of 63 bits, however many there are: one that gives up reads no other immediates. -/
theorem immediate_grammar (token : String) :
    (∀ value, immediate token.toList = .ok value ↔
        Numeral token.toList value ∧ -2 ^ 31 ≤ value ∧ value ≤ 2 ^ 31 - 1) ∧
      (immediate token.toList = .error (.invalidImmediate token) ↔
        ¬ ∃ value, Numeral token.toList value ∧ -2 ^ 31 ≤ value ∧ value ≤ 2 ^ 31 - 1) ∧
      immediateBelow? (2 ^ 63) token.toList = immediate? token.toList := by
  have hword (value : Int) : fitsWord value = true ↔ -2 ^ 31 ≤ value ∧ value ≤ 2 ^ 31 - 1 := by
    simp only [fitsWord, Bool.and_eq_true, decide_eq_true_eq]
    omega
  have hread (value : Int) : immediate? token.toList = some value ↔
      Numeral token.toList value ∧ -2 ^ 31 ≤ value ∧ value ≤ 2 ^ 31 - 1 := by
    rw [immediate?_eq_some_iff, hword]
  refine ⟨fun value => ?_, ?_, immediateBelow?_eq (by decide) _⟩
  · rw [← hread, immediate]
    cases immediate? token.toList with
    | none => exact iff_of_false nofun nofun
    | some found => simp
  · simp only [← hread]
    rw [immediate]
    cases immediate? token.toList with
    | none => simp
    | some found => simp

/-- The least word, in capitals and with zeros in front, and one less. -/
example : immediate "-0X00000000000000000000080000000".toList = .ok (-2147483648) ∧
    immediate "-2147483649".toList = .error (.invalidImmediate "-2147483649") := by
  decide +kernel

end FiveStage.Assembly
