import Mathlib
import FiveStage.Assembly.Statement
import FiveStage.Proofs.Reading.Fields

/-!
# Operands read from a text

What a register, an immediate and a memory operand are when they are read from a text, and when
such a text reads as itself. A register name loses one dollar sign each time it is read, so a name
that begins with one is another name when it is read again.
-/
namespace FiveStage

namespace Text

theorem isAlphanum_iff (c : Char) : c.isAlphanum = true ↔
    (65 ≤ c.toNat ∧ c.toNat ≤ 90 ∨ 97 ≤ c.toNat ∧ c.toNat ≤ 122) ∨
      48 ≤ c.toNat ∧ c.toNat ≤ 57 := by
  simp only [Char.isAlphanum, Char.isAlpha, Char.isUpper, Char.isLower, Char.isDigit,
    Bool.or_eq_true, Bool.and_eq_true, decide_eq_true_eq, ge_iff_le, UInt32.le_iff_toNat_le]
  exact Iff.rfl

theorem isBlank_of_isAlphanum {c : Char} (h : c.isAlphanum = true) : isBlank c = false := by
  rw [isAlphanum_iff] at h
  simp only [isBlank, blankRanges, List.any_cons, List.any_nil, Bool.or_false, Bool.or_eq_false_iff,
    Bool.and_eq_false_iff, decide_eq_false_iff_not]
  omega

/-- Folding the case keeps a character that is no letter, and makes no other character of one. -/
theorem apply_toUpper {sep : Char → Bool} (hsep : ∀ c, c.isAlpha = true → sep c = false)
    (c : Char) : sep c.toUpper = sep c := by
  by_cases h : c.isLower = true
  · have halpha : c.isAlpha = true := by simp [Char.isAlpha, h]
    have hupper : c.toUpper.isAlpha = true := by rw [Char.isAlpha_toUpper_eq_isAlpha, halpha]
    rw [hsep c halpha, hsep c.toUpper hupper]
  · rw [Char.toUpper_eq_of_not_isLower h]

theorem upperCase_upperCase (cs : List Char) : upperCase (upperCase cs) = upperCase cs := by
  simp only [upperCase, List.map_map]
  exact List.map_congr_left fun c _ => Char.toUpper_toUpper_eq_toUpper c

theorem free_upperCase {sep : Char → Bool} (hsep : ∀ c, c.isAlpha = true → sep c = false)
    {cs : List Char} (h : Free sep cs) : Free sep (upperCase cs) := by
  intro c hc
  obtain ⟨d, hd, rfl⟩ := List.mem_map.mp hc
  rw [apply_toUpper hsep, h d hd]

end Text

open Text (Free)

namespace Assembly

/-- A character that ends an operand or opens a comment. -/
def isDelimiter (c : Char) : Bool := isSeparator c || isMarker c

/-- The same with parentheses left to the operand. -/
def isLooseDelimiter (c : Char) : Bool := isGap c || isMarker c

theorem isDelimiter_eq (c : Char) :
    isDelimiter c = (isLooseDelimiter c || MemoryOperand.isParen c) := by
  simp only [isDelimiter, isLooseDelimiter, isSeparator, isGap, MemoryOperand.isParen]
  ac_rfl

theorem isDelimiter_of_isAlphanum {c : Char} (h : c.isAlphanum = true) : isDelimiter c = false := by
  have hother : ∀ d : Char, d.isAlphanum = false → (c == d) = false := by
    intro d hd
    rw [beq_eq_false_iff_ne]
    rintro rfl
    rw [h] at hd
    cases hd
  simp only [isDelimiter, isSeparator, isMarker, Text.isBlank_of_isAlphanum h, hother ',' rfl,
    hother '(' rfl, hother ')' rfl, hother '#' rfl, hother ';' rfl, Bool.or_false]

theorem free_delimiter {cs : List Char} : Free isDelimiter cs ↔
    Free isLooseDelimiter cs ∧ Free MemoryOperand.isParen cs := by
  simp only [Free, isDelimiter_eq, Bool.or_eq_false_iff, forall_and]

theorem free_loose {cs : List Char} : Free isLooseDelimiter cs ↔
    Free Text.isBlank cs ∧ (∀ c ∈ cs, c ≠ ',') ∧ Free isMarker cs := by
  simp only [Free, isLooseDelimiter, isGap, Bool.or_eq_false_iff, beq_eq_false_iff_ne, forall_and,
    and_assoc]

theorem isDelimiter_of_isAlpha {c : Char} (h : c.isAlpha = true) : isDelimiter c = false :=
  isDelimiter_of_isAlphanum (by simp [Char.isAlphanum, h])

theorem isDelimiter_of_isLabelChar {c : Char} (h : Text.isLabelChar c = true) :
    isDelimiter c = false := by
  rw [Text.isLabelChar, Bool.or_eq_true, beq_iff_eq] at h
  rcases h with halphanum | rfl
  · exact isDelimiter_of_isAlphanum halphanum
  · decide

theorem gap_of_loose {c : Char} (h : isLooseDelimiter c = false) : isGap c = false := by
  rw [isLooseDelimiter, Bool.or_eq_false_iff] at h
  exact h.1

section Undelimited

variable {c : Char} (h : isDelimiter c = false)
include h

theorem loose_of_isDelimiter : isLooseDelimiter c = false := by
  rw [isDelimiter_eq, Bool.or_eq_false_iff] at h
  exact h.1

theorem separator_of_isDelimiter : isSeparator c = false := by
  rw [isDelimiter, Bool.or_eq_false_iff] at h
  exact h.1

theorem gap_of_isDelimiter : isGap c = false := gap_of_loose (loose_of_isDelimiter h)

end Undelimited

end Assembly

open Assembly (isDelimiter isLooseDelimiter)

/-! A text without a delimiter has none of the characters that one part of the reading looks for. -/

namespace Text.Free

variable {cs : List Char} (h : Free isDelimiter cs)
include h

theorem loose : Free isLooseDelimiter cs := (Assembly.free_delimiter.mp h).1

theorem paren : Free MemoryOperand.isParen cs := (Assembly.free_delimiter.mp h).2

theorem blank : Free isBlank cs := (Assembly.free_loose.mp h.loose).1

theorem marker : Free Assembly.isMarker cs := (Assembly.free_loose.mp h.loose).2.2

theorem separator : Free Assembly.isSeparator cs :=
  fun c hc => Assembly.separator_of_isDelimiter (h c hc)

theorem gap : Free Assembly.isGap cs := fun c hc => Assembly.gap_of_isDelimiter (h c hc)

end Text.Free

namespace Register

/-- The name is not empty, does not begin with a dollar sign and holds no parenthesis. -/
def Plain (r : Register) : Prop :=
  r.name ≠ "" ∧ r.name.toList.head? ≠ some '$' ∧ Free MemoryOperand.isParen r.name.toList

instance (r : Register) : Decidable r.Plain :=
  inferInstanceAs (Decidable (_ ∧ _ ∧ _))

/-- A register that was read from a text without these characters. -/
def Written (sep : Char → Bool) (r : Register) : Prop :=
  (∃ s, r = ofText s) ∧ Free sep r.name.toList

theorem Written.loose {r : Register} (h : r.Written isDelimiter) : r.Written isLooseDelimiter :=
  ⟨h.1, h.2.loose⟩

theorem name_ofChars (cs : List Char) :
    (ofChars cs).name.toList = Text.upperCase (dropDollar (Text.trim cs)) := String.toList_ofList

theorem dropDollar_of_head {cs : List Char} (h : cs.head? ≠ some '$') : dropDollar cs = cs := by
  unfold dropDollar
  split
  · exact absurd rfl h
  · rfl

theorem mem_of_mem_dropDollar {cs : List Char} {c : Char} (h : c ∈ dropDollar cs) : c ∈ cs := by
  unfold dropDollar at h
  split at h
  · exact List.mem_cons_of_mem _ h
  · exact h

/-- A name without a dollar sign in front is read as itself. -/
theorem ofChars_name {r : Register} (hwritten : ∃ s, r = ofText s)
    (hblank : Free Text.isBlank r.name.toList) (hdollar : r.name.toList.head? ≠ some '$') :
    ofChars r.name.toList = r := by
  obtain ⟨s, rfl⟩ := hwritten
  have hupper : Text.upperCase (ofText s).name.toList = (ofText s).name.toList := by
    rw [ofText, name_ofChars, Text.upperCase_upperCase]
  rw [ofChars, Text.trim_of_free hblank, dropDollar_of_head hdollar, hupper, String.ofList_toList]

/-- A name that is read as itself has no dollar sign in front. -/
theorem head_ne_of_ofChars_name {r : Register} (hblank : Free Text.isBlank r.name.toList)
    (h : ofChars r.name.toList = r) : r.name.toList.head? ≠ some '$' := by
  intro hhead
  obtain ⟨rest, hname⟩ := List.head?_eq_some_iff.mp hhead
  have hshort : r.name.toList = Text.upperCase rest := by
    calc r.name.toList = (ofChars r.name.toList).name.toList := by rw [h]
      _ = Text.upperCase rest := by rw [name_ofChars, Text.trim_of_free hblank, hname, dropDollar]
  have hlength := congrArg List.length (hname.symm.trans hshort)
  rw [Text.upperCase, List.length_map, List.length_cons] at hlength
  exact Nat.succ_ne_self _ hlength

theorem written_ofChars {sep : Char → Bool} (hsep : ∀ c, c.isAlpha = true → sep c = false)
    {cs : List Char} (h : Free sep cs) : (ofChars cs).Written sep := by
  refine ⟨⟨String.ofList cs, by rw [ofText, String.toList_ofList]⟩, ?_⟩
  rw [name_ofChars]
  exact Text.free_upperCase hsep fun c hc => h c (Text.mem_of_mem_trim (mem_of_mem_dropDollar hc))

/-- A name without blanks is the name of some register if it is in capitals. -/
theorem written_iff {r : Register} : r.Written isDelimiter ↔
    Text.upperCase r.name.toList = r.name.toList ∧ Free isDelimiter r.name.toList := by
  constructor
  · rintro ⟨⟨s, rfl⟩, hfree⟩
    exact ⟨by rw [ofText, name_ofChars, Text.upperCase_upperCase], hfree⟩
  · rintro ⟨hupper, hfree⟩
    have hblank : Free Text.isBlank ('$' :: r.name.toList) :=
      List.forall_mem_cons.mpr ⟨by decide, fun c hc =>
        hfree.blank c hc⟩
    refine ⟨⟨String.ofList ('$' :: r.name.toList), ?_⟩, hfree⟩
    rw [ofText, String.toList_ofList, ofChars, Text.trim_of_free hblank, dropDollar, hupper,
      String.ofList_toList]

instance (r : Register) : Decidable (r.Written isDelimiter) := decidable_of_iff _ written_iff.symm

end Register

namespace Assembly

theorem digit?_of_isDigit {c : Char} (h : c.isDigit = true) :
    digit? 10 c = some (c.toNat - '0'.toNat) := by
  simp only [Char.isDigit, Bool.and_eq_true, decide_eq_true_eq] at h
  have hrange : '0' ≤ c ∧ c ≤ '9' := h
  have hle : c.toNat ≤ 57 := hrange.2
  have hzero : '0'.toNat = 48 := rfl
  have hlt : c.toNat - '0'.toNat < 10 := by omega
  rw [digit?, if_pos hrange, if_pos hlt]

theorem foldlM_digits {cs : List Char} (h : ∀ c ∈ cs, c.isDigit = true) (n : Nat) :
    cs.foldlM (fun value c => (digit? 10 c).map (10 * value + ·)) n =
      some (Nat.ofDigitChars 10 cs n) := by
  induction cs generalizing n with
  | nil => rfl
  | cons c cs ih =>
    obtain ⟨hc, hcs⟩ := List.forall_mem_cons.mp h
    rw [List.foldlM_cons, digit?_of_isDigit hc, Nat.ofDigitChars_cons]
    exact ih hcs _

theorem isDigit_toDigits (n : Nat) : ∀ c ∈ Nat.toDigits 10 n, c.isDigit = true :=
  fun _ hc => Nat.isDigit_of_mem_toDigits (by decide) (by decide) hc

theorem natural?_toDigits (n : Nat) : natural? 10 (Nat.toDigits 10 n) = some n := by
  rw [natural?, if_neg (by simp), foldlM_digits (isDigit_toDigits n), Nat.ofDigitChars_ten_toDigits]

theorem sign_of_digits {cs : List Char} (h : ∀ c ∈ cs, c.isDigit = true) :
    sign cs = (false, cs) := by
  unfold sign
  split
  · exact absurd (h '-' List.mem_cons_self) (by decide)
  · exact absurd (h '+' List.mem_cons_self) (by decide)
  · rfl

theorem radix_of_digits {cs : List Char} (h : ∀ c ∈ cs, c.isDigit = true) :
    radix cs = (10, cs) := by
  unfold radix
  split
  · exact absurd (h 'x' (List.mem_cons_of_mem _ List.mem_cons_self)) (by decide)
  · exact absurd (h 'X' (List.mem_cons_of_mem _ List.mem_cons_self)) (by decide)
  · rfl

theorem toList_repr_nat (n : Nat) : (Int.repr (Int.ofNat n)).toList = Nat.toDigits 10 n :=
  Nat.toList_repr

theorem toList_repr_neg (n : Nat) :
    (Int.repr (Int.negSucc n)).toList = '-' :: Nat.toDigits 10 (n + 1) := by
  show ("-" ++ Nat.repr (n + 1)).toList = _
  rw [String.toList_append, Nat.toList_repr]
  rfl

theorem immediate?_of_natural? {token unsigned digits : List Char} {negative : Bool} {base n : Nat}
    (hsign : sign token = (negative, unsigned)) (hradix : radix unsigned = (base, digits))
    (hn : natural? base digits = some n) (h : fitsWord (signed negative n) = true) :
    immediate? token = some (signed negative n) := by
  simp only [immediate?, hsign, hradix, hn, Option.bind_eq_bind, Option.bind_some]
  exact if_pos h

/-- A number that fits a word is read as it is printed. -/
theorem immediate?_repr {value : Int} (h : fitsWord value = true) :
    immediate? (Int.repr value).toList = some value := by
  -- Digits neither begin with a sign nor announce a base, so only the minus sign is taken off.
  cases value with
  | ofNat n =>
    have hdigits := isDigit_toDigits n
    rw [toList_repr_nat]
    exact immediate?_of_natural? (sign_of_digits hdigits) (radix_of_digits hdigits)
      (natural?_toDigits n) h
  | negSucc n =>
    have hsigned : Int.negSucc n = signed true (n + 1) := rfl
    have hdigits := isDigit_toDigits (n + 1)
    rw [toList_repr_neg, hsigned]
    rw [hsigned] at h
    exact immediate?_of_natural? rfl (radix_of_digits hdigits) (natural?_toDigits (n + 1)) h

theorem repr_ne_nil (value : Int) : (Int.repr value).toList ≠ [] := by
  cases value with
  | ofNat n =>
    rw [toList_repr_nat]
    simp
  | negSucc n =>
    rw [toList_repr_neg]
    exact List.cons_ne_nil _ _

/-- The text of a number is digits and a minus sign, so it is one operand. -/
theorem free_repr (value : Int) : Free isDelimiter (Int.repr value).toList := by
  have hdigits (n : Nat) : Free isDelimiter (Nat.toDigits 10 n) :=
    fun c hc => isDelimiter_of_isAlphanum (by simp [Char.isAlphanum, isDigit_toDigits n c hc])
  cases value with
  | ofNat n =>
    rw [toList_repr_nat]
    exact hdigits n
  | negSucc n =>
    rw [toList_repr_neg]
    exact List.forall_mem_cons.mpr ⟨by decide, hdigits (n + 1)⟩

end Assembly

namespace MemoryOperand

/-- The form with parentheses: what stands before the one that opens, and what is enclosed. -/
theorem enclosed?_eq_some_iff {cs offset base : List Char} :
    enclosed? cs = some (offset, base) ↔ cs = offset ++ '(' :: (base ++ [')']) ∧
      Free isParen offset ∧ Free isParen base ∧ base ≠ [] := by
  have hpass {cs : List Char} (h : Free isParen cs) : ∀ c ∈ cs, (!isParen c) = true :=
    fun c hc => by rw [h c hc]; rfl
  have hstop {cs : List Char} : Free isParen (cs.takeWhile fun c => !isParen c) :=
    fun c hc => by simpa using List.mem_takeWhile_imp hc
  constructor
  · intro h
    unfold enclosed? at h
    split at h
    · next rest hopen =>
      dsimp only at h
      split at h
      · next hclose =>
        obtain ⟨rfl, rfl⟩ := Prod.mk.inj (Option.some.inj h)
        simp only [Bool.and_eq_true, Bool.not_eq_true', List.isEmpty_eq_false_iff,
          beq_iff_eq] at hclose
        refine ⟨?_, hstop, hstop, hclose.1⟩
        rw [← hclose.2, List.takeWhile_append_dropWhile, ← hopen, List.takeWhile_append_dropWhile]
      · cases h
    · cases h
  · rintro ⟨rfl, hoffset, hbase, hne⟩
    have hopen : (offset ++ '(' :: (base ++ [')'])).dropWhile (fun c => !isParen c) =
        '(' :: (base ++ [')']) := by
      rw [List.dropWhile_append_of_pos (hpass hoffset)]
      rfl
    have hbefore : (offset ++ '(' :: (base ++ [')'])).takeWhile (fun c => !isParen c) = offset := by
      rw [List.takeWhile_append_of_pos (hpass hoffset)]
      exact List.append_nil offset
    have hinside : (base ++ [')']).takeWhile (fun c => !isParen c) = base := by
      rw [List.takeWhile_append_of_pos (hpass hbase)]
      exact List.append_nil base
    have hclose : (base ++ [')']).dropWhile (fun c => !isParen c) = [')'] := by
      rw [List.dropWhile_append_of_pos (hpass hbase)]
      rfl
    rw [enclosed?, hopen, hbefore]
    simp only [hinside, hclose]
    exact if_pos (by simp [hne])

theorem enclosed?_of_free {cs : List Char} (h : Free isParen cs) : enclosed? cs = none := by
  rw [Option.eq_none_iff_forall_ne_some]
  rintro ⟨offset, base⟩ henclosed
  obtain ⟨rfl, -⟩ := enclosed?_eq_some_iff.mp henclosed
  exact absurd (h '(' (List.mem_append_right _ List.mem_cons_self)) (by decide)

theorem fits_offsetOrZero (token : List Char) : Assembly.fitsWord (offsetOrZero token) = true := by
  unfold offsetOrZero
  cases h : Assembly.immediate? token with
  | none => decide
  | some value => exact Assembly.immediate?_fits h

/-- An offset is a word, whatever it was read from. -/
theorem fits_offset (cs : List Char) : Assembly.fitsWord (ofChars cs).offset = true := by
  rw [ofChars]
  split <;> exact fits_offsetOrZero _

section Compact

variable {cs : List Char}

theorem squeeze_of_free (h : Free Text.isBlank cs) : Text.squeeze cs = cs :=
  Text.filter_of_free h

theorem words_of_free (h : Free Text.isBlank cs) (hne : cs ≠ []) : Text.words cs = [cs] :=
  Text.fields_of_free h hne

/-- A text without blanks and parentheses is an offset. -/
theorem ofChars_bare (hblank : Free Text.isBlank cs) (hparen : Free isParen cs) (hne : cs ≠ []) :
    ofChars cs = ⟨offsetOrZero cs, none⟩ := by
  rw [ofChars, squeeze_of_free hblank, enclosed?_of_free hparen, words_of_free hblank hne]

theorem ofChars_enclosed {offset base : List Char}
    (hblank : Free Text.isBlank (offset ++ '(' :: (base ++ [')']))) (hoffset : Free isParen offset)
    (hbase : Free isParen base) (hne : base ≠ []) : ofChars (offset ++ '(' :: (base ++ [')'])) =
      ⟨offsetOrZero offset, some (Register.ofChars base)⟩ := by
  rw [ofChars, squeeze_of_free hblank, enclosed?_eq_some_iff.mpr ⟨rfl, hoffset, hbase, hne⟩]

/-- Without blanks there is a base only in the form with parentheses. -/
theorem exists_enclosed_of_base {r : Register} (hblank : Free Text.isBlank cs) (hne : cs ≠ [])
    (h : (ofChars cs).base = some r) : ∃ offset base,
      enclosed? cs = some (offset, base) ∧ r = Register.ofChars base := by
  rw [ofChars, squeeze_of_free hblank, words_of_free hblank hne] at h
  split at h
  · next _ offset base henclosed => exact ⟨offset, base, henclosed, (Option.some.inj h).symm⟩
  · next hwords => cases hwords
  · cases h

/-- A base is made of characters of the text that are no blanks. -/
theorem exists_base {r : Register} (h : (ofChars cs).base = some r) :
    ∃ base, (∀ c ∈ base, c ∈ cs ∧ Text.isBlank c = false) ∧ r = Register.ofChars base := by
  rw [ofChars] at h
  split at h
  · next offset base henclosed =>
    refine ⟨base, ?_, (Option.some.inj h).symm⟩
    intro c hc
    have hin : c ∈ Text.squeeze cs := by
      rw [(enclosed?_eq_some_iff.mp henclosed).1]
      exact List.mem_append_right _ (List.mem_cons_of_mem _ (List.mem_append_left _ hc))
    simpa [Text.squeeze] using hin
  · next offset base rest _ hwords =>
    refine ⟨base, ?_, (Option.some.inj h).symm⟩
    have hword : base ∈ Text.words cs := by
      rw [hwords]
      exact List.mem_cons_of_mem _ List.mem_cons_self
    exact fun c hc => ⟨Text.mem_of_mem_fields hword c hc, Text.free_of_mem_fields hword c hc⟩
  · cases h

end Compact

end MemoryOperand

end FiveStage
