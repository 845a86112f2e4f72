import FiveStage.Assembly.Statement
import FiveStage.Proofs.Loading
import FiveStage.Proofs.Reading.Operand

/-!
# What is left of a line

A comment takes in all that stands behind its marker. Of the rest, blanks at the ends and one label
in front are dropped. So what is added at the end of a line without a comment stays at the end of
its statement, and only the blanks before it are more than they were.
-/
namespace FiveStage

open Text (Free)

namespace Text

theorem head?_trim (cs : List Char) : ∀ c ∈ (trim cs).head?, isBlank c = false := by
  intro c hc
  obtain ⟨back, hback⟩ := trimEnd_prefix (trimStart cs)
  have hne : trim cs ≠ [] := List.ne_nil_of_mem (List.mem_of_head? hc)
  have hhead : (cs.dropWhile isBlank).head? = some c := by
    rw [← trimStart, ← hback]
    exact (List.head?_append_of_ne_nil _ hne).trans hc
  have hfirst := List.head?_dropWhile_not isBlank cs
  rwa [hhead] at hfirst

theorem getLast?_trim (cs : List Char) : ∀ c ∈ (trim cs).getLast?, isBlank c = false := by
  intro c hc
  rw [trim, trimEnd, List.getLast?_reverse] at hc
  have hlast := List.head?_dropWhile_not isBlank (trimStart cs).reverse
  rwa [hc] at hlast

theorem trim_trim (cs : List Char) : trim (trim cs) = trim cs :=
  trim_of_ends (head?_trim cs) (getLast?_trim cs)

theorem trimStart_append_of_blank {front : List Char} (h : ∀ c ∈ front, isBlank c = true)
    (cs : List Char) : trimStart (front ++ cs) = trimStart cs :=
  List.dropWhile_append_of_pos h

/-- Trimming leaves what begins and ends with no blank. -/
theorem trim_between {front back cs : List Char} (hfront : ∀ c ∈ front, isBlank c = true)
    (hback : ∀ c ∈ back, isBlank c = true) (hhead : ∀ c ∈ cs.head?, isBlank c = false)
    (hlast : ∀ c ∈ cs.getLast?, isBlank c = false) : trim (front ++ cs ++ back) = cs := by
  by_cases hcs : cs = []
  · subst hcs
    rw [List.append_nil, trim_eq_nil_iff]
    exact List.forall_mem_append.mpr ⟨hfront, hback⟩
  · have hstart : trimStart (cs ++ back) = cs ++ back := by
      refine trimStart_of_head fun c hc => hhead c ?_
      rwa [List.head?_append_of_ne_nil _ hcs] at hc
    have hend : back.reverse ++ cs.reverse = (cs ++ back).reverse := by simp
    have hreverse : cs.reverse.dropWhile isBlank = cs.reverse :=
      trimStart_of_head (by rwa [List.head?_reverse])
    rw [List.append_assoc, trim, trimStart_append_of_blank hfront, hstart, trimEnd, ← hend,
      List.dropWhile_append_of_pos fun c hc => hback c (List.mem_reverse.mp hc), hreverse,
      List.reverse_reverse]

theorem length_trim_le (cs : List Char) : (trim cs).length ≤ cs.length := by
  obtain ⟨front, back, hsplit, _, _⟩ := exists_trim cs
  have hlength := congrArg List.length hsplit
  rw [List.length_append, List.length_append] at hlength
  omega

theorem trim_blanks_append {front : List Char} (h : ∀ c ∈ front, isBlank c = true)
    (cs : List Char) : trim (front ++ cs) = trim cs := by
  rw [trim, trimStart_append_of_blank h, trim]

theorem trim_append_blanks {back : List Char} (h : ∀ c ∈ back, isBlank c = true)
    (cs : List Char) : trim (cs ++ back) = trim cs := by
  obtain ⟨before, after, hsplit, hbefore, hafter⟩ := exists_trim cs
  have hwhole : cs ++ back = before ++ trim cs ++ (after ++ back) := by
    conv_lhs => rw [hsplit]
    simp only [List.append_assoc]
  rw [hwhole]
  exact trim_between hbefore (List.forall_mem_append.mpr ⟨hafter, h⟩) (head?_trim cs)
    (getLast?_trim cs)

/-- Behind a text that is not blank a word stays where it is, and the blanks that the text ends in
stand before it. -/
theorem trim_append_word {cs word : List Char} (hcs : trim cs ≠ []) (hword : Free isBlank word)
    (hne : word ≠ []) (gap : List Char) : ∃ back, (∀ c ∈ back, isBlank c = true) ∧
      trim (cs ++ gap ++ word) = trim cs ++ (back ++ gap) ++ word := by
  obtain ⟨front, back, hsplit, hfront, hback⟩ := exists_trim cs
  refine ⟨back, hback, ?_⟩
  have hwhole : cs ++ gap ++ word = front ++ (trim cs ++ (back ++ gap) ++ word) := by
    conv_lhs => rw [hsplit]
    simp only [List.append_assoc]
  have hhead : ∀ c ∈ (trim cs ++ (back ++ gap) ++ word).head?, isBlank c = false := by
    rw [List.append_assoc, List.head?_append_of_ne_nil _ hcs]
    exact head?_trim cs
  have hlast : ∀ c ∈ (trim cs ++ (back ++ gap) ++ word).getLast?, isBlank c = false := by
    rw [List.getLast?_append_of_ne_nil _ hne]
    exact fun c hc => hword c (List.mem_of_getLast? hc)
  rw [hwhole, trim, trimStart_append_of_blank hfront]
  exact trim_of_ends hhead hlast

end Text

namespace Assembly

/-- A name that a colon makes a label. -/
def IsLabel (name : List Char) : Prop :=
  (∃ c ∈ name.head?, Text.isLabelStart c = true) ∧ ∀ c ∈ name, Text.isLabelChar c = true

/-- The text begins with a label. -/
def Labelled (cs : List Char) : Prop :=
  ∃ name rest, IsLabel name ∧ cs = name ++ ':' :: rest

section Labels

variable {cs name rest tail : List Char}

theorem dropLabel_of_label (h : IsLabel name) (rest : List Char) :
    dropLabel (name ++ ':' :: rest) = Text.trim rest := by
  obtain ⟨⟨c, hc, hstart⟩, hname⟩ := h
  obtain ⟨more, rfl⟩ := List.head?_eq_some_iff.mp hc
  have htake : ((c :: more) ++ ':' :: rest).takeWhile Text.isLabelChar = c :: more := by
    rw [List.takeWhile_append_of_pos hname]
    exact List.append_nil _
  have hdrop : ((c :: more) ++ ':' :: rest).dropWhile Text.isLabelChar = ':' :: rest := by
    rw [List.dropWhile_append_of_pos hname]
    rfl
  rw [dropLabel, htake, hdrop]
  exact if_pos hstart

/-- A label and its colon are one word. -/
theorem IsLabel.free (h : IsLabel name) : Free isDelimiter (name ++ [':']) :=
  List.forall_mem_append.mpr ⟨fun c hc => isDelimiter_of_isLabelChar (h.2 c hc),
    List.forall_mem_singleton.mpr (by decide)⟩

theorem dropLabel_of_unlabelled (h : ¬ Labelled cs) : dropLabel cs = cs := by
  unfold dropLabel
  split
  · next c more rest htake hdrop =>
    split
    · next hstart =>
      refine absurd ⟨c :: more, rest, ⟨⟨c, rfl, hstart⟩, ?_⟩, ?_⟩ h
      · rw [← htake]
        exact fun d hd => List.mem_takeWhile_imp hd
      · rw [← htake, ← hdrop, List.takeWhile_append_dropWhile]
    · rfl
  · rfl

/-- Dropping a label makes a text shorter. -/
theorem dropLabel_eq_self_iff : dropLabel cs = cs ↔ ¬ Labelled cs := by
  refine ⟨?_, dropLabel_of_unlabelled⟩
  rintro heq ⟨name, rest, hname, rfl⟩
  rw [dropLabel_of_label hname] at heq
  have hlength := congrArg List.length heq
  have hle := Text.length_trim_le rest
  rw [List.length_append, List.length_cons] at hlength
  omega

instance : DecidablePred Labelled :=
  fun cs => decidable_of_iff (dropLabel cs ≠ cs) (by rw [Ne, dropLabel_eq_self_iff, not_not])

/-- A tail that neither goes on with a name nor ends it in a colon makes no label. -/
theorem not_labelled_append (h : ¬ Labelled cs)
    (htail : ∀ c ∈ tail.head?, Text.isLabelChar c = false ∧ c ≠ ':') : ¬ Labelled (cs ++ tail) := by
  rintro ⟨name, rest, hname, hsplit⟩
  rcases List.append_eq_append_iff.mp hsplit with ⟨more, rfl, hmore⟩ | ⟨more, rfl, hmore⟩
  · -- the name reaches into the tail, or the colon begins it
    cases more with
    | nil => exact (htail ':' (by rw [hmore]; rfl)).2 rfl
    | cons c more =>
      have hc : Text.isLabelChar c = true := hname.2 c (by simp)
      rw [(htail c (by rw [hmore]; rfl)).1] at hc
      cases hc
  · cases more with
    | nil => exact (htail ':' (by rw [List.nil_append] at hmore; rw [← hmore]; rfl)).2 rfl
    | cons c more =>
      obtain ⟨rfl, _⟩ := List.cons.inj hmore
      exact h ⟨name, more, hname, rfl⟩

end Labels

section Comments

variable {line : List Char}

theorem statement_of_free (h : Free isMarker line) :
    statement line = dropLabel (Text.trim line) := by
  have hwhole : line.takeWhile (fun c => !isMarker c) = line :=
    List.takeWhile_eq_self_iff.mpr fun c hc => by rw [h c hc]; rfl
  rw [statement, hwhole]

/-- What stands behind a comment belongs to it. -/
theorem statement_append_of_comment (h : ¬ Free isMarker line) (tail : List Char) :
    statement (line ++ tail) = statement line := by
  have hshort : (line.takeWhile fun c => !isMarker c).length ≠ line.length := by
    intro hlength
    have hwhole := (List.takeWhile_prefix _).eq_of_length hlength
    refine h fun c hc => ?_
    rw [← hwhole] at hc
    simpa using List.mem_takeWhile_imp hc
  rw [statement, List.takeWhile_append, if_neg hshort, ← statement]

end Comments

end Assembly

end FiveStage
