import Mathlib.Data.List.Basic
import FiveStage.Proofs.Loading

/-!
# Words of a text

A text without a separator is one field, and a text of separators has none. Blanks at the ends of a
text are no part of any field, as long as blanks separate. Words that are joined by separators are
told apart again, unless one of them is empty.
-/
namespace FiveStage.Text

section Fields

variable {sep : Char → Bool}

/-- No character of the text separates. -/
def Free (sep : Char → Bool) (cs : List Char) : Prop := ∀ c ∈ cs, sep c = false

instance (cs : List Char) : Decidable (Free sep cs) :=
  List.decidableBAll (fun c => sep c = false) cs

theorem filter_of_free {cs : List Char} (h : Free sep cs) : cs.filter (fun c => !sep c) = cs := by
  rw [List.filter_eq_self]
  exact fun c hc => by simp [h c hc]

theorem filter_of_separators {cs : List Char} (h : ∀ c ∈ cs, sep c = true) :
    cs.filter (fun c => !sep c) = [] := by
  rw [List.filter_eq_nil_iff]
  exact fun c hc => by simp [h c hc]

/-- The first piece goes on from what stands in front of it. -/
theorem pieces_append_of_free {front : List Char} (h : Free sep front) (cs : List Char) :
    pieces sep (front ++ cs) = (pieces sep cs).modifyHead (front ++ ·) := by
  induction front with
  | nil => exact (congrFun List.modifyHead_id _).symm
  | cons c front ih =>
    obtain ⟨hc, hfront⟩ := List.forall_mem_cons.mp h
    rw [List.cons_append, pieces, if_neg (by simp [hc]), ih hfront, List.modifyHead_modifyHead]
    rfl

theorem pieces_of_free {cs : List Char} (h : Free sep cs) : pieces sep cs = [cs] := by
  have hpieces := pieces_append_of_free h []
  rwa [List.append_nil, pieces, List.modifyHead_cons, List.append_nil] at hpieces

theorem pieces_append_cons_of_free {c : Char} (hc : sep c = true) {as : List Char}
    (has : Free sep as) (bs : List Char) : pieces sep (as ++ c :: bs) = as :: pieces sep bs := by
  rw [pieces_append_cons hc, pieces_of_free has, List.singleton_append]

theorem fields_of_free {cs : List Char} (h : Free sep cs) (hne : cs ≠ []) :
    fields sep cs = [cs] := by
  rw [fields, pieces_of_free h]
  simp [hne]

theorem fields_append_of_free {front : List Char} (h : Free sep front) (hne : front ≠ [])
    (cs : List Char) : ∃ more others, fields sep (front ++ cs) = (front ++ more) :: others := by
  obtain ⟨more, rest, hpieces⟩ := List.exists_cons_of_ne_nil (pieces_ne_nil sep cs)
  refine ⟨more, rest.filter fun piece => !piece.isEmpty, ?_⟩
  rw [fields, pieces_append_of_free h, hpieces, List.modifyHead_cons]
  exact List.filter_cons_of_pos (by simp [hne])

theorem fields_cons {c : Char} (hc : sep c = true) (cs : List Char) :
    fields sep (c :: cs) = fields sep cs :=
  fields_append_cons hc [] cs

theorem fields_of_separators {cs : List Char} (h : ∀ c ∈ cs, sep c = true) :
    fields sep cs = [] := by
  induction cs with
  | nil => rfl
  | cons c cs ih =>
    obtain ⟨hc, hcs⟩ := List.forall_mem_cons.mp h
    rw [fields_cons hc, ih hcs]

theorem fields_append_separators (cs : List Char) {tail : List Char}
    (h : ∀ c ∈ tail, sep c = true) : fields sep (cs ++ tail) = fields sep cs := by
  cases tail with
  | nil => rw [List.append_nil]
  | cons c tail =>
    obtain ⟨hc, htail⟩ := List.forall_mem_cons.mp h
    rw [fields_append_cons hc, fields_of_separators htail, List.append_nil]

theorem fields_separators_append {front : List Char} (h : ∀ c ∈ front, sep c = true)
    (cs : List Char) : fields sep (front ++ cs) = fields sep cs := by
  induction front with
  | nil => rfl
  | cons c front ih =>
    obtain ⟨hc, hfront⟩ := List.forall_mem_cons.mp h
    rw [List.cons_append, fields_cons hc, ih hfront]

theorem fields_append_gap {gap : List Char} (hgap : ∀ c ∈ gap, sep c = true) (hne : gap ≠ [])
    (as bs : List Char) : fields sep (as ++ gap ++ bs) = fields sep as ++ fields sep bs := by
  cases gap with
  | nil => exact absurd rfl hne
  | cons c gap =>
    obtain ⟨hc, hrest⟩ := List.forall_mem_cons.mp hgap
    rw [List.append_assoc, List.cons_append, fields_append_cons hc, fields_separators_append hrest]

theorem free_of_mem_pieces {cs piece : List Char} (h : piece ∈ pieces sep cs) :
    Free sep piece := by
  induction cs generalizing piece with
  | nil =>
    obtain rfl := List.mem_singleton.mp h
    exact fun _ hc => nomatch hc
  | cons c cs ih =>
    rw [pieces] at h
    split at h
    · rcases List.mem_cons.mp h with rfl | hrest
      · exact fun _ hc => nomatch hc
      · exact ih hrest
    · next hsep =>
      cases hp : pieces sep cs with
      | nil => exact absurd hp (pieces_ne_nil sep cs)
      | cons first rest =>
        rw [hp, List.modifyHead_cons] at h
        rw [hp] at ih
        rcases List.mem_cons.mp h with rfl | hrest
        · have hc : sep c = false := Bool.eq_false_iff.mpr hsep
          exact List.forall_mem_cons.mpr ⟨hc, ih List.mem_cons_self⟩
        · exact ih (List.mem_cons_of_mem _ hrest)

/-- A text is split in one way at the first separator. -/
theorem append_cons_inj {c : Char} (hc : sep c = true) {as bs cs ds : List Char}
    (has : Free sep as) (hcs : Free sep cs) (h : as ++ c :: bs = cs ++ c :: ds) :
    as = cs ∧ bs = ds := by
  have hpieces := congrArg (pieces sep) h
  rw [pieces_append_cons_of_free hc has, pieces_append_cons_of_free hc hcs] at hpieces
  obtain rfl := (List.cons.inj hpieces).1
  exact ⟨rfl, (List.cons.inj (List.append_cancel_left h)).2⟩

theorem mem_of_mem_fields {cs field : List Char} (h : field ∈ fields sep cs) :
    ∀ c ∈ field, c ∈ cs :=
  fun _ hc => mem_of_mem_pieces (List.mem_filter.mp h).1 hc

theorem free_of_mem_fields {cs field : List Char} (h : field ∈ fields sep cs) : Free sep field :=
  free_of_mem_pieces (List.mem_filter.mp h).1

theorem ne_nil_of_mem_fields {cs field : List Char} (h : field ∈ fields sep cs) : field ≠ [] := by
  have hne := (List.mem_filter.mp h).2
  rintro rfl
  cases hne

/-- The fields hold all that does not separate. -/
theorem flatten_fields (cs : List Char) : (fields sep cs).flatten = cs.filter fun c => !sep c := by
  rw [fields, List.flatten_filter_not_isEmpty, flatten_pieces]

theorem flatten_words (cs : List Char) : (words cs).flatten = squeeze cs := flatten_fields cs

/-- A text with something besides separators has a field. -/
theorem fields_ne_nil {cs : List Char} {c : Char} (hc : c ∈ cs) (hsep : sep c = false) :
    fields sep cs ≠ [] := by
  intro hnil
  have hkept : c ∈ (fields sep cs).flatten := by
    rw [flatten_fields, List.mem_filter]
    exact ⟨hc, by rw [hsep]; rfl⟩
  rw [hnil] at hkept
  cases hkept

/-- Words without a separator are told apart again, unless one of them is empty. -/
theorem flatMap_fields {ws : List (List Char)} (h : ∀ w ∈ ws, Free sep w) :
    ws.flatMap (fields sep) = ws.filter fun w => !w.isEmpty := by
  induction ws with
  | nil => rfl
  | cons w ws ih =>
    obtain ⟨hw, hws⟩ := List.forall_mem_cons.mp h
    rw [List.flatMap_cons, ih hws]
    cases w with
    | nil => rfl
    | cons c cs => rw [fields_of_free hw (List.cons_ne_nil c cs)]; rfl

theorem flatMap_fields_of_ne_nil {ws : List (List Char)} (h : ∀ w ∈ ws, Free sep w)
    (hne : ∀ w ∈ ws, w ≠ []) : ws.flatMap (fields sep) = ws := by
  rw [flatMap_fields h, List.filter_eq_self]
  intro w hw
  simp [hne w hw]

/-- If there are as many fields as words then no word is empty. -/
theorem ne_nil_of_length_fields {ws : List (List Char)} (h : ∀ w ∈ ws, Free sep w)
    (hlen : ws.length ≤ (ws.flatMap (fields sep)).length) : ∀ w ∈ ws, w ≠ [] := by
  rw [flatMap_fields h] at hlen
  have heq := Nat.le_antisymm (List.length_filter_le _ ws) hlen
  have hall := List.length_filter_eq_length_iff.mp heq
  intro w hw
  simpa using hall w hw

end Fields

section Trim

theorem exists_trimEnd (cs : List Char) :
    ∃ back, cs = trimEnd cs ++ back ∧ ∀ c ∈ back, isBlank c = true := by
  refine ⟨(cs.reverse.takeWhile isBlank).reverse, ?_, ?_⟩
  · rw [trimEnd, ← List.reverse_append, List.takeWhile_append_dropWhile, List.reverse_reverse]
  · exact fun c hc => List.mem_takeWhile_imp (List.mem_reverse.mp hc)

/-- Trimming takes blanks off the two ends. -/
theorem exists_trim (cs : List Char) : ∃ front back, cs = front ++ trim cs ++ back ∧
    (∀ c ∈ front, isBlank c = true) ∧ ∀ c ∈ back, isBlank c = true := by
  obtain ⟨back, hsplit, hback⟩ := exists_trimEnd (trimStart cs)
  refine ⟨cs.takeWhile isBlank, back, ?_, fun c hc => List.mem_takeWhile_imp hc, hback⟩
  rw [trim, List.append_assoc, ← hsplit]
  exact List.takeWhile_append_dropWhile.symm

theorem mem_of_mem_trim {cs : List Char} {c : Char} (h : c ∈ trim cs) : c ∈ cs := by
  obtain ⟨front, back, hcs, _, _⟩ := exists_trim cs
  rw [hcs]
  exact List.mem_append_left _ (List.mem_append_right _ h)

/-- The fields of a text are those of the trimmed text. -/
theorem fields_trim {sep : Char → Bool} (hsep : ∀ c, isBlank c = true → sep c = true)
    (cs : List Char) : fields sep (trim cs) = fields sep cs := by
  obtain ⟨front, back, hcs, hfront, hback⟩ := exists_trim cs
  calc fields sep (trim cs)
      = fields sep (front ++ trim cs) :=
        (fields_separators_append (fun c hc => hsep c (hfront c hc)) _).symm
    _ = fields sep (front ++ trim cs ++ back) :=
        (fields_append_separators _ fun c hc => hsep c (hback c hc)).symm
    _ = fields sep cs := by rw [← hcs]

theorem trimStart_of_head {cs : List Char} (h : ∀ c ∈ cs.head?, isBlank c = false) :
    trimStart cs = cs := by
  cases cs with
  | nil => rfl
  | cons c cs => exact List.dropWhile_cons_of_neg (by simp [h c rfl])

theorem trimEnd_of_last {cs : List Char} (h : ∀ c ∈ cs.getLast?, isBlank c = false) :
    trimEnd cs = cs := by
  have hreverse : cs.reverse.dropWhile isBlank = cs.reverse :=
    trimStart_of_head (by rwa [List.head?_reverse])
  rw [trimEnd, hreverse, List.reverse_reverse]

theorem trim_of_ends {cs : List Char} (hhead : ∀ c ∈ cs.head?, isBlank c = false)
    (hlast : ∀ c ∈ cs.getLast?, isBlank c = false) : trim cs = cs := by
  rw [trim, trimStart_of_head hhead, trimEnd_of_last hlast]

theorem trim_of_free {cs : List Char} (h : Free isBlank cs) : trim cs = cs :=
  trim_of_ends (fun c hc => h c (List.mem_of_head? hc)) fun c hc => h c (List.mem_of_getLast? hc)

theorem trimEnd_prefix (cs : List Char) : trimEnd cs <+: cs := by
  rw [trimEnd, ← List.reverse_suffix, List.reverse_reverse]
  exact List.dropWhile_suffix _

/-- Trimming does not reach into a word at the front. -/
theorem trim_append {word : List Char} (hword : Free isBlank word) (hne : word ≠ [])
    (rest : List Char) : trim (word ++ rest) = word ++ trimEnd rest := by
  have hfront : trimStart (word ++ rest) = word ++ rest := by
    refine trimStart_of_head fun c hc => ?_
    rw [List.head?_append_of_ne_nil _ hne] at hc
    exact hword c (List.mem_of_head? hc)
  have hback : word.reverse.dropWhile isBlank = word.reverse :=
    trimStart_of_head fun c hc => hword c (List.mem_reverse.mp (List.mem_of_head? hc))
  rw [trim, hfront, trimEnd, trimEnd, List.reverse_append, List.dropWhile_append]
  split
  · next hnil =>
    rw [hback, List.reverse_reverse, List.isEmpty_iff.mp hnil, List.reverse_nil, List.append_nil]
  · rw [List.reverse_append, List.reverse_reverse]

end Trim

section Joined

theorem mem_intercalate {sep : List Char} {parts : List (List Char)} {c : Char}
    (h : c ∈ List.intercalate sep parts) : c ∈ sep ∨ ∃ part ∈ parts, c ∈ part := by
  match parts, h with
  | [part], h =>
    rw [List.intercalate_singleton] at h
    exact .inr ⟨part, List.mem_singleton_self part, h⟩
  | first :: second :: rest, h =>
    rw [List.intercalate_cons_cons, List.mem_append, List.mem_append] at h
    rcases h with (hfirst | hsep) | hrest
    · exact .inr ⟨first, List.mem_cons_self, hfirst⟩
    · exact .inl hsep
    · refine (mem_intercalate hrest).imp_right ?_
      rintro ⟨part, hpart, hc⟩
      exact ⟨part, List.mem_cons_of_mem _ hpart, hc⟩

/-- The fields of words with separators between them are those of the words. -/
theorem fields_intercalate {sep : Char → Bool} {between : List Char}
    (hbetween : ∀ c ∈ between, sep c = true) (hne : between ≠ []) (ws : List (List Char)) :
    fields sep (List.intercalate between ws) = ws.flatMap (fields sep) := by
  match ws with
  | [] => rfl
  | [w] => rw [List.intercalate_singleton, List.flatMap_cons, List.flatMap_nil, List.append_nil]
  | w :: v :: rest =>
    rw [List.intercalate_cons_cons, fields_append_gap hbetween hne,
      fields_intercalate hbetween hne (v :: rest), ← List.flatMap_cons]

theorem intercalate_ne_nil (between : List Char) {ws : List (List Char)} (hws : ws ≠ [])
    (h : ∀ w ∈ ws, w ≠ []) : List.intercalate between ws ≠ [] := by
  match ws with
  | [] => exact absurd rfl hws
  | [w] =>
    rw [List.intercalate_singleton]
    exact h w List.mem_cons_self
  | w :: v :: rest =>
    rw [List.intercalate_cons_cons, List.append_assoc]
    exact List.append_ne_nil_of_left_ne_nil (h w List.mem_cons_self) _

/-- If no word is empty then a text of words with something between them ends in a word. -/
theorem mem_of_getLast?_intercalate (between : List Char) {ws : List (List Char)} {c : Char}
    (h : ∀ w ∈ ws, w ≠ []) (hc : c ∈ (List.intercalate between ws).getLast?) :
    ∃ w ∈ ws, c ∈ w := by
  match ws with
  | [] => cases hc
  | [w] =>
    rw [List.intercalate_singleton] at hc
    exact ⟨w, List.mem_cons_self, List.mem_of_getLast? hc⟩
  | w :: v :: rest =>
    have htail := (List.forall_mem_cons.mp h).2
    have hrest := intercalate_ne_nil between (List.cons_ne_nil v rest) htail
    rw [List.intercalate_cons_cons, List.getLast?_append_of_ne_nil _ hrest] at hc
    obtain ⟨u, hu, hcu⟩ := mem_of_getLast?_intercalate between htail hc
    exact ⟨u, List.mem_cons_of_mem w hu, hcu⟩

end Joined

end FiveStage.Text
