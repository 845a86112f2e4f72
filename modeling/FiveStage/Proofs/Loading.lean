import Mathlib.Data.List.TakeWhile
import FiveStage.Assembly.Basic

/-!
# Which texts can be loaded

A text is refused just if no line of it yields an instruction. A text of blanks is such a text,
since each of its lines is blank and a blank line holds no statement. It is refused under a name of
its own.
-/
namespace FiveStage

namespace Text

theorem trimEnd_eq_nil_iff (cs : List Char) : trimEnd cs = [] ↔ ∀ c ∈ cs, isBlank c = true := by
  rw [trimEnd, List.reverse_eq_nil_iff, List.dropWhile_eq_nil_iff]
  simp only [List.mem_reverse]

theorem blank_trimStart_iff (cs : List Char) :
    (∀ c ∈ trimStart cs, isBlank c = true) ↔ ∀ c ∈ cs, isBlank c = true := by
  constructor
  · intro h c hc
    rw [← List.takeWhile_append_dropWhile (p := isBlank) (l := cs)] at hc
    rcases List.mem_append.mp hc with hfront | hrest
    · exact List.mem_takeWhile_imp hfront
    · exact h c hrest
  · intro h c hc
    exact h c ((List.dropWhile_suffix isBlank).subset hc)

/-- Trimming leaves nothing just of a text of blanks. -/
theorem trim_eq_nil_iff (cs : List Char) : trim cs = [] ↔ ∀ c ∈ cs, isBlank c = true :=
  (trimEnd_eq_nil_iff _).trans (blank_trimStart_iff cs)

/-- The pieces hold all that does not separate. -/
theorem flatten_pieces (sep : Char → Bool) (cs : List Char) :
    (pieces sep cs).flatten = cs.filter fun c => !sep c := by
  induction cs with
  | nil => rfl
  | cons c cs ih =>
    rw [pieces]
    split
    · next hc => rw [List.flatten_cons, List.nil_append, ih, List.filter_cons_of_neg (by simp [hc])]
    · next hc =>
      rw [List.filter_cons_of_pos (by simp [hc]), ← ih]
      cases h : pieces sep cs with
      | nil => exact absurd h (pieces_ne_nil sep cs)
      | cons _ _ => rfl

theorem mem_of_mem_pieces {sep : Char → Bool} {cs piece : List Char} {c : Char}
    (h : piece ∈ pieces sep cs) (hc : c ∈ piece) : c ∈ cs := by
  have hkept := List.mem_flatten_of_mem h hc
  rw [flatten_pieces] at hkept
  exact (List.mem_filter.mp hkept).1

end Text

namespace Assembly

theorem statement_of_blank {line : List Char} (h : ∀ c ∈ line, Text.isBlank c = true) :
    statement line = [] := by
  have hcode : Text.trim (line.takeWhile fun c => !isMarker c) = [] :=
    (Text.trim_eq_nil_iff _).mpr fun c hc => h c ((List.takeWhile_prefix _).subset hc)
  rw [statement, hcode]
  rfl

theorem readLines_of_blank (line : Nat) (id : InstructionId) {lines : List (List Char)}
    (h : ∀ text ∈ lines, statement text = []) : readLines line id lines = empty := by
  induction lines generalizing line with
  | nil => rfl
  | cons text rest ih =>
    obtain ⟨hfirst, hrest⟩ := List.forall_mem_cons.mp h
    rw [readLines, hfirst]
    exact ih (line + 1) hrest

/-- A text of blanks holds nothing, not even a diagnostic. -/
theorem ofText_of_blank {source : String} (h : ∀ c ∈ source.toList, Text.isBlank c = true) :
    ofText source = empty := by
  refine readLines_of_blank 1 1 fun text htext => statement_of_blank fun c hc => ?_
  exact h c (Text.mem_of_mem_pieces htext hc)

/-- Why a text is refused, if it is, and which program it gives otherwise. -/
theorem load_eq (source : String) : load source =
    if (ofText source).instructions = [] then
      if source.toList.all Text.isBlank then .error .emptySource
      else .error (.noInstructions (ofText source).diagnostics.length)
    else .ok (ofText source).instructions := by
  by_cases hblank : ∀ c ∈ source.toList, Text.isBlank c = true
  · have htrim := (Text.trim_eq_nil_iff source.toList).mpr hblank
    rw [load, htrim, ofText_of_blank hblank, if_pos (List.all_eq_true.mpr hblank)]
    rfl
  · have htrim : ¬ (Text.trim source.toList).isEmpty = true := by
      rw [List.isEmpty_iff, Text.trim_eq_nil_iff]
      exact hblank
    rw [load, if_neg htrim, if_neg fun hall => hblank (List.all_eq_true.mp hall)]
    simp only [List.isEmpty_iff]

theorem eq_of_load {source : String} {program : Program} (h : load source = .ok program) :
    program = (ofText source).instructions := by
  rw [load_eq] at h
  split at h
  · split at h <;> cases h
  · exact (Except.ok.inj h).symm

theorem exists_error_iff (source : String) :
    (∃ e, load source = .error e) ↔ (ofText source).instructions = [] := by
  rw [load_eq]
  split
  · next hnone =>
    refine iff_of_true ?_ hnone
    split
    · exact ⟨_, rfl⟩
    · exact ⟨_, rfl⟩
  · next hsome =>
    refine iff_of_false ?_ hsome
    rintro ⟨e, he⟩
    cases he

theorem load_eq_emptySource_iff (source : String) :
    load source = .error .emptySource ↔ ∀ c ∈ source.toList, Text.isBlank c = true := by
  rw [load_eq]
  split
  · rw [← List.all_eq_true]
    split
    · next hblank => exact iff_of_true rfl hblank
    · next hother => exact iff_of_false nofun hother
  · next hsome =>
    refine iff_of_false nofun fun hblank => hsome ?_
    rw [ofText_of_blank hblank]
    rfl

theorem load_eq_noInstructions_iff (source : String) (skipped : Nat) :
    load source = .error (.noInstructions skipped) ↔
      (ofText source).instructions = [] ∧ (∃ c ∈ source.toList, Text.isBlank c = false) ∧
        skipped = (ofText source).diagnostics.length := by
  have hvisible : (∃ c ∈ source.toList, Text.isBlank c = false) ↔
      ¬ ∀ c ∈ source.toList, Text.isBlank c = true := by
    simp only [not_forall, Bool.not_eq_true, exists_prop]
  rw [load_eq, hvisible, ← List.all_eq_true]
  split
  · next hnone =>
    split
    · next hblank => exact iff_of_false nofun fun h => h.2.1 hblank
    · next hother =>
      rw [Except.error.injEq, LoadError.noInstructions.injEq, eq_comm]
      exact ⟨fun h => ⟨hnone, hother, h⟩, fun h => h.2.2⟩
  · next hsome => exact iff_of_false nofun fun h => hsome h.1

end Assembly

end FiveStage
