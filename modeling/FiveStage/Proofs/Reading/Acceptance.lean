import FiveStage.Proofs.Loading
import FiveStage.Proofs.Reading.Listing
import FiveStage.Simulator.Basic

/-!
# What is accepted

A check of a text and a load of it ask the same question in two ways, and a strict check asks for
more. The listing of an accepted text has a line for each instruction, since no canonical text holds
a blank that could break it.
-/
namespace FiveStage

namespace Text

/-- The lines of a text, each closed by a line feed. One at the very end opens no further line. -/
def closedLines (cs : List Char) : List (List Char) :=
  if (lines cs).getLast? = some [] then (lines cs).dropLast else lines cs

theorem closedLines_unlines {texts : List String} (h : ∀ text ∈ texts, '\n' ∉ text.toList) :
    closedLines (unlines texts).toList = texts.map String.toList := by
  rw [closedLines, lines_unlines h, if_pos List.getLast?_concat, List.dropLast_concat]

theorem mem_unlines {texts : List String} {c : Char} (h : c ∈ (unlines texts).toList) :
    c = '\n' ∨ ∃ text ∈ texts, c ∈ text.toList := by
  induction texts with
  | nil => cases h
  | cons text rest ih =>
    rw [unlines_cons, String.toList_append, String.toList_append, List.mem_append,
      List.mem_append] at h
    rcases h with (hfirst | hbreak) | hlater
    · exact .inr ⟨text, List.mem_cons_self, hfirst⟩
    · exact .inl (List.mem_singleton.mp hbreak)
    · refine (ih hlater).imp_right ?_
      rintro ⟨other, hother, hc⟩
      exact ⟨other, List.mem_cons_of_mem _ hother, hc⟩

end Text

namespace Instruction

variable {i : Instruction}

/-- The blanks between the words of a canonical text are the only ones it holds. -/
theorem Accepted.blank_of_mem_text (h : i.Accepted) {c : Char} (hc : c ∈ i.text.toList)
    (hblank : Text.isBlank c = true) : c = ' ' := by
  rcases h.loose_of_mem_text hc with hspace | rfl | hloose
  · exact hspace
  · exact absurd hblank (by decide)
  · have hfree := Assembly.free_loose.mp (List.forall_mem_singleton.mpr hloose)
    rw [hfree.1 c (List.mem_singleton_self c)] at hblank
    cases hblank

end Instruction

namespace Assembly

/-- What a simulator says to a text: the number of its instructions, if there are any. -/
theorem load_eq_ok_iff {σ : Type} [TickSource σ] (s : Simulator σ) (source : String)
    (count : Nat) : (s.load source).1 = .ok count ↔
      (ofText source).instructions ≠ [] ∧ count = (ofText source).instructions.length := by
  rw [Simulator.load]
  cases hload : load source with
  | error e =>
    have hnone := (exists_error_iff source).mp ⟨e, hload⟩
    exact iff_of_false nofun fun h => h.1 hnone
  | ok program =>
    obtain rfl := eq_of_load hload
    rw [and_iff_right (load_ne_nil hload), Except.ok.injEq, eq_comm]

theorem exists_load_iff {σ : Type} [TickSource σ] (s : Simulator σ) (source : String) :
    (∃ count, (s.load source).1 = .ok count) ↔ (ofText source).instructions ≠ [] := by
  constructor
  · rintro ⟨count, hload⟩
    exact ((load_eq_ok_iff s source count).mp hload).1
  · exact fun h => ⟨_, (load_eq_ok_iff s source _).mpr ⟨h, rfl⟩⟩

end Assembly

namespace Check

variable {strict : Bool} {path text : String}

theorem fault?_eq_none_iff {assembly : Assembly} : fault? strict path assembly = none ↔
    assembly.instructions ≠ [] ∧ (strict = true → assembly.diagnostics = []) := by
  unfold fault?
  cases assembly.instructions with
  | nil => simp
  | cons i rest => cases strict <;> cases assembly.diagnostics <;> simp

theorem exitStatus_eq_zero_iff (t : Transcript) : t.exitStatus = 0 ↔ t.error = none := by
  unfold Transcript.exitStatus
  cases t.error <;> simp

theorem exitStatus_ofText : (ofText strict path text).exitStatus = 0 ↔
    (Assembly.ofText text).instructions ≠ [] ∧
      (strict = true → (Assembly.ofText text).diagnostics = []) :=
  (exitStatus_eq_zero_iff _).trans fault?_eq_none_iff

/-- An exit without an error leaves the listing, whichever way the text was checked. -/
theorem listing_of_exitStatus (h : (ofText strict path text).exitStatus = 0) :
    (ofText strict path text).listing = some (Assembly.ofText text).instructions.text := by
  have hfault : fault? strict path (Assembly.ofText text) = none :=
    (exitStatus_eq_zero_iff _).mp h
  exact if_pos (Option.isNone_iff_eq_none.mpr hfault)

theorem listing_of_error {reading : Reading} (h : (run strict path reading).exitStatus = 1) :
    (run strict path reading).listing = none := by
  have herror : (run strict path reading).error ≠ none := by
    intro hnone
    rw [(exitStatus_eq_zero_iff _).mpr hnone] at h
    cases h
  cases reading with
  | error e => rfl
  | ok file => exact if_neg fun hnone => herror (Option.isNone_iff_eq_none.mp hnone)

/-- A check finds no fault in just those texts that a simulator loads. It then lists as many lines
as instructions were loaded, none of them broken by a blank of another kind. A strict check asks
that no line was skipped as well, and leaves the same listing. A check that fails leaves none. -/
theorem accepts_what_loads {σ : Type} [TickSource σ] (s : Simulator σ) (path : String)
    (file : SourceFile) :
    let plain := run false path (.ok file)
    let strict := run true path (.ok file)
    (plain.exitStatus = 0 ↔ ∃ count, (s.load file.text).1 = .ok count) ∧
      (∀ count, (s.load file.text).1 = .ok count →
        ∃ listing, plain.listing = some listing ∧
          (Text.closedLines listing.toList).length = count ∧
          ∀ c ∈ listing.toList, Text.isBlank c = true → c = '\n' ∨ c = ' ') ∧
      (strict.exitStatus = 0 ↔ (∃ count, (s.load file.text).1 = .ok count) ∧
        (Assembly.ofText file.text).diagnostics = []) ∧
      (strict.exitStatus = 0 → strict.listing = plain.listing) ∧
      ∀ mode reading, (run mode path reading).exitStatus = 1 →
        (run mode path reading).listing = none := by
  intro plain strict
  have haccepted : ∀ i ∈ (Assembly.ofText file.text).instructions, i.Accepted :=
    Assembly.accepted_of_mem_readLines 1 1 _
  have hplain : plain.exitStatus = 0 ↔ (Assembly.ofText file.text).instructions ≠ [] :=
    exitStatus_ofText.trans (and_iff_left nofun)
  have hstrict : strict.exitStatus = 0 ↔ (Assembly.ofText file.text).instructions ≠ [] ∧
      (Assembly.ofText file.text).diagnostics = [] :=
    exitStatus_ofText.trans (and_congr_right fun _ => forall_prop_of_true rfl)
  refine ⟨?_, ?_, ?_, ?_, fun mode reading => listing_of_error⟩
  · rw [hplain, Assembly.exists_load_iff]
  · intro count hload
    obtain ⟨hne, rfl⟩ := (Assembly.load_eq_ok_iff s file.text count).mp hload
    refine ⟨_, listing_of_exitStatus (hplain.mpr hne), ?_, ?_⟩
    · have hbreak : ∀ text ∈ (Assembly.ofText file.text).instructions.map Instruction.text,
          '\n' ∉ text.toList := by
        intro text htext
        obtain ⟨i, hi, rfl⟩ := List.mem_map.mp htext
        exact (haccepted i hi).line_feed_not_mem_text
      rw [Program.text, Text.closedLines_unlines hbreak, List.length_map, List.length_map]
    · intro c hc hblank
      refine (Text.mem_unlines hc).imp_right ?_
      rintro ⟨text, htext, hin⟩
      obtain ⟨i, hi, rfl⟩ := List.mem_map.mp htext
      exact (haccepted i hi).blank_of_mem_text hin hblank
  · rw [hstrict, Assembly.exists_load_iff]
  · intro hexit
    have hexit' : plain.exitStatus = 0 := hplain.mpr (hstrict.mp hexit).1
    exact (listing_of_exitStatus hexit).trans (listing_of_exitStatus hexit').symm

end Check

end FiveStage
