import Mathlib.Data.List.Forall2
import FiveStage.Proofs.Reading.Listing
import FiveStage.Proofs.Reading.Sources
import FiveStage.View.Timeline

/-!
# The timeline as a grid of characters

A line of the timeline is a front of fixed width and then cells, each filled up with blanks to the
width of a column. Filling up never cuts, so a cell stands in its column as long as none before it
is too long. No stage is, and a label of a cycle is too long from cycle 10000 on.
-/
namespace FiveStage

namespace Text

theorem length_toList_padEnd (width : Nat) (s : String) :
    (padEnd width s).toList.length = max width s.length := by
  rw [String.length_toList, length_padEnd]

theorem line_feed_not_mem_padEnd {width : Nat} {s : String} (h : '\n' ∉ s.toList) :
    '\n' ∉ (padEnd width s).toList := by
  rw [padEnd, blanks, String.toList_append, List.mem_append, String.toList_ofList]
  rintro (hin | hin)
  · exact h hin
  · exact absurd (List.eq_of_mem_replicate hin) (by decide)

theorem isDigit_of_mem_repr {n : Nat} {c : Char} (h : c ∈ (Nat.repr n).toList) :
    c.isDigit = true := by
  rw [Nat.toList_repr] at h
  exact Assembly.isDigit_toDigits n c h

end Text

/-- What was read from a text keeps the statement that it was read from, and that is on one line. -/
theorem Assembly.line_feed_not_mem_sourceOrText {source : String} {i : Instruction}
    (h : i ∈ (ofText source).instructions) : '\n' ∉ i.sourceOrText.toList := by
  have hprogram : (ofText source).instructions =
      numberedFrom 1 (decoded (statements (Text.lines source.toList))) :=
    instructions_readLines 1 1 _
  rw [hprogram] at h
  obtain ⟨first, hfirst, number, rfl⟩ := exists_of_mem_numberedFrom h
  have hkept : Kept first :=
    kept_of_mem_decoded (fun text => Text.free_of_mem_pieces) hfirst
  have hsource : (first.numbered number).sourceOrText = first.source := by
    refine if_neg fun hempty => hkept.ne_nil ?_
    exact congrArg String.toList hempty
  rw [hsource]
  intro hin
  exact absurd (hkept.line _ hin) (by decide)

namespace View

/-- Texts one after the other, each filled up to the width of a column. -/
def cells (texts : List String) : List Char :=
  texts.flatMap fun text => (Text.padEnd cellWidth text).toList

section Cells

variable {texts : List String}

theorem cells_cons (text : String) (rest : List String) :
    cells (text :: rest) = (Text.padEnd cellWidth text).toList ++ cells rest :=
  List.flatMap_cons

theorem cells_append (texts more : List String) :
    cells (texts ++ more) = cells texts ++ cells more :=
  List.flatMap_append

theorem toList_join_cells {α : Type} (text : α → String) (as : List α) :
    (String.join (as.map fun a => Text.padEnd cellWidth (text a))).toList =
      cells (as.map text) := by
  rw [String.toList_join, List.flatMap_map, cells, List.flatMap_map]

theorem le_length_cells (texts : List String) : 5 * texts.length ≤ (cells texts).length := by
  induction texts with
  | nil => exact Nat.le_refl _
  | cons text rest ih =>
    rw [cells_cons, List.length_append, Text.length_toList_padEnd, List.length_cons, cellWidth]
    omega

/-- Cells keep to their columns exactly as long as no text is too long for its own. -/
theorem length_cells_eq_iff (texts : List String) :
    (cells texts).length = 5 * texts.length ↔ ∀ text ∈ texts, text.length ≤ 5 := by
  induction texts with
  | nil => exact iff_of_true rfl nofun
  | cons text rest ih =>
    have hle := le_length_cells rest
    rw [cells_cons, List.length_append, Text.length_toList_padEnd, List.length_cons, cellWidth,
      List.forall_mem_cons, ← ih]
    omega

theorem drop_cells {k : Nat} {text : String} (h : texts[k]? = some text) :
    (cells texts).drop (cells (texts.take k)).length =
      (Text.padEnd cellWidth text).toList ++ cells (texts.drop (k + 1)) := by
  obtain ⟨hk, rfl⟩ := List.getElem?_eq_some_iff.mp h
  have hsplit : cells texts = cells (texts.take k) ++
      ((Text.padEnd cellWidth texts[k]).toList ++ cells (texts.drop (k + 1))) := by
    rw [← cells_cons, ← List.drop_eq_getElem_cons hk, ← cells_append, List.take_append_drop]
  rw [hsplit, List.drop_left]

/-- Where no text is too long, the cell of a column begins at the same place in every line. -/
theorem take_drop_cells (hfit : ∀ text ∈ texts, text.length ≤ 5) {k : Nat} {text : String}
    (h : texts[k]? = some text) :
    ((cells texts).drop (5 * k)).take 5 = (Text.padEnd 5 text).toList := by
  have hk : k < texts.length := (List.getElem?_eq_some_iff.mp h).1
  have hbefore : (cells (texts.take k)).length = 5 * (texts.take k).length :=
    (length_cells_eq_iff _).mpr fun text htext => hfit text (List.mem_of_mem_take htext)
  rw [List.length_take_of_le (Nat.le_of_lt hk)] at hbefore
  rw [← hbefore, drop_cells h]
  refine List.take_left' ?_
  rw [Text.length_toList_padEnd, cellWidth]
  exact Nat.max_eq_left (hfit text (List.mem_of_getElem? h))

theorem line_feed_not_mem_cells (h : ∀ text ∈ texts, '\n' ∉ text.toList) :
    '\n' ∉ cells texts := by
  intro hin
  obtain ⟨text, htext, hc⟩ := List.mem_flatMap.mp hin
  exact Text.line_feed_not_mem_padEnd (h text htext) hc

end Cells

/-- A place behind the front of a line is a place in its cells. -/
theorem drop_line {front : List Char} (hfront : front.length = 24) (cs : List Char) (n : Nat) :
    (front ++ cs).drop (24 + n) = cs.drop n := by
  rw [← hfront, List.drop_length_add_append]

section Header

/-- The label of a cycle. -/
def cycleLabel (cycle : Nat) : String := "C" ++ Nat.repr cycle

/-- The places of a header at which the label of a cycle starts: those of its capitals C. -/
def labelStarts (line : List Char) : List Nat := line.findIdxs (· == 'C')

theorem length_cycleLabel_le_iff (cycle : Nat) : (cycleLabel cycle).length ≤ 5 ↔ cycle < 10000 := by
  have hdigits : (Nat.repr cycle).length ≤ 4 ↔ cycle < 10 ^ 4 :=
    Nat.length_repr_le_iff (by decide)
  have hone : "C".length = 1 := rfl
  rw [cycleLabel, String.length_append, hone]
  omega

theorem toList_cycleLabel (cycle : Nat) :
    (cycleLabel cycle).toList = 'C' :: (Nat.repr cycle).toList :=
  String.toList_append

theorem line_feed_not_mem_cycleLabel (cycle : Nat) : '\n' ∉ (cycleLabel cycle).toList := by
  rw [toList_cycleLabel, List.mem_cons]
  rintro (hfirst | hdigit)
  · exact absurd hfirst (by decide)
  · exact absurd (Text.isDigit_of_mem_repr hdigit) (by decide)

theorem findIdxs_label (cycle start : Nat) :
    (Text.padEnd cellWidth (cycleLabel cycle)).toList.findIdxs (· == 'C') start = [start] := by
  have hrest : ∀ c ∈ (Nat.repr cycle).toList ++
      (Text.blanks (cellWidth - (cycleLabel cycle).length)).toList, (c == 'C') = false := by
    intro c hc
    rw [beq_eq_false_iff_ne]
    rintro rfl
    rcases List.mem_append.mp hc with hdigit | hblank
    · exact absurd (Text.isDigit_of_mem_repr hdigit) (by decide)
    · rw [Text.blanks, String.toList_ofList] at hblank
      exact absurd (List.eq_of_mem_replicate hblank) (by decide)
  rw [Text.padEnd, String.toList_append, toList_cycleLabel, List.cons_append, List.findIdxs_cons,
    if_pos (beq_self_eq_true 'C'), List.findIdxs_eq_nil_iff.mpr hrest]

/-- Each label starts behind the cells before it. -/
theorem findIdxs_cells (cycles : List Nat) (start : Nat) :
    (cells (cycles.map cycleLabel)).findIdxs (· == 'C') start =
      (List.range cycles.length).map fun k =>
        start + (cells ((cycles.take k).map cycleLabel)).length := by
  induction cycles generalizing start with
  | nil => rfl
  | cons cycle rest ih =>
    rw [List.map_cons, cells_cons, List.findIdxs_append, findIdxs_label, ih, List.length_cons,
      List.range_succ_eq_map, List.map_cons, List.map_map, List.singleton_append]
    congr 1
    refine List.map_congr_left fun k _ => ?_
    rw [Function.comp_apply, List.take_succ_cons, List.map_cons, cells_cons, List.length_append,
      Nat.add_assoc]

theorem toList_timelineHeader (cycles : List Nat) : (timelineHeader cycles).toList =
    (Text.padEnd labelWidth "Instruction").toList ++ cells (cycles.map cycleLabel) := by
  rw [timelineHeader, String.toList_append, ← toList_join_cells]
  rfl

theorem length_labels_eq_iff (cycles : List Nat) :
    (cells (cycles.map cycleLabel)).length = 5 * cycles.length ↔
      ∀ cycle ∈ cycles, cycle < 10000 := by
  have hlength : (cycles.map cycleLabel).length = cycles.length := List.length_map _
  rw [← hlength, length_cells_eq_iff, List.forall_mem_map]
  exact forall₂_congr fun cycle _ => length_cycleLabel_le_iff cycle

theorem length_headerFront : (Text.padEnd labelWidth "Instruction").toList.length = 24 := by decide

theorem length_timelineHeader_eq_iff (cycles : List Nat) :
    (timelineHeader cycles).toList.length = 24 + 5 * cycles.length ↔
      ∀ cycle ∈ cycles, cycle < 10000 := by
  rw [toList_timelineHeader, List.length_append, length_headerFront, Nat.add_left_cancel_iff,
    length_labels_eq_iff]

theorem labelStarts_timelineHeader (cycles : List Nat) :
    labelStarts (timelineHeader cycles).toList = (List.range cycles.length).map fun k =>
      24 + (cells ((cycles.take k).map cycleLabel)).length := by
  have hfront : (Text.padEnd labelWidth "Instruction").toList.findIdxs (· == 'C') = [] := by decide
  rw [labelStarts, toList_timelineHeader, List.findIdxs_append, hfront, length_headerFront,
    Nat.zero_add, findIdxs_cells, List.nil_append]

/-- The label of a column stands at its start, which is that of the column in the grid as long as
no label before it is too long. -/
theorem exists_labelStart {cycles : List Nat} {k cycle : Nat} (h : cycles[k]? = some cycle) :
    ∃ start, (labelStarts (timelineHeader cycles).toList)[k]? = some start ∧
      (cycleLabel cycle).toList <+: (timelineHeader cycles).toList.drop start ∧
        (start = 24 + 5 * k ↔ ∀ earlier ∈ cycles.take k, earlier < 10000) := by
  have hk : k < cycles.length := (List.getElem?_eq_some_iff.mp h).1
  have hlabel : (cycles.map cycleLabel)[k]? = some (cycleLabel cycle) := by
    rw [List.getElem?_map, h, Option.map_some]
  refine ⟨24 + (cells ((cycles.take k).map cycleLabel)).length, ?_, ?_, ?_⟩
  · rw [labelStarts_timelineHeader, List.getElem?_map, List.getElem?_range hk, Option.map_some]
  · rw [toList_timelineHeader, drop_line length_headerFront, List.map_take, drop_cells hlabel,
      Text.padEnd, String.toList_append, List.append_assoc]
    exact List.prefix_append _ _
  · rw [Nat.add_left_cancel_iff, ← length_labels_eq_iff,
      List.length_take_of_le (Nat.le_of_lt hk)]

theorem line_feed_not_mem_timelineHeader (cycles : List Nat) :
    '\n' ∉ (timelineHeader cycles).toList := by
  rw [toList_timelineHeader, List.mem_append]
  rintro (hfront | hlabel)
  · exact absurd hfront (by decide)
  · refine line_feed_not_mem_cells ?_ hlabel
    rw [List.forall_mem_map]
    exact fun cycle _ => line_feed_not_mem_cycleLabel cycle

end Header

section Row

/-- The label of a row, cut to leave a blank at its end. -/
def rowFront (row : TimelineRow) : List Char :=
  (Text.padEnd labelWidth (Text.cut (labelWidth - 1)
    (InstructionId.text row.instruction ++ " " ++ row.text))).toList

theorem length_rowFront (row : TimelineRow) : (rowFront row).length = 24 := by
  have hcut := Text.length_cut_le 23 (InstructionId.text row.instruction ++ " " ++ row.text)
  rw [rowFront, Text.length_toList_padEnd]
  exact Nat.max_eq_left (Nat.le_succ_of_le hcut)

theorem toList_timelineRow (row : TimelineRow) :
    (timelineRow row).toList = rowFront row ++ cells (row.cells.map cellText) := by
  rw [timelineRow, String.toList_append, toList_join_cells]
  rfl

theorem length_cellText_le (cell : Option Stage) : (cellText cell).length ≤ 5 := by
  match cell with
  | none => decide
  | some stage => cases stage <;> decide

theorem line_feed_not_mem_cellText (cell : Option Stage) : '\n' ∉ (cellText cell).toList := by
  match cell with
  | none => decide
  | some stage => cases stage <;> decide

variable (row : TimelineRow)

theorem fits_stages : ∀ text ∈ row.cells.map cellText, text.length ≤ 5 :=
  List.forall_mem_map.mpr fun cell _ => length_cellText_le cell

theorem length_timelineRow : (timelineRow row).toList.length = 24 + 5 * row.cells.length := by
  have hcells := (length_cells_eq_iff _).mpr (fits_stages row)
  rw [toList_timelineRow, List.length_append, length_rowFront, hcells, List.length_map]

theorem take_drop_timelineRow {k : Nat} {cell : Option Stage} (h : row.cells[k]? = some cell) :
    ((timelineRow row).toList.drop (24 + 5 * k)).take 5 =
      (Text.padEnd 5 (cellText cell)).toList := by
  have hcell : (row.cells.map cellText)[k]? = some (cellText cell) := by
    rw [List.getElem?_map, h, Option.map_some]
  rw [toList_timelineRow, drop_line (length_rowFront row), take_drop_cells (fits_stages row) hcell]

theorem line_feed_not_mem_timelineRow (h : '\n' ∉ row.text.toList) :
    '\n' ∉ (timelineRow row).toList := by
  rw [toList_timelineRow, List.mem_append]
  rintro (hfront | hcell)
  · refine Text.line_feed_not_mem_padEnd ?_ hfront
    rw [Text.cut, String.toList_ofList]
    intro hcut
    have hlabel := List.mem_of_mem_take hcut
    rw [String.toList_append, String.toList_append, InstructionId.text, String.toList_append,
      List.mem_append, List.mem_append, List.mem_append] at hlabel
    rcases hlabel with ((hletter | hdigit) | hblank) | hsource
    · exact absurd hletter (by decide)
    · exact absurd (Text.isDigit_of_mem_repr hdigit) (by decide)
    · exact absurd hblank (by decide)
    · exact h hsource
  · refine line_feed_not_mem_cells ?_ hcell
    rw [List.forall_mem_map]
    exact fun cell _ => line_feed_not_mem_cellText cell

end Row

/-- The row of an instruction, with the stages that hold it in the columns. -/
def gridRow (columns : List Snapshot) (i : Instruction) : TimelineRow where
  instruction := i.id
  text := i.sourceOrText
  cells := columns.map fun snapshot => snapshot.pipeline.stageOf? i.id

/-- The lines of a printed timeline, and the empty one behind the last line feed. -/
theorem lines_timeline_build (trace : List Snapshot) {program : Program}
    (h : ∀ i ∈ program, '\n' ∉ i.sourceOrText.toList) (width : Nat) :
    Text.lines (timeline (Timeline.build trace program width)).toList =
      (timelineHeader ((trace.take width).map (·.cycle))).toList ::
        program.map (fun i => (timelineRow (gridRow (trace.take width) i)).toList) ++ [[]] := by
  have htext : timeline (Timeline.build trace program width) =
      Text.unlines (timelineHeader ((trace.take width).map (·.cycle)) ::
        (program.map (gridRow (trace.take width))).map timelineRow) := rfl
  have hbreak : ∀ line ∈ timelineHeader ((trace.take width).map (·.cycle)) ::
      (program.map (gridRow (trace.take width))).map timelineRow, '\n' ∉ line.toList := by
    rw [List.forall_mem_cons, List.forall_mem_map, List.forall_mem_map]
    exact ⟨line_feed_not_mem_timelineHeader _, fun i hi =>
      line_feed_not_mem_timelineRow (gridRow (trace.take width) i) (h i hi)⟩
  rw [htext, Text.lines_unlines hbreak, List.map_cons, List.map_map, List.map_map]
  rfl

/-- The timeline of a program that was read from a text, over any trace, is printed as a header and
a row for each instruction. Every row has 24 characters and five for each column, and the stage of
a column stands where the column begins. The header is as long as the rows exactly if all its cycles
are below 10000. It has a label for each column, and the label of a column stands where the column
begins exactly if the cycles of the columns before it are below 10000. -/
theorem timeline_aligned (source : String) (trace : List Snapshot) (width : Nat) :
    let program := (Assembly.ofText source).instructions
    let columns := trace.take width
    ∃ (header : List Char) (rows : List (List Char)),
      Text.lines (timeline (Timeline.build trace program width)).toList =
          header :: rows ++ [[]] ∧
        List.Forall₂ (fun (i : Instruction) (row : List Char) =>
          row.length = 24 + 5 * columns.length ∧
            ∀ k snapshot, columns[k]? = some snapshot →
              (row.drop (24 + 5 * k)).take 5 =
                (Text.padEnd 5 (cellText (snapshot.pipeline.stageOf? i.id))).toList)
          program rows ∧
        (header.length = 24 + 5 * columns.length ↔ ∀ snapshot ∈ columns, snapshot.cycle < 10000) ∧
        (labelStarts header).length = columns.length ∧
        ∀ k snapshot, columns[k]? = some snapshot →
          ∃ start, (labelStarts header)[k]? = some start ∧
            (cycleLabel snapshot.cycle).toList <+: header.drop start ∧
              (start = 24 + 5 * k ↔ ∀ earlier ∈ columns.take k, earlier.cycle < 10000) := by
  intro program columns
  let cycles := columns.map (·.cycle)
  have hlength : cycles.length = columns.length := List.length_map _
  refine ⟨(timelineHeader cycles).toList,
    program.map fun i => (timelineRow (gridRow columns i)).toList,
    lines_timeline_build trace (fun _ hi => Assembly.line_feed_not_mem_sourceOrText hi) width,
    ?_, ?_, ?_, ?_⟩
  · rw [List.forall₂_map_right_iff, List.forall₂_same]
    intro i _
    refine ⟨?_, fun k snapshot hk => take_drop_timelineRow (gridRow columns i) ?_⟩
    · rw [length_timelineRow, gridRow, List.length_map]
    · rw [gridRow, List.getElem?_map, hk, Option.map_some]
  · rw [← hlength, length_timelineHeader_eq_iff, List.forall_mem_map]
  · rw [labelStarts_timelineHeader, List.length_map, List.length_range, hlength]
  · intro k snapshot hk
    have hcycle : cycles[k]? = some snapshot.cycle := by rw [List.getElem?_map, hk, Option.map_some]
    have hstart := exists_labelStart hcycle
    rwa [← List.map_take, List.forall_mem_map] at hstart

/-- The text is longer than its column and not of ASCII. The header is too long, as its last two
cycles are: the second label still starts with its column, and the third one does not. -/
theorem timeline_aligned_until_late_cycles :
    let source := "BEQ R4, R0, xéééééééééééé"
    let trace : List Snapshot :=
      [{ cycle := 9999 }, { cycle := 10000, pipeline := { memory := { instruction := some 1 } } },
       { cycle := 10001 }]
    let text := (timeline (Timeline.build trace (Assembly.ofText source).instructions 15)).toList
    ∃ header row, Text.lines text = [header, row, []] ∧ row.length = 39 ∧
      (row.drop 29).take 5 = "MEM  ".toList ∧ header.length ≠ 39 ∧
      (labelStarts header)[1]? = some 29 ∧ (labelStarts header)[2]? ≠ some 34 := by
  intro source trace text
  obtain ⟨header, rows, hlines, hrows, hheader, _, hlabels⟩ := timeline_aligned source trace 15
  have hids : (Assembly.ofText source).instructions.map (·.id) = [1] := by decide +kernel
  obtain ⟨i, hprogram, hid⟩ := List.map_eq_singleton_iff.mp hids
  rw [hprogram] at hrows
  cases hrows with
  | @cons _ row _ rows hrow hnil =>
    cases hnil
    obtain ⟨hlength, hcells⟩ := hrow
    refine ⟨header, row, hlines, hlength, ?_, mt hheader.mp (by decide), ?_, ?_⟩
    · have hstage := hcells 1 _ rfl
      rw [hid] at hstage
      exact hstage
    · obtain ⟨start, hstart, _, hplace⟩ := hlabels 1 _ rfl
      rw [hstart, hplace.mpr (by decide)]
    · obtain ⟨start, hstart, _, hplace⟩ := hlabels 2 _ rfl
      rw [hstart]
      exact fun heq => absurd (hplace.mp (Option.some.inj heq)) (by decide)

end View

end FiveStage
