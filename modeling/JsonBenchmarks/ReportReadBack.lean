import Mathlib.Data.List.TakeWhile
import JsonBenchmarks.ReportReading

/-!
# When the report reads back

Under the shape that its caller gives the results, `visit` writes a row for
each file, with the name up to a NUL, a colour for each library and the cut
text (`exists_rows`). If all of these rows are inert they are the rows that
are read, and a row shows its file exactly if decoding character references
leaves name and text alone. If they are not, some cell is too short for what
it should show. Together: the report reads back exactly if every file is
harmless to it (`visit_readsBack_iff`).
-/

namespace JsonBenchmarks

open Markup

/-! ## The report -/

/-- Nothing is written of a text that should not be read. -/
theorem shownText_eq (text : String) : shownText text = cutText text := by
  unfold shownText cutText
  by_cases hlong : text.length > maxTextLength
  · simp only [if_pos hlong]
  · have hlen : text.toList.take maxTextLength = text.toList :=
      List.take_of_length_le (by rw [String.length_toList]; exact Nat.le_of_not_lt hlong)
    have hall : text.toList.take text.length = text.toList :=
      List.take_of_length_le (by rw [String.length_toList])
    simp only [if_neg hlong, hlen, hall, Nat.lt_irrefl, if_false]

/-- Where every library has a result with a colour, the coloured cells are
those of the colours. -/
theorem exists_colors (infos : List ResultCodeInfo) (i : ℕ) {results : Results}
    (hlen : ∀ r ∈ results, i < r.length)
    (hcodes : ∀ r ∈ results, ∀ rc ∈ r, ∃ info ∈ infos, info.code = rc) :
    ∃ colors : List (List Char), coloredCells infos i results = some (colors.flatMap colorCell) ∧
      colors.map some = resultColors infos results i ∧ ∀ c ∈ colors, '"' ∉ c := by
  induction results with
  | nil => exact ⟨[], rfl, rfl, by simp⟩
  | cons r results ih =>
    obtain ⟨hr, hresults⟩ := List.forall_mem_cons.mp hlen
    obtain ⟨hcode, hcodes⟩ := List.forall_mem_cons.mp hcodes
    obtain ⟨colors, hcells, hcolors, hplain⟩ := ih hresults hcodes
    obtain ⟨info, hinfo⟩ : ∃ info, infos.find? (fun a => a.code == r[i]) = some info := by
      obtain ⟨info, hmem, hcode⟩ := hcode r[i] (List.getElem_mem hr)
      exact Option.isSome_iff_exists.mp
        (List.find?_isSome.mpr ⟨info, hmem, beq_iff_eq.mpr hcode⟩)
    refine ⟨info.color.toList :: colors, ?_, ?_, ?_⟩
    · rw [coloredCells, hcells, List.getElem?_eq_getElem hr]
      show some (coloredCell infos r[i] ++ _) = _
      rw [coloredCell, hinfo]
      rfl
    · rw [List.map_cons, hcolors]
      show _ = Option.bind r[i]? _ :: _
      rw [List.getElem?_eq_getElem hr, Option.bind_some, hinfo]
      rfl
    · exact List.forall_mem_cons.mpr ⟨info.color_plain, hplain⟩

/-- What is written of a file is its name up to a NUL, its colours and its cut
text. -/
def ReportRow.IsOf (infos : List ResultCodeInfo) (results : Results) (i : ℕ)
    (file : TestSuiteFile) (row : ReportRow) : Prop :=
  row.name = cStr (fileName file.path) ∧ row.colors.map some = resultColors infos results i ∧
    row.text = cutText file.text

/-- **The rows are written, one for each file.** -/
theorem exists_rows (infos : List ResultCodeInfo) {results : Results}
    (hcodes : ∀ r ∈ results, ∀ rc ∈ r, ∃ info ∈ infos, info.code = rc) (i : ℕ)
    {files : List TestSuiteFile} (hlen : ∀ r ∈ results, r.length = i + files.length) :
    ∃ rows : List ReportRow,
      detailRows infos results i files = some (rows.flatMap ReportRow.html) ∧
        rows.length = files.length ∧
          ∀ (j : ℕ) (file : TestSuiteFile) (row : ReportRow), files[j]? = some file →
            rows[j]? = some row → row.IsOf infos results (i + j) file := by
  induction files generalizing i with
  | nil => exact ⟨[], rfl, rfl, by simp⟩
  | cons file files ih =>
    obtain ⟨rows, hrows, hlength, hof⟩ := ih (i + 1) (fun r hr => by
      rw [hlen r hr, List.length_cons, Nat.add_assoc, Nat.add_comm 1])
    obtain ⟨colors, hcells, hcolors, hplain⟩ := exists_colors infos i (fun r hr => by
      rw [hlen r hr, List.length_cons]
      exact Nat.lt_add_of_pos_right (Nat.succ_pos _)) hcodes
    let row : ReportRow := ⟨cStr (fileName file.path), colors, cutText file.text, hplain⟩
    have hrow : detailRow infos results i file = some row.html := by
      rw [detailRow, hcells, shownText_eq]
      rfl
    refine ⟨row :: rows, ?_, ?_, ?_⟩
    · rw [detailRows, hrow, hrows]
      rfl
    · rw [List.length_cons, hlength, List.length_cons]
    · intro j file' row' hfile hrow'
      cases j with
      | zero =>
        obtain rfl : file = file' := Option.some.inj hfile
        obtain rfl : row = row' := Option.some.inj hrow'
        exact ⟨rfl, hcolors, rfl⟩
      | succ j =>
        rw [Nat.add_succ, ← Nat.succ_add]
        exact hof j file' row' hfile hrow'

/-- A text is written up to a NUL. -/
theorem cStr_eq_of_length_le {t : List Char} (h : t.length ≤ (cStr t).length) : cStr t = t :=
  (List.takeWhile_prefix _).eq_of_length_le h

theorem cStr_eq_iff (t : List Char) : cStr t = t ↔ '\x00' ∉ t := by
  unfold cStr
  rw [List.takeWhile_eq_self_iff]
  simp only [decide_eq_true_eq, ne_eq]
  exact ⟨fun h hmem => h _ hmem rfl, fun h c hc hzero => h (hzero ▸ hc)⟩

theorem length_cStr_le (t : List Char) : (cStr t).length ≤ t.length :=
  (List.takeWhile_prefix _).length_le

/-- **A file is harmless to the report**: its name has no NUL and is plain,
and so is what is shown of its text. -/
def CharRefs.Harmless (refs : CharRefs) (file : TestSuiteFile) : Prop :=
  '\x00' ∉ fileName file.path ∧ refs.Plain (fileName file.path) ∧ refs.Plain (cutText file.text)

/-- The names and texts of harmless files are inert. -/
theorem ReportRow.IsOf.isInert {infos : List ResultCodeInfo} {results : Results} {i : ℕ}
    {file : TestSuiteFile} {row : ReportRow} (h : row.IsOf infos results i file)
    {refs : CharRefs} (hfile : refs.Harmless file) : row.isInert = true := by
  rw [ReportRow.isInert, h.1, h.2.2, (cStr_eq_iff _).mpr hfile.1, hfile.2.1.1, hfile.2.2.1]
  rfl

/-- **An inert row shows its file exactly if the file is harmless.** -/
theorem ReportRow.IsOf.showsFile_iff {infos : List ResultCodeInfo} {results : Results} {i : ℕ}
    {file : TestSuiteFile} {row : ReportRow} (h : row.IsOf infos results i file)
    (refs : CharRefs) (hinert : row.isInert = true) :
    ShowsFile refs infos results i file row.cells ↔ refs.Harmless file := by
  obtain ⟨hname, hcolors, htext⟩ := h
  obtain ⟨hinertName, hinertText⟩ := Bool.and_eq_true_iff.mp hinert
  constructor
  · rintro ⟨first, last, colors, hcells, -, hfirst, hlast⟩
    obtain ⟨rfl, htail⟩ := List.cons_eq_cons.mp hcells
    obtain ⟨-, htail⟩ := List.append_inj' htail rfl
    obtain rfl := List.singleton_inj.mp htail
    rw [TableCell.text, textOf_map_char, Option.map_some, Option.some.injEq] at hfirst hlast
    -- decoding and the end at a NUL both leave the name no longer
    have hstr : cStr (fileName file.path) = fileName file.path := by
      refine cStr_eq_of_length_le ?_
      have hle := refs.length_le row.name
      rw [hfirst] at hle
      rwa [hname] at hle
    rw [hname, hstr] at hfirst hinertName
    rw [htext] at hlast hinertText
    exact ⟨(cStr_eq_iff _).mp hstr, ⟨hinertName, hfirst⟩, ⟨hinertText, hlast⟩⟩
  · rintro ⟨hnul, ⟨-, hdecName⟩, ⟨-, hdecText⟩⟩
    refine ⟨_, _, row.colors, rfl, hcolors, ?_, ?_⟩
    · rw [TableCell.text, textOf_map_char, hname, (cStr_eq_iff _).mpr hnul, Option.map_some,
        hdecName]
    · rw [TableCell.text, textOf_map_char, htext, Option.map_some, hdecText]

/-- The number of cells in a row of a file. -/
theorem ReportRow.IsOf.length_cells {infos : List ResultCodeInfo} {results : Results} {i : ℕ}
    {file : TestSuiteFile} {row : ReportRow} (h : row.IsOf infos results i file) :
    row.cells.length = results.length + 2 := by
  have hcolors := congrArg List.length h.2.1
  rw [List.length_map, resultColors, List.length_map] at hcolors
  rw [ReportRow.cells, List.length_cons, List.length_append, List.length_map, hcolors]
  rfl

/-- The coloured cells of two rows of the same results are as many. -/
theorem ReportRow.IsOf.colors_eq {infos : List ResultCodeInfo} {results : Results} {i : ℕ}
    {file : TestSuiteFile} {row : ReportRow} (h : row.IsOf infos results i file)
    {colors : List (List Char)} (hcolors : colors.map some = resultColors infos results i) :
    colors = row.colors :=
  List.map_injective_iff.mpr (Option.some_injective _) (hcolors.trans h.2.1.symm)

/-- **A cell that is cut short does not show what it should.** -/
theorem ReportRow.IsOf.not_showsFile {infos : List ResultCodeInfo} {results : Results} {i : ℕ}
    {file : TestSuiteFile} {row : ReportRow} (h : row.IsOf infos results i file)
    (refs : CharRefs) {k : ℕ} {t : List Char} (hshown : row.ShownIn k t) {cell : TableCell}
    (hcut : ∀ q, cell.text = some q → q.length < t.length) {cells : List TableCell}
    (hcell : cells[k]? = some cell) : ¬ ShowsFile refs infos results i file cells := by
  rintro ⟨first, last, colors, rfl, hcolors, hfirst, hlast⟩
  -- decoding makes no text longer, so the cell would have to be as long
  have hshort : ∀ u, t.length ≤ u.length → cell.text.map refs.decode ≠ some u := by
    intro u hu hdec
    obtain ⟨q, hq, rfl⟩ := Option.map_eq_some_iff.mp hdec
    exact absurd (hcut q hq) (Nat.not_lt_of_le (hu.trans (refs.length_le q)))
  rcases hshown with ⟨rfl, rfl⟩ | ⟨rfl, rfl⟩
  · obtain rfl : first = cell := Option.some.inj hcell
    exact hshort _ (by rw [h.1]; exact length_cStr_le _) hfirst
  · rw [h.colors_eq hcolors, List.getElem?_cons_succ,
      List.getElem?_append_right (by rw [List.length_map]), List.length_map,
      Nat.sub_self] at hcell
    obtain rfl : last = cell := Option.some.inj hcell
    exact hshort _ (by rw [h.2.2]) hlast

/-- Rows that are written of files, in order. -/
def RowsOf (infos : List ResultCodeInfo) (results : Results) (files : List TestSuiteFile)
    (rows : List ReportRow) : Prop :=
  rows.length = files.length ∧
    ∀ (j : ℕ) (file : TestSuiteFile) (row : ReportRow), files[j]? = some file →
      rows[j]? = some row → row.IsOf infos results j file

namespace RowsOf

variable {infos : List ResultCodeInfo} {results : Results} {files : List TestSuiteFile}
  {rows : List ReportRow}

/-- Each file has its row. -/
theorem exists_row (h : RowsOf infos results files rows) {j : ℕ} {file : TestSuiteFile}
    (hfile : files[j]? = some file) :
    ∃ row, rows[j]? = some row ∧ row.IsOf infos results j file := by
  have hj := (List.getElem?_eq_some_iff.mp hfile).1
  rw [← h.1] at hj
  have hrow : rows[j]? = some rows[j] := List.getElem?_eq_getElem hj
  exact ⟨rows[j], hrow, h.2 j file _ hfile hrow⟩

/-- Each row has its file. -/
theorem exists_file (h : RowsOf infos results files rows) {j : ℕ} {row : ReportRow}
    (hrow : rows[j]? = some row) :
    ∃ file, files[j]? = some file ∧ row.IsOf infos results j file := by
  have hj := (List.getElem?_eq_some_iff.mp hrow).1
  rw [h.1] at hj
  have hfile : files[j]? = some files[j] := List.getElem?_eq_getElem hj
  exact ⟨files[j], hfile, h.2 j _ row hfile hrow⟩

/-- The rows of harmless files are inert. -/
theorem all_isInert (h : RowsOf infos results files rows) {refs : CharRefs}
    (hharmless : ∀ file ∈ files, refs.Harmless file) :
    rows.all ReportRow.isInert = true := by
  refine List.all_eq_true.mpr (fun row hmem => ?_)
  obtain ⟨j, hj⟩ := List.mem_iff_getElem?.mp hmem
  obtain ⟨file, hfile, hof⟩ := h.exists_file hj
  exact hof.isInert (hharmless file (List.mem_of_getElem? hfile))

/-- **Inert rows show their files exactly if all of the files are harmless.** -/
theorem showsFile_iff (h : RowsOf infos results files rows) (refs : CharRefs)
    (hall : rows.all ReportRow.isInert = true) :
    (∀ i file row, files[i]? = some file → (rows.map ReportRow.cells)[i]? = some row →
        ShowsFile refs infos results i file row)
      ↔ ∀ file ∈ files, refs.Harmless file := by
  have hinert : ∀ {j : ℕ} {row : ReportRow}, rows[j]? = some row → row.isInert = true :=
    fun hrow => List.all_eq_true.mp hall _ (List.mem_of_getElem? hrow)
  constructor
  · intro hshows file hmem
    obtain ⟨j, hj⟩ := List.mem_iff_getElem?.mp hmem
    obtain ⟨row, hrow, hof⟩ := h.exists_row hj
    exact (hof.showsFile_iff refs (hinert hrow)).mp
      (hshows j file row.cells hj (by rw [List.getElem?_map, hrow]; rfl))
  · intro hharmless j file cells hj hcells
    obtain ⟨row, hrow, hof⟩ := h.exists_row hj
    rw [List.getElem?_map, hrow] at hcells
    obtain rfl : row.cells = cells := Option.some.inj hcells
    exact (hof.showsFile_iff refs (hinert hrow)).mpr
      (hharmless file (List.mem_of_getElem? hj))

/-- The rows that are read have a cell for each library between the name and
the text. -/
theorem length_cells (h : RowsOf infos results files rows) {j : ℕ} {cells : List TableCell}
    (hcells : (rows.map ReportRow.cells)[j]? = some cells) :
    cells.length = results.length + 2 := by
  rw [List.getElem?_map] at hcells
  obtain ⟨row, hrow, rfl⟩ := Option.map_eq_some_iff.mp hcells
  obtain ⟨file, -, hof⟩ := h.exists_file hrow
  exact hof.length_cells

end RowsOf

/-- **What is read of a report depends on the rows of the files only.** -/
theorem readTables_report (libs : List ReportedLibrary) (infos : List ResultCodeInfo)
    (results : Results) (rows : List Char) :
    readTables (report libs infos results rows)
      = (feed (.data, ⟨[readSummary libs infos results], [readHeader libs], [], .inTable⟩)
          (rows ++ (indent 12 ++ ("</table>".toList ++ indent 8)))).2.closeCell.done := by
  have hassoc : ∀ a b c d e f : List Char,
      a ++ b ++ c ++ d ++ e ++ f = (a ++ b) ++ (c ++ (d ++ (e ++ f))) := by
    intros
    simp only [List.append_assoc]
  unfold readTables report
  exact congrArg (fun s : LexState × TableReader => s.2.closeCell.done)
    ((congrArg (feed _) (hassoc _ _ _ _ _ _)).trans (feed_append_of_eq
      (feed_append_of_eq (feed_summaryTable libs infos results) (feed_detailHeader _ libs)) rfl))

/-- **Inert rows are the rows of the table that is read.** -/
theorem done_feed_rows (S : MarkupTable) (H : List TableCell) {rows : List ReportRow}
    (h : rows.all ReportRow.isInert = true) :
    (feed (.data, ⟨[S], [H], [], .inTable⟩) (rows.flatMap ReportRow.html
        ++ (indent 12 ++ ("</table>".toList ++ indent 8)))).2.closeCell.done
      = [S, H :: rows.map ReportRow.cells] := by
  have hclose : ∀ R, feed (.data, ⟨[S], R, [], .inTable⟩) "</table>".toList
      = (.data, ⟨[S, R], [], [], .outside⟩) := fun _ => rfl
  have hfeed := feed_append_of_eq (feed_rows [S] [H] h)
    (feed_indent_append rfl 12 (feed_append_of_eq (hclose _) (feed_indent rfl 8)))
  exact congrArg (fun s : LexState × TableReader => s.2.closeCell.done) hfeed

/-- **The report reads back exactly if every file is harmless to it**: for any
libraries, files and results of the right shape whose codes all have a colour,
and any decoding of character references. -/
theorem visit_readsBack_iff (refs : CharRefs) (libs : List ReportedLibrary)
    (infos : List ResultCodeInfo) (files : List TestSuiteFile) (results : Results)
    (hlibs : results.length = libs.length) (hfiles : ∀ r ∈ results, r.length = files.length)
    (hcodes : ∀ r ∈ results, ∀ rc ∈ r, ∃ info ∈ infos, info.code = rc) :
    ReadsBack refs libs infos files results ↔ ∀ file ∈ files, refs.Harmless file := by
  obtain ⟨rows, hrows, hlength, hof⟩ := exists_rows infos hcodes 0
    (fun r hr => (hfiles r hr).trans (Nat.zero_add _).symm)
  simp only [Nat.zero_add] at hof
  have hrowsOf : RowsOf infos results files rows := ⟨hlength, hof⟩
  have hread := readTables_report libs infos results
  have hvisit : visit libs infos files results
      = some (report libs infos results (rows.flatMap ReportRow.html)) := by
    rw [visit, hrows]
    rfl
  constructor
  · rintro ⟨html, summary, header, rows', hhtml, htables, hlength', hshows⟩
    obtain rfl := Option.some.inj (hvisit.symm.trans hhtml)
    rw [hread] at htables
    by_cases hall : rows.all ReportRow.isInert = true
    · -- every row is read as it was written
      rw [done_feed_rows _ _ hall] at htables
      obtain ⟨-, htables⟩ := List.cons_eq_cons.mp htables
      obtain ⟨-, rfl⟩ := List.cons_eq_cons.mp (List.singleton_inj.mp htables)
      exact (hrowsOf.showsFile_iff refs hall).mp
        (fun j file row hfile hrow => (hshows j file row hfile hrow).1)
    · -- some cell is cut short
      obtain ⟨j, k, row, cell, t, hj, hshown, hcell, hcut⟩ :=
        exists_cut_cell [readSummary libs infos results] [readHeader libs]
          (Bool.not_eq_true _ ▸ hall) (indent 12 ++ ("</table>".toList ++ indent 8))
      obtain ⟨file, hfile, hof⟩ := hrowsOf.exists_file hj
      rw [htables] at hcell
      have hcell : ((header :: rows')[1 + j]?).bind (fun r => r[k]?) = some cell := hcell
      rw [Nat.add_comm, List.getElem?_cons_succ] at hcell
      obtain ⟨row', hrow', hcell⟩ := Option.bind_eq_some_iff.mp hcell
      exact absurd (hshows j file row' hfile hrow').1 (hof.not_showsFile refs hshown hcut hcell)
  · intro hharmless
    have hall := hrowsOf.all_isInert hharmless
    refine ⟨_, readSummary libs infos results, readHeader libs, rows.map ReportRow.cells, hvisit,
      ?_, ?_, ?_⟩
    · rw [hread, done_feed_rows _ _ hall]
    · rw [List.length_map, hlength]
    · intro j file cells hj hcells
      have hshows := (hrowsOf.showsFile_iff refs hall).mpr hharmless j file cells hj hcells
      rw [hrowsOf.length_cells hcells, hlibs]
      exact ⟨hshows, rfl⟩

/-- A reader of text without character references. -/
def noRefs : CharRefs := ⟨id, fun _ => le_rfl⟩

/-- A library, for a report on one. -/
def nlohmann : ReportedLibrary := ⟨"nlohmann", "3.7.3", by decide, by decide⟩

/-- The report on a file that is not closed. -/
theorem visit_readsBack_unclosed :
    ReadsBack noRefs [nlohmann] resultCodeInfos
      [⟨"data/input/JSON_checker/fail2.json", .expectFailure, "[\"Unclosed array\""⟩]
      [[.expectedResult]] :=
  (visit_readsBack_iff noRefs [nlohmann] resultCodeInfos
    [⟨"data/input/JSON_checker/fail2.json", .expectFailure, "[\"Unclosed array\""⟩]
    [[.expectedResult]] rfl (by decide) (by decide)).mpr
    (by
      intro file hfile
      obtain rfl := List.mem_singleton.mp hfile
      exact ⟨by decide, ⟨by decide, rfl⟩, ⟨by decide, rfl⟩⟩)

/-- **The report on a `null` in angle brackets does not read back**: its text
is a tag. -/
theorem angleBracketNull_not_readBack :
    ¬ ReadsBack noRefs [nlohmann] resultCodeInfos
      [⟨"data/input/JSONTestSuite/test_parsing/n_structure_angle_bracket_null.json",
        .expectFailure, "[<null>]"⟩]
      [[.expectedResult]] := by
  rintro ⟨html, summary, header, rows, hvisit, htables, -, hshows⟩
  have hcell : (((visit [nlohmann] resultCodeInfos
      [⟨"data/input/JSONTestSuite/test_parsing/n_structure_angle_bracket_null.json",
        .expectFailure, "[<null>]"⟩] [[.expectedResult]]).bind
      fun html => cellAt (readTables html) 1 1 2).map TableCell.text) = some none := by
    decide +kernel
  rw [hvisit, Option.bind_some, htables] at hcell
  obtain ⟨cell, hcell, htext⟩ := Option.map_eq_some_iff.mp hcell
  have hcell : ((rows[0]?).bind fun r => r[2]?) = some cell := hcell
  obtain ⟨row, hrow, hcell⟩ := Option.bind_eq_some_iff.mp hcell
  obtain ⟨⟨first, last, colors, rfl, -, -, hlast⟩, hlen⟩ := hshows 0 _ row rfl hrow
  have hone : colors.length = 1 := by simpa using hlen
  rw [List.getElem?_cons_succ, List.getElem?_append_right (by rw [List.length_map, hone]),
    List.length_map, hone] at hcell
  obtain rfl : last = cell := Option.some.inj hcell
  rw [htext] at hlast
  exact absurd hlast (by simp)

end JsonBenchmarks
