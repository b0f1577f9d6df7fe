import JsonBenchmarks.ParsingReport

/-!
# Reading the pieces of the report

What a reader makes of each piece that `visit` writes. Header and summary are
written from constants without markup, so they are always read as they should
be (`feed_summaryTable`, `feed_detailHeader`). A row of a file is read as it was
written if its name and its text are inert (`feed_rows`). If they are not, then
in the first such row a cell is cut short, whatever follows
(`exists_cut_cell`).

Each lemma about a piece starts from any reader that is at its beginning and
says where the reader is at its end, and `feed_append_of_eq` chains them.
-/

namespace JsonBenchmarks

open Markup

/-! ## Reading the pieces -/

theorem lt_notMem_indent (n : ℕ) : '<' ∉ indent n := by
  simp [indent]

/-- The layout between the rows and cells is ignored. -/
theorem feed_indent {b : TableReader} (hmode : b.mode.isCell = false) (n : ℕ) :
    feed (.data, b) (indent n) = (.data, b) :=
  feed_ignored hmode (lt_notMem_indent n)

/-- The layout before a piece is ignored. -/
theorem feed_indent_append {b : TableReader} {s : LexState × TableReader} {cs : List Char}
    (hmode : b.mode.isCell = false) (n : ℕ) (h : feed (.data, b) cs = s) :
    feed (.data, b) (indent n ++ cs) = s :=
  feed_append_of_eq (feed_indent hmode n) h

/-- A coloured cell is read as it was written. -/
theorem feed_colorCell (T : List MarkupTable) (R : MarkupTable) (C : List TableCell)
    {color : List Char} (h : '"' ∉ color) :
    feed (.data, ⟨T, R, C, .inRow⟩) (colorCell color)
      = (.data, ⟨T, R, C ++ [⟨false, [("bgcolor".toList, color)], []⟩], .inRow⟩) := by
  have hopen : feed (.data, ⟨T, R, C, .inRow⟩) "<td bgcolor=\"".toList
      = (.quoted ⟨false, "td".toList, []⟩ "bgcolor".toList '"' [], ⟨T, R, C, .inRow⟩) := rfl
  have hclose : feed (.quoted ⟨false, "td".toList, []⟩ "bgcolor".toList '"' color,
        ⟨T, R, C, .inRow⟩) "\"></td>\n".toList
      = (.data, ⟨T, R, C ++ [⟨false, [("bgcolor".toList, color)], []⟩], .inRow⟩) := rfl
  unfold colorCell
  rw [List.append_assoc]
  exact feed_append_of_eq hopen
    (feed_append_of_eq (feed_of_scan (scan_quoted _ _ h []) _) hclose)

/-- The header cell of a library is read as it was written. -/
theorem feed_libraryHeader (T : List MarkupTable) (R : MarkupTable) (C : List TableCell)
    {label : List Char} (h : '<' ∉ label) :
    feed (.data, ⟨T, R, C, .inRow⟩)
        ("<th class=\"rotate\"><div><span>".toList ++ label ++ "</span></div></th>\n".toList)
      = (.data, ⟨T, R, C ++ [labelCell label], .inRow⟩) := by
  have hopen : feed (.data, ⟨T, R, C, .inRow⟩) "<th class=\"rotate\"><div><span>".toList
      = (.data, ⟨T, R, C, .inCell ⟨true, [("class".toList, "rotate".toList)],
          [.startTag "div".toList [], .startTag "span".toList []]⟩ 0⟩) := by
    exact rfl
  have hclose : ∀ content, feed (.lt, ⟨T, R, C, .inCell ⟨true, [("class".toList,
        "rotate".toList)], content⟩ 0⟩) "/span></div></th>\n".toList
      = (.data, ⟨T, R, C ++ [⟨true, [("class".toList, "rotate".toList)],
          content ++ [.endTag "span".toList] ++ [.endTag "div".toList]⟩], .inRow⟩) := by
    intro content
    exact rfl
  have hcell : labelCell label = ⟨true, [("class".toList, "rotate".toList)],
      [.startTag "div".toList [], .startTag "span".toList []] ++ label.map .char
        ++ [.endTag "span".toList] ++ [.endTag "div".toList]⟩ := by
    rw [List.append_assoc]
    rfl
  rw [List.append_assoc, hcell]
  exact feed_append_of_eq hopen
    ((feed_inert T R C _ (inert_of_notMem h) "/span></div></th>\n".toList).trans (hclose _))

/-- The header cells of the libraries are read one after the other. -/
theorem feed_libraryHeaders (T : List MarkupTable) (R : MarkupTable) (C : List TableCell)
    (libs : List ReportedLibrary) {label : ReportedLibrary → List Char}
    (h : ∀ lib, '<' ∉ label lib) :
    feed (.data, ⟨T, R, C, .inRow⟩) (libraryHeaders libs label)
      = (.data, ⟨T, R, C ++ libs.map (fun lib => labelCell (label lib)), .inRow⟩) := by
  induction libs generalizing C with
  | nil => rw [List.map_nil, List.append_nil]; rfl
  | cons lib libs ih =>
    rw [libraryHeaders, List.flatMap_cons, List.map_cons, List.append_cons]
    exact feed_append_of_eq (feed_libraryHeader T R C (h lib)) (ih _)

/-- The cells that count the results are read one after the other. -/
theorem feed_counts (T : List MarkupTable) (R : MarkupTable) (C : List TableCell)
    (results : Results) (outcome : ResultCode) :
    feed (.data, ⟨T, R, C, .inRow⟩) (results.flatMap fun r =>
        "<td>".toList ++ Nat.toDigits 10 (countResults r outcome) ++ "</td>\n".toList)
      = (.data, ⟨T, R, C ++ results.map (fun r => countCell (r.count outcome)), .inRow⟩) := by
  induction results generalizing C with
  | nil => rw [List.map_nil, List.append_nil]; rfl
  | cons r results ih =>
    have hdigits : '<' ∉ Nat.toDigits 10 (countResults r outcome) :=
      fun h => absurd (Nat.isDigit_of_mem_toDigits (by decide) (by decide) h) (by decide)
    have hopen : feed (.data, ⟨T, R, C, .inRow⟩) "<td>".toList
        = (.data, ⟨T, R, C, .inCell ⟨false, [], []⟩ 0⟩) := rfl
    have hclose : ∀ content, feed (.lt, ⟨T, R, C, .inCell ⟨false, [], content⟩ 0⟩)
          "/td>\n".toList
        = (.data, ⟨T, R, C ++ [⟨false, [], content⟩], .inRow⟩) := fun _ => rfl
    rw [List.flatMap_cons, List.map_cons, List.append_cons,
      List.append_assoc _ _ "</td>\n".toList]
    exact feed_append_of_eq (feed_append_of_eq hopen
      ((feed_inert T R C _ (inert_of_notMem hdigits) "/td>\n".toList).trans (hclose _))) (ih _)

/-- The row of a result code is read as it was written. -/
theorem feed_summaryRow (T : List MarkupTable) (R : MarkupTable) (results : Results)
    (info : ResultCodeInfo) :
    feed (.data, ⟨T, R, [], .inTable⟩) (summaryRow results info)
      = (.data, ⟨T, R ++ [meaningCell info
          :: results.map fun r => countCell (r.count info.code)], [], .inTable⟩) := by
  have hopen : feed (.data, ⟨T, R, [], .inTable⟩) "<tr><td bgcolor=\"".toList
      = (.quoted ⟨false, "td".toList, []⟩ "bgcolor".toList '"' [], ⟨T, R, [], .inRow⟩) := rfl
  have hcolor : feed (.quoted ⟨false, "td".toList, []⟩ "bgcolor".toList '"' info.color.toList,
        ⟨T, R, [], .inRow⟩) "\">".toList
      = (.data, ⟨T, R, [], .inCell ⟨false, [("bgcolor".toList, info.color.toList)], []⟩ 0⟩) := rfl
  have hfont : feed (.data, ⟨T, R, [], .inCell ⟨false, [("bgcolor".toList, info.color.toList)],
        []⟩ 0⟩) "<font color=\"white\">".toList
      = (.data, ⟨T, R, [], .inCell ⟨false, [("bgcolor".toList, info.color.toList)],
          [.startTag "font".toList [("color".toList, "white".toList)]]⟩ 0⟩) := rfl
  have hclose : ∀ a content, feed (.lt, ⟨T, R, [], .inCell ⟨false, a, content⟩ 0⟩)
        "/font></td>".toList
      = (.data, ⟨T, R, [⟨false, a, content ++ [.endTag "font".toList]⟩], .inRow⟩) :=
    fun _ _ => rfl
  have hend : ∀ C, feed (.data, ⟨T, R, C, .inRow⟩) "</tr>\n".toList
      = (.data, ⟨T, R ++ [C], [], .inTable⟩) := fun _ => rfl
  unfold summaryRow
  simp only [List.append_assoc]
  refine feed_append_of_eq hopen (feed_append_of_eq (feed_of_scan
    (scan_quoted _ _ info.color_plain []) _) (feed_append_of_eq hcolor
    (feed_append_of_eq hfont ?_)))
  rw [← List.append_assoc info.description.toList]
  exact feed_append_of_eq ((feed_inert T R [] _ (inert_of_notMem info.description_plain)
    "/font></td>".toList).trans (hclose _ _))
    (feed_append_of_eq (feed_counts T R _ results info.code) (hend _))

/-- The rows of the result codes are read one after the other. -/
theorem feed_summaryRows (T : List MarkupTable) (R : MarkupTable) (results : Results)
    (infos : List ResultCodeInfo) :
    feed (.data, ⟨T, R, [], .inTable⟩) (infos.flatMap (summaryRow results))
      = (.data, ⟨T, R ++ infos.map (fun info => meaningCell info
          :: results.map fun r => countCell (r.count info.code)), [], .inTable⟩) := by
  induction infos generalizing R with
  | nil => rw [List.map_nil, List.append_nil]; rfl
  | cons info infos ih =>
    rw [List.flatMap_cons, List.map_cons, List.append_cons]
    exact feed_append_of_eq (feed_summaryRow T R results info) (ih _)

/-- Name and version are text. -/
theorem ReportedLibrary.label_plain (lib : ReportedLibrary) :
    '<' ∉ lib.name.toList ++ ("-".toList ++ lib.version.toList) := by
  simp only [List.mem_append, not_or]
  exact ⟨lib.name_plain, by decide, lib.version_plain⟩

/-- **The summary table is read as it should be.** -/
theorem feed_summaryTable (libs : List ReportedLibrary) (infos : List ResultCodeInfo)
    (results : Results) :
    feed (.data, .start) (summaryTable libs infos results)
      = (.data, ⟨[readSummary libs infos results], [], [], .outside⟩) := by
  have htable : feed (.data, .start) "<table>".toList = (.data, ⟨[], [], [], .inTable⟩) := rfl
  have hrow : feed (.data, ⟨[], [], [], .inTable⟩) "<tr>".toList
      = (.data, ⟨[], [], [], .inRow⟩) := rfl
  have hcell : feed (.data, ⟨[], [], [], .inRow⟩) "<th></th>".toList
      = (.data, ⟨[], [], [emptyHeader], .inRow⟩) := rfl
  have hrowEnd : ∀ C, feed (.data, ⟨[], [], C, .inRow⟩) "</tr>".toList
      = (.data, ⟨[], [C], [], .inTable⟩) := fun _ => rfl
  have htableEnd : ∀ R, feed (.data, ⟨[], R, [], .inTable⟩) "</table>".toList
      = (.data, ⟨[R], [], [], .outside⟩) := fun _ => rfl
  unfold summaryTable readSummary
  simp only [List.append_assoc]
  refine feed_indent_append rfl 12 (feed_append_of_eq htable ?_)
  refine feed_indent_append rfl 12 (feed_append_of_eq hrow ?_)
  refine feed_indent_append rfl 14 (feed_append_of_eq hcell ?_)
  refine feed_indent_append rfl 8 (feed_append_of_eq
    (feed_libraryHeaders [] [] _ libs ReportedLibrary.label_plain) ?_)
  refine feed_indent_append rfl 12 (feed_append_of_eq (hrowEnd _) ?_)
  refine feed_indent_append rfl 8 (feed_append_of_eq (feed_summaryRows [] _ results infos) ?_)
  exact feed_indent_append rfl 12 (feed_append_of_eq (htableEnd _) (feed_indent rfl 8))

/-- **The beginning of the detail table is read as its header.** The first
`</table>` finds no table open. -/
theorem feed_detailHeader (S : MarkupTable) (libs : List ReportedLibrary) :
    feed (.data, ⟨[S], [], [], .outside⟩) (detailHeader libs)
      = (.data, ⟨[S], [readHeader libs], [], .inTable⟩) := by
  have hstray : feed (.data, ⟨[S], [], [], .outside⟩) "</table>".toList
      = (.data, ⟨[S], [], [], .outside⟩) := rfl
  have htable : feed (.data, ⟨[S], [], [], .outside⟩) "<table style=\"width:100%\">".toList
      = (.data, ⟨[S], [], [], .inTable⟩) := by
    exact rfl
  have hrow : feed (.data, ⟨[S], [], [], .inTable⟩) "<tr>".toList
      = (.data, ⟨[S], [], [], .inRow⟩) := rfl
  have hcell : ∀ C, feed (.data, ⟨[S], [], C, .inRow⟩) "<th></th>".toList
      = (.data, ⟨[S], [], C ++ [emptyHeader], .inRow⟩) := fun _ => rfl
  have hrowEnd : ∀ C, feed (.data, ⟨[S], [], C, .inRow⟩) "</tr>".toList
      = (.data, ⟨[S], [C], [], .inTable⟩) := fun _ => rfl
  unfold detailHeader
  simp only [List.append_assoc]
  refine feed_indent_append rfl 12 (feed_append_of_eq hstray ?_)
  refine feed_indent_append rfl 12 (feed_append_of_eq htable ?_)
  refine feed_indent_append rfl 12 (feed_append_of_eq hrow ?_)
  refine feed_indent_append rfl 14 (feed_append_of_eq (hcell []) ?_)
  refine feed_indent_append rfl 8 (feed_append_of_eq
    (feed_libraryHeaders [S] [] _ libs fun lib => lib.name_plain) ?_)
  refine feed_indent_append rfl 14 (feed_append_of_eq (hcell _) ?_)
  exact feed_indent_append rfl 12 (feed_append_of_eq (hrowEnd _) (feed_indent rfl 8))

/-! ## Reading the rows of the files -/

/-- What is written of a file: its name, the colours and its text, as they
are. -/
structure ReportRow where
  name : List Char
  colors : List (List Char)
  text : List Char
  colors_plain : ∀ c ∈ colors, '"' ∉ c

namespace ReportRow

/-- The row as it is written. -/
def html (row : ReportRow) : List Char :=
  "<tr>\n".toList ++ "<td>".toList ++ row.name ++ "</td>".toList
    ++ row.colors.flatMap (fun color => "<td bgcolor=\"".toList ++ color ++ "\"></td>\n".toList)
    ++ "<td>".toList ++ row.text ++ "</td>\n".toList ++ "</tr>\n".toList

/-- Its coloured cells are those that `visit` writes. -/
theorem html_eq (row : ReportRow) :
    row.html = "<tr>\n".toList ++ "<td>".toList ++ row.name ++ "</td>".toList
      ++ row.colors.flatMap colorCell ++ "<td>".toList ++ row.text ++ "</td>\n".toList
      ++ "</tr>\n".toList := rfl

/-- The row as it should be read. -/
def cells (row : ReportRow) : List TableCell :=
  ⟨false, [], row.name.map .char⟩ :: (row.colors.map colorTableCell
    ++ [⟨false, [], row.text.map .char⟩])

/-- Whether no text in the row opens markup. -/
def isInert (row : ReportRow) : Bool := inert row.name && inert row.text

end ReportRow

/-- The coloured cells of a row are read one after the other. -/
theorem feed_colorCells (T : List MarkupTable) (R : MarkupTable) (C : List TableCell)
    {colors : List (List Char)} (h : ∀ c ∈ colors, '"' ∉ c) :
    feed (.data, ⟨T, R, C, .inRow⟩) (colors.flatMap colorCell)
      = (.data, ⟨T, R, C ++ colors.map colorTableCell, .inRow⟩) := by
  induction colors generalizing C with
  | nil => rw [List.map_nil, List.append_nil]; rfl
  | cons color colors ih =>
    obtain ⟨hcolor, hcolors⟩ := List.forall_mem_cons.mp h
    rw [List.flatMap_cons, List.map_cons, List.append_cons]
    exact feed_append_of_eq (feed_colorCell T R C hcolor) (ih _ hcolors)

section Row

variable (T : List MarkupTable) (R : MarkupTable) (row : ReportRow)

/-- A row up to its name. -/
theorem feed_row_name :
    feed (.data, ⟨T, R, [], .inTable⟩) ("<tr>\n".toList ++ "<td>".toList)
      = (.data, ⟨T, R, [], .inCell ⟨false, [], []⟩ 0⟩) := rfl

/-- A row whose name is inert, up to its text. -/
theorem feed_row_text (h : inert row.name = true) :
    feed (.data, ⟨T, R, [], .inTable⟩) ("<tr>\n".toList ++ "<td>".toList ++ row.name
        ++ "</td>".toList ++ row.colors.flatMap colorCell ++ "<td>".toList)
      = (.data, ⟨T, R, ⟨false, [], row.name.map .char⟩ :: row.colors.map colorTableCell,
          .inCell ⟨false, [], []⟩ 0⟩) := by
  have hclose : ∀ content, feed (.lt, ⟨T, R, [], .inCell ⟨false, [], content⟩ 0⟩) "/td>".toList
      = (.data, ⟨T, R, [⟨false, [], content⟩], .inRow⟩) := fun _ => rfl
  have hopen : ∀ C, feed (.data, ⟨T, R, C, .inRow⟩) "<td>".toList
      = (.data, ⟨T, R, C, .inCell ⟨false, [], []⟩ 0⟩) := fun _ => rfl
  rw [List.append_assoc _ row.name]
  exact feed_append_of_eq (feed_append_of_eq (feed_append_of_eq (feed_row_name T R)
    ((feed_inert T R [] _ h "/td>".toList).trans (hclose _)))
    (feed_colorCells T R _ row.colors_plain)) (hopen _)

/-- **An inert row is read as it was written.** -/
theorem feed_row (h : row.isInert = true) :
    feed (.data, ⟨T, R, [], .inTable⟩) row.html
      = (.data, ⟨T, R ++ [row.cells], [], .inTable⟩) := by
  obtain ⟨hname, htext⟩ := Bool.and_eq_true_iff.mp h
  have hclose : ∀ C content, feed (.lt, ⟨T, R, C, .inCell ⟨false, [], content⟩ 0⟩) "/td>\n".toList
      = (.data, ⟨T, R, C ++ [⟨false, [], content⟩], .inRow⟩) := fun _ _ => rfl
  have hend : ∀ C, feed (.data, ⟨T, R, C, .inRow⟩) "</tr>\n".toList
      = (.data, ⟨T, R ++ [C], [], .inTable⟩) := fun _ => rfl
  rw [row.html_eq]
  rw [List.append_assoc _ row.text]
  exact feed_append_of_eq (feed_append_of_eq (feed_row_text T R row hname)
    ((feed_inert T R _ _ htext "/td>\n".toList).trans (hclose _ _))) (hend _)

/-- A row is read up to its name, and then the rest. -/
theorem feed_html_name (after : List Char) :
    feed (.data, ⟨T, R, [], .inTable⟩) (row.html ++ after)
      = feed (.data, ⟨T, R, [], .inCell ⟨false, [], []⟩ 0⟩)
        (row.name ++ ("</td>".toList ++ (row.colors.flatMap colorCell ++ ("<td>".toList
          ++ (row.text ++ ("</td>\n".toList ++ ("</tr>\n".toList ++ after))))))) := by
  have hassoc : ∀ a b n c k d t e f : List Char,
      a ++ b ++ n ++ c ++ k ++ d ++ t ++ e ++ f ++ after
        = (a ++ b) ++ (n ++ (c ++ (k ++ (d ++ (t ++ (e ++ (f ++ after))))))) := by
    intros
    simp only [List.append_assoc]
  rw [row.html_eq]
  exact (congrArg (feed _) (hassoc _ _ _ _ _ _ _ _ _)).trans
    (feed_append_of_eq (feed_row_name T R) rfl)

/-- A row whose name is inert is read up to its text, and then the rest. -/
theorem feed_html_text (h : inert row.name = true) (after : List Char) :
    feed (.data, ⟨T, R, [], .inTable⟩) (row.html ++ after)
      = feed (.data, ⟨T, R, ⟨false, [], row.name.map .char⟩ :: row.colors.map colorTableCell,
          .inCell ⟨false, [], []⟩ 0⟩)
        (row.text ++ ("</td>\n".toList ++ ("</tr>\n".toList ++ after))) := by
  have hassoc : ∀ a t e f : List Char,
      a ++ t ++ e ++ f ++ after = a ++ (t ++ (e ++ (f ++ after))) := by
    intros
    simp only [List.append_assoc]
  rw [row.html_eq]
  exact (congrArg (feed _) (hassoc _ _ _ _)).trans
    (feed_append_of_eq (feed_row_text T R row h) rfl)

end Row

/-- Inert rows are read as they were written. -/
theorem feed_rows (T : List MarkupTable) (R : MarkupTable) {rows : List ReportRow}
    (h : rows.all ReportRow.isInert = true) :
    feed (.data, ⟨T, R, [], .inTable⟩) (rows.flatMap ReportRow.html)
      = (.data, ⟨T, R ++ rows.map ReportRow.cells, [], .inTable⟩) := by
  induction rows generalizing R with
  | nil => rw [List.map_nil, List.append_nil]; rfl
  | cons row rows ih =>
    rw [List.all_cons, Bool.and_eq_true] at h
    rw [List.flatMap_cons, List.map_cons, List.append_cons]
    exact feed_append_of_eq (feed_row T R row h.1) (ih _ h.2)

/-- The cell of a row that shows its name or its text. -/
def ReportRow.ShownIn (row : ReportRow) (k : ℕ) (t : List Char) : Prop :=
  k = 0 ∧ t = row.name ∨ k = row.colors.length + 1 ∧ t = row.text

/-- **In rows that are not all inert some cell is cut short**, whatever is
written behind them. -/
theorem exists_cut_cell (T : List MarkupTable) (R : MarkupTable) {rows : List ReportRow}
    (h : rows.all ReportRow.isInert = false) (rest : List Char) :
    ∃ j k row cell t, rows[j]? = some row ∧ row.ShownIn k t ∧
      cellAt (feed (.data, ⟨T, R, [], .inTable⟩)
        (rows.flatMap ReportRow.html ++ rest)).2.closeCell.done T.length (R.length + j) k
          = some cell ∧
      ∀ q, cell.text = some q → q.length < t.length := by
  induction rows generalizing R with
  | nil => exact absurd h (by simp)
  | cons row rows ih =>
    rw [List.flatMap_cons, List.append_assoc]
    by_cases hrow : row.isInert = true
    · -- the row is read, and the cell is in one of the next
      rw [List.all_cons, hrow, Bool.true_and] at h
      obtain ⟨j, k, row', cell, t, hj, hshown, hcell, hcut⟩ := ih (R ++ [row.cells]) h
      rw [List.length_append, List.length_singleton, Nat.add_assoc, Nat.add_comm 1] at hcell
      rw [feed_append, feed_row T R row hrow]
      exact ⟨j + 1, k, row', cell, t, hj, hshown, hcell, hcut⟩
    · generalize rows.flatMap ReportRow.html ++ rest = after
      by_cases hname : inert row.name = true
      · -- the name is read, and the text is cut
        have htext : inert row.text = false := by
          rw [ReportRow.isInert, hname, Bool.true_and] at hrow
          exact Bool.not_eq_true _ ▸ hrow
        obtain ⟨cell, hcell, hcut⟩ := exists_cellAt_feed
          ⟨T, R, ⟨false, [], row.name.map .char⟩ :: row.colors.map colorTableCell,
            .inCell ⟨false, [], []⟩ 0⟩ rfl rfl htext
          ("</td>\n".toList ++ ("</tr>\n".toList ++ after))
        rw [List.length_cons, List.length_map, ← feed_html_text T R row hname] at hcell
        exact ⟨0, row.colors.length + 1, row, cell, row.text, rfl, Or.inr ⟨rfl, rfl⟩, hcell, hcut⟩
      · obtain ⟨cell, hcell, hcut⟩ := exists_cellAt_feed
          ⟨T, R, [], .inCell ⟨false, [], []⟩ 0⟩ rfl rfl (Bool.not_eq_true _ ▸ hname)
          ("</td>".toList ++ (row.colors.flatMap colorCell ++ ("<td>".toList
            ++ (row.text ++ ("</td>\n".toList ++ ("</tr>\n".toList ++ after))))))
        rw [← feed_html_name T R row] at hcell
        exact ⟨0, 0, row, cell, row.name, rfl, Or.inl ⟨rfl, rfl⟩, hcell, hcut⟩

end JsonBenchmarks
