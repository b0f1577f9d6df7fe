import JsonBenchmarks.ReportReadBack

/-!
# The two tables of the parsing report

The summary counts the results of a library, one count for each result code.
The detail table goes through the results the other way round, file by file,
and shows a colour for each library. A count of the summary should be the
number of cells of its colour in the library's column.

It is, since a colour stands for one code (`colorOf_eq_iff`): a column of the
detail table shows the results of its library one by one (`map_colors_eq`), so
counting a colour is counting a code. And since each result has one code, the
counts of a library add up to the number of files (`sum_map_count`).
-/

namespace JsonBenchmarks

/-! ## What is written -/

/-- A row of the summary table: a colour, what it means, and a count for each
library. -/
structure SummaryRow where
  color : List Char
  description : List Char
  counts : List ℕ

/-- The row as it is written. -/
def SummaryRow.html (row : SummaryRow) : List Char :=
  "<tr><td bgcolor=\"".toList ++ row.color ++ "\">".toList
    ++ "<font color=\"white\">".toList ++ row.description ++ "</font></td>".toList
    ++ row.counts.flatMap (fun count =>
        "<td>".toList ++ Nat.toDigits 10 count ++ "</td>\n".toList)
    ++ "</tr>\n".toList

/-- **The tables of a report**: the rows behind the headers. -/
structure ReportTables where
  summary : List SummaryRow
  details : List ReportRow

namespace ReportTables

/-- The report as it is written. -/
def html (libs : List ReportedLibrary) (t : ReportTables) : List Char :=
  "\n            <table>\n            <tr>\n              <th></th>\n        ".toList
    ++ libs.flatMap (fun lib => "<th class=\"rotate\"><div><span>".toList ++ lib.name.toList
        ++ "-".toList ++ lib.version.toList ++ "</span></div></th>\n".toList)
    ++ "\n            </tr>\n        ".toList
    ++ t.summary.flatMap SummaryRow.html
    ++ "\n            </table>\n        ".toList
    ++ "\n            </table>\n            <table style=\"width:100%\">".toList
    ++ "\n            <tr>\n              <th></th>\n        ".toList
    ++ libs.flatMap (fun lib => "<th class=\"rotate\"><div><span>".toList ++ lib.name.toList
        ++ "</span></div></th>\n".toList)
    ++ "\n              <th></th>\n            </tr>\n        ".toList
    ++ t.details.flatMap ReportRow.html
    ++ "\n            </table>\n        ".toList

/-- How many cells of a colour the details have in the column of a library. -/
def colorCount (t : ReportTables) (j : ℕ) (color : List Char) : ℕ :=
  t.details.countP fun row => row.colors[j]? = some color

/-- The counts of a library in the summary. -/
def countsOf (t : ReportTables) (j : ℕ) : List ℕ := t.summary.filterMap fun row => row.counts[j]?

/-- **The two tables agree** about some libraries and files. -/
structure Agree (t : ReportTables) (libs files : ℕ) : Prop where
  /-- There is a row for each file, with a coloured cell for each library. -/
  length_details : t.details.length = files
  length_colors : ∀ row ∈ t.details, row.colors.length = libs
  /-- The summary counts cells of the details. -/
  counts_eq : ∀ row ∈ t.summary,
    row.counts = (List.range libs).map fun j => t.colorCount j row.color
  /-- The counts of a library add up to the number of files. -/
  sum_countsOf : ∀ j < libs, (t.countsOf j).sum = files

end ReportTables

/-- The row of the summary for a result code. -/
def summaryRowOf (results : Results) (info : ResultCodeInfo) : SummaryRow :=
  ⟨info.color.toList, info.description.toList, results.map fun r => countResults r info.code⟩

/-- The summary is written row by row. -/
theorem html_summaryRowOf (results : Results) (info : ResultCodeInfo) :
    (summaryRowOf results info).html = summaryRow results info := by
  have hcounts := List.flatMap_map (fun r => countResults r info.code)
    (fun count => "<td>".toList ++ Nat.toDigits 10 count ++ "</td>\n".toList) results
  unfold SummaryRow.html summaryRowOf summaryRow
  rw [hcounts]

/-- The raw strings of `visit`, line by line. -/
theorem rawStrings_eq :
    "\n            <table>\n            <tr>\n              <th></th>\n        ".toList
        = indent 12 ++ "<table>".toList ++ indent 12 ++ "<tr>".toList ++ indent 14
          ++ "<th></th>".toList ++ indent 8 ∧
      "\n            </tr>\n        ".toList = indent 12 ++ "</tr>".toList ++ indent 8 ∧
      "\n            </table>\n        ".toList = indent 12 ++ "</table>".toList ++ indent 8 ∧
      "\n            </table>\n            <table style=\"width:100%\">".toList
        = indent 12 ++ "</table>".toList ++ indent 12
          ++ "<table style=\"width:100%\">".toList ∧
      "\n            <tr>\n              <th></th>\n        ".toList
        = indent 12 ++ "<tr>".toList ++ indent 14 ++ "<th></th>".toList ++ indent 8 ∧
      "\n              <th></th>\n            </tr>\n        ".toList
        = indent 14 ++ "<th></th>".toList ++ indent 12 ++ "</tr>".toList ++ indent 8 := by
  decide +kernel

/-- A report with rows for its files is that of its tables. -/
theorem html_eq_report (libs : List ReportedLibrary) (infos : List ResultCodeInfo)
    (results : Results) (rows : List ReportRow) :
    ReportTables.html libs ⟨infos.map (summaryRowOf results), rows⟩
      = report libs infos results (rows.flatMap ReportRow.html) := by
  have hsummary : (infos.map (summaryRowOf results)).flatMap SummaryRow.html
      = infos.flatMap (summaryRow results) := by
    rw [List.flatMap_map, funext (html_summaryRowOf results)]
  obtain ⟨htable, hrowEnd, htableEnd, hdetails, hrow, hlast⟩ := rawStrings_eq
  unfold ReportTables.html report summaryTable detailHeader libraryHeaders
  rw [hsummary, htable, hrowEnd, htableEnd, hdetails, hrow, hlast]
  simp only [List.append_assoc]

/-! ## Colours stand for codes -/

/-- The colour of a result code, that of the first information about it. -/
def colorOf (infos : List ResultCodeInfo) (rc : ResultCode) : Option (List Char) :=
  (infos.find? fun a => a.code == rc).map fun a => a.color.toList

section Colors

variable {infos : List ResultCodeInfo}

/-- Looking up a code that is listed once. -/
theorem find?_code_iff (hcodes : ∀ code, (infos.map ResultCodeInfo.code).count code = 1)
    (rc : ResultCode) (info : ResultCodeInfo) :
    infos.find? (fun a => a.code == rc) = some info ↔ info ∈ infos ∧ info.code = rc := by
  have hnodup : (infos.map ResultCodeInfo.code).Nodup :=
    List.nodup_iff_count_le_one.mpr fun code => (hcodes code).le
  have hfound : ∀ {a}, infos.find? (fun a => a.code == rc) = some a → a ∈ infos ∧ a.code = rc :=
    fun h => ⟨List.mem_of_find?_eq_some h,
      beq_iff_eq.mp (List.find?_some (p := fun a : ResultCodeInfo => a.code == rc) h)⟩
  constructor
  · exact hfound
  · rintro ⟨hmem, hcode⟩
    obtain ⟨a, ha⟩ : ∃ a, infos.find? (fun a => a.code == rc) = some a :=
      Option.isSome_iff_exists.mp (List.find?_isSome.mpr ⟨info, hmem, beq_iff_eq.mpr hcode⟩)
    obtain ⟨hmem', hcode'⟩ := hfound ha
    rw [ha, List.inj_on_of_nodup_map hnodup hmem' hmem (hcode'.trans hcode.symm)]

/-- **A colour stands for one code**, if each code is listed once and the
colours are different. -/
theorem colorOf_eq_iff (hcodes : ∀ code, (infos.map ResultCodeInfo.code).count code = 1)
    (hcolors : (infos.map ResultCodeInfo.color).Nodup) {info : ResultCodeInfo}
    (hmem : info ∈ infos) (rc : ResultCode) :
    colorOf infos rc = some info.color.toList ↔ rc = info.code := by
  unfold colorOf
  constructor
  · intro h
    obtain ⟨a, ha, hcolor⟩ := Option.map_eq_some_iff.mp h
    obtain ⟨hmem', hcode⟩ := (find?_code_iff hcodes rc a).mp ha
    rw [← hcode, List.inj_on_of_nodup_map hcolors hmem' hmem (String.toList_inj.mp hcolor)]
  · intro h
    rw [(find?_code_iff hcodes rc info).mpr ⟨hmem, h.symm⟩]
    rfl

end Colors

/-! ## Columns -/

section Columns

variable {infos : List ResultCodeInfo} {results : Results} {files : List TestSuiteFile}
  {rows : List ReportRow}

/-- The cells of a row show the results for its file. -/
theorem getElem?_colors {i : ℕ} {file : TestSuiteFile} {row : ReportRow}
    (h : row.IsOf infos results i file) {j : ℕ} {r : List ResultCode} (hr : results[j]? = some r) :
    row.colors[j]? = (r[i]?).bind (colorOf infos) := by
  have hj : (row.colors.map some)[j]? = (resultColors infos results i)[j]? := by rw [h.2.1]
  rw [List.getElem?_map, resultColors, List.getElem?_map, hr] at hj
  obtain ⟨c, hc, hcolor⟩ := Option.map_eq_some_iff.mp hj
  exact hc.trans hcolor

/-- **A column shows the results of its library.** -/
theorem map_colors_eq (h : RowsOf infos results files rows) {j : ℕ} {r : List ResultCode}
    (hr : results[j]? = some r) (hlen : r.length = files.length) :
    rows.map (fun row => row.colors[j]?) = r.map (colorOf infos) := by
  refine List.ext_getElem? fun i => ?_
  rw [List.getElem?_map, List.getElem?_map]
  cases hrow : rows[i]? with
  | none =>
    have hi : r.length ≤ i := by
      rw [hlen, ← h.1]
      exact List.getElem?_eq_none_iff.mp hrow
    rw [List.getElem?_eq_none hi]
    rfl
  | some row =>
    obtain ⟨file, hfile, hof⟩ := h.exists_file hrow
    have hi : i < r.length := by
      rw [hlen]
      exact (List.getElem?_eq_some_iff.mp hfile).1
    rw [Option.map_some, getElem?_colors hof hr, List.getElem?_eq_getElem hi]
    rfl

/-- Counting a colour in a column is counting its code. -/
theorem countP_colors_eq (h : RowsOf infos results files rows)
    (hcodes : ∀ code, (infos.map ResultCodeInfo.code).count code = 1)
    (hcolors : (infos.map ResultCodeInfo.color).Nodup) {info : ResultCodeInfo}
    (hmem : info ∈ infos) {j : ℕ} {r : List ResultCode} (hr : results[j]? = some r)
    (hlen : r.length = files.length) :
    rows.countP (fun row => row.colors[j]? = some info.color.toList)
      = countResults r info.code := by
  calc rows.countP (fun row => row.colors[j]? = some info.color.toList)
      = (rows.map fun row => row.colors[j]?).countP (fun c => c = some info.color.toList) := by
        rw [List.countP_map]
        rfl
    _ = (r.map (colorOf infos)).countP (fun c => c = some info.color.toList) := by
        rw [map_colors_eq h hr hlen]
    _ = r.countP (fun rc => colorOf infos rc = some info.color.toList) := by
        rw [List.countP_map]
        rfl
    _ = countResults r info.code := by
        unfold countResults
        rw [List.count]
        refine List.countP_congr fun rc _ => ?_
        rw [decide_eq_true_eq, colorOf_eq_iff hcodes hcolors hmem, beq_iff_eq]

end Columns

/-! ## Totals -/

section Totals

variable {α : Type} [DecidableEq α]

/-- Adding one for each occurrence is counting. -/
theorem sum_map_ite_eq_count (a : α) (codes : List α) :
    (codes.map fun code => if a == code then 1 else 0).sum = codes.count a := by
  induction codes with
  | nil => rfl
  | cons code codes ih =>
    rw [List.map_cons, List.sum_cons, ih, List.count_cons, Nat.add_comm, BEq.comm]

/-- Counting by codes that are listed once counts everything once. -/
theorem sum_map_count {codes : List α} (hcodes : ∀ code, codes.count code = 1) (r : List α) :
    (codes.map fun code => r.count code).sum = r.length := by
  induction r with
  | nil =>
    simp only [List.count_nil, List.map_const', List.sum_replicate, smul_zero, List.length_nil]
  | cons a r ih =>
    have hsplit : (codes.map fun code => (a :: r).count code).sum
        = (codes.map fun code => r.count code).sum
          + (codes.map fun code => if a == code then 1 else 0).sum := by
      rw [← List.sum_map_add]
      exact congrArg (fun f => (codes.map f).sum) (funext fun code => List.count_cons)
    rw [hsplit, ih, sum_map_ite_eq_count, hcodes a, List.length_cons]

end Totals

/-! ## The tables of a report agree -/

section Agree

variable {infos : List ResultCodeInfo} {results : Results} {files : List TestSuiteFile}
  {rows : List ReportRow}

/-- A row of the summary counts the cells of its colour. -/
theorem counts_summaryRowOf (h : RowsOf infos results files rows)
    (hfiles : ∀ r ∈ results, r.length = files.length)
    (hcodes : ∀ code, (infos.map ResultCodeInfo.code).count code = 1)
    (hcolors : (infos.map ResultCodeInfo.color).Nodup) {info : ResultCodeInfo}
    (hmem : info ∈ infos) (summary : List SummaryRow) :
    (summaryRowOf results info).counts = (List.range results.length).map fun j =>
      ReportTables.colorCount ⟨summary, rows⟩ j (summaryRowOf results info).color := by
  refine List.ext_getElem? fun j => ?_
  unfold summaryRowOf
  rw [List.getElem?_map, List.getElem?_map]
  cases hr : results[j]? with
  | none =>
    rw [List.getElem?_eq_none]
    · rfl
    · rw [List.length_range]
      exact List.getElem?_eq_none_iff.mp hr
  | some r =>
    have hj : j < results.length := (List.getElem?_eq_some_iff.mp hr).1
    rw [List.getElem?_range hj, Option.map_some, Option.map_some, ReportTables.colorCount]
    exact congrArg some
      (countP_colors_eq h hcodes hcolors hmem hr (hfiles r (List.mem_of_getElem? hr))).symm

/-- The counts of a library. -/
theorem countsOf_eq {j : ℕ} {r : List ResultCode} (hr : results[j]? = some r) :
    ReportTables.countsOf ⟨infos.map (summaryRowOf results), rows⟩ j
      = (infos.map ResultCodeInfo.code).map fun code => r.count code := by
  have hrow : (fun info => (summaryRowOf results info).counts[j]?)
      = fun info : ResultCodeInfo => some (r.count info.code) := by
    funext info
    show (results.map fun r => countResults r info.code)[j]? = _
    rw [List.getElem?_map, hr]
    rfl
  unfold ReportTables.countsOf
  rw [List.filterMap_map, List.map_map, ← List.filterMap_eq_map]
  exact congrArg (infos.filterMap ·) hrow

end Agree

/-- **The tables of the report agree**, for all files and results: `visit`
reads only results that are there, and writes a row for each file with a
coloured cell for each library, a row of counts for each code, each count the
number of the cells of its colour in the column of its library, and all counts
of a library together the number of files. -/
theorem visit_tables_agree (libs : List ReportedLibrary) (infos : List ResultCodeInfo)
    (files : List TestSuiteFile) (results : Results) (hlibs : results.length = libs.length)
    (hfiles : ∀ r ∈ results, r.length = files.length)
    (hcodes : ∀ code, (infos.map ResultCodeInfo.code).count code = 1)
    (hcolors : (infos.map ResultCodeInfo.color).Nodup) :
    ∃ t : ReportTables, visit libs infos files results = some (t.html libs) ∧
      t.summary.map SummaryRow.color = infos.map (fun info => info.color.toList) ∧
      RowsOf infos results files t.details ∧ t.Agree libs.length files.length := by
  have hlisted : ∀ r ∈ results, ∀ rc ∈ r, ∃ info ∈ infos, info.code = rc := by
    intro r _ rc _
    have hpos : 0 < (infos.map ResultCodeInfo.code).count rc := by
      rw [hcodes rc]
      exact Nat.one_pos
    exact List.mem_map.mp (List.count_pos_iff.mp hpos)
  obtain ⟨rows, hrows, hlength, hof⟩ := exists_rows infos hlisted 0 (fun r hr => by
    rw [hfiles r hr, Nat.zero_add])
  have hrowsOf : RowsOf infos results files rows :=
    ⟨hlength, fun j file row hfile hrow => by
      rw [← Nat.zero_add j]
      exact hof j file row hfile hrow⟩
  refine ⟨⟨infos.map (summaryRowOf results), rows⟩, ?_, ?_, hrowsOf, ?_⟩
  · rw [visit, hrows, html_eq_report]
    rfl
  · rw [List.map_map]
    rfl
  · refine ⟨hlength, ?_, ?_, ?_⟩
    · intro row hmem
      obtain ⟨i, hrow⟩ := List.mem_iff_getElem?.mp hmem
      obtain ⟨file, -, hof⟩ := hrowsOf.exists_file hrow
      have hcells := congrArg List.length hof.2.1
      rw [List.length_map, resultColors, List.length_map, hlibs] at hcells
      exact hcells
    · intro row hmem
      obtain ⟨info, hinfo, rfl⟩ := List.mem_map.mp hmem
      rw [← hlibs]
      exact counts_summaryRowOf hrowsOf hfiles hcodes hcolors hinfo _
    · intro j hj
      rw [← hlibs] at hj
      have hr : results[j]? = some results[j] := List.getElem?_eq_getElem hj
      rw [countsOf_eq hr, sum_map_count hcodes]
      exact hfiles _ (List.getElem_mem hj)

/-- A document, and the beginning of one. -/
def twoFiles : List TestSuiteFile :=
  [⟨"data/y_a.json", .expectSuccess, "[]"⟩, ⟨"data/n_b.json", .expectFailure, "["⟩]

/-- A library that stops at the second of two files. -/
theorem visit_tables_agree_two :
    ∃ t : ReportTables,
      visit [nlohmann] resultCodeInfos twoFiles [[.expectedResult, .processStopped]]
          = some (t.html [nlohmann]) ∧
        t.summary.map SummaryRow.color = resultCodeInfos.map (fun info => info.color.toList) ∧
        RowsOf resultCodeInfos [[.expectedResult, .processStopped]] twoFiles t.details ∧
        t.Agree 1 2 :=
  visit_tables_agree [nlohmann] resultCodeInfos twoFiles [[.expectedResult, .processStopped]] rfl
    (by decide) (fun code => by cases code <;> rfl) (by decide)

end JsonBenchmarks
