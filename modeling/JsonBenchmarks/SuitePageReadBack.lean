import JsonBenchmarks.SuitePage

/-!
# When the page of the test suites reads back

A page is written piece by piece, and each piece is the work of some visits:
none for what stands between the reports, one for a report. `PageOf` says of a
piece what is needed of a whole page. If its visits are harmless then it is
read as their reports; and if what is read begins with reports that show its
visits, whatever follows the piece, then they are harmless. Two pieces are one
piece (`PageOf.append`), so all that remains is a piece that is a report
(`exists_pageOf_visit`) and one that is not (`PageOf.aside`).
-/

namespace JsonBenchmarks

open FallibleRuns Markup

/-- **What a loop writes is put together of what its rounds write**, for any
relation between texts and what they are made of that allows it. -/
theorem exists_mapM_flatten {α ι : Type} {P : List Char → List ι → Prop} (nil : P [] [])
    (append : ∀ {cs ds is js}, P cs is → P ds js → P (cs ++ ds) (is ++ js))
    {f : α → Option (List Char)} {g : α → List ι} {as : List α}
    (h : ∀ a ∈ as, ∃ cs, f a = some cs ∧ P cs (g a)) :
    ∃ css, as.mapM f = some css ∧ P css.flatten (as.flatMap g) := by
  induction as with
  | nil => exact ⟨[], rfl, nil⟩
  | cons a as ih =>
    obtain ⟨⟨cs, hcs, hP⟩, has⟩ := List.forall_mem_cons.mp h
    obtain ⟨css, hcss, hPs⟩ := ih has
    refine ⟨cs :: css, ?_, append hP hPs⟩
    rw [List.mapM_cons, hcs, hcss]
    rfl

/-- Each report has two tables. -/
theorem length_flatMap_tables (reports : List ReadReport) :
    (reports.flatMap ReadReport.tables).length = 2 * reports.length := by
  induction reports with
  | nil => rfl
  | cons t reports ih =>
    rw [List.flatMap_cons, List.length_append, ih, List.length_cons, Nat.mul_add, Nat.add_comm]
    rfl

section PageOf

variable (refs : CharRefs) (libs : List ReportedLibrary) (infos : List ResultCodeInfo)

/-- **A piece of a page is the work of some visits.** -/
structure PageOf (html : List Char) (vs : List Visit) : Prop where
  /-- If they are harmless, it is read as their reports. -/
  read : (∀ v ∈ vs, v.Harmless refs) → ∃ reports,
    List.Forall₂ (Visit.ShownBy refs libs infos) vs reports ∧
      feed (.data, .start) html = (.data, .outside (reports.flatMap ReadReport.tables))
  /-- If it is read as reports that show them, they are harmless. -/
  harmless : ∀ rest reports more, List.Forall₂ (Visit.ShownBy refs libs infos) vs reports →
    readTables (html ++ rest) = reports.flatMap ReadReport.tables ++ more →
      ∀ v ∈ vs, v.Harmless refs

variable {refs libs infos}

namespace PageOf

/-- What has no tables is the work of no visit. -/
theorem aside {html : List Char} (h : Aside .data html .data) :
    PageOf refs libs infos html [] where
  read _ := ⟨[], List.Forall₂.nil, h.feed_eq []⟩
  harmless _ _ _ _ _ := fun _ hv => absurd hv List.not_mem_nil

/-- **Pieces are put together.** -/
theorem append {html html' : List Char} {vs vs' : List Visit} (h : PageOf refs libs infos html vs)
    (h' : PageOf refs libs infos html' vs') :
    PageOf refs libs infos (html ++ html') (vs ++ vs') where
  read hall := by
    rw [List.forall_mem_append] at hall
    obtain ⟨reports, hshown, hfeed⟩ := h.read hall.1
    obtain ⟨reports', hshown', hfeed'⟩ := h'.read hall.2
    refine ⟨reports ++ reports', List.rel_append hshown hshown', ?_⟩
    rw [List.flatMap_append]
    exact feed_start_append hfeed hfeed'
  harmless rest reports more hshown htables := by
    have htake := List.forall₂_take vs.length hshown
    have hdrop := List.forall₂_drop vs.length hshown
    rw [List.take_left] at htake
    rw [List.drop_left] at hdrop
    rw [← List.take_append_drop vs.length reports, List.flatMap_append, List.append_assoc,
      List.append_assoc] at htables
    have hall := h.harmless (html' ++ rest) _ _ htake htables
    refine List.forall_mem_append.mpr ⟨hall, ?_⟩
    -- the reports of the first piece are read as such, so the others are those of the second
    obtain ⟨read, hread, hfeed⟩ := h.read hall
    rw [readTables_append hfeed] at htables
    have hlength : (read.flatMap ReadReport.tables).length
        = ((reports.take vs.length).flatMap ReadReport.tables).length := by
      rw [length_flatMap_tables, length_flatMap_tables, ← hread.length_eq, ← htake.length_eq]
    exact h'.harmless rest _ more hdrop (List.append_inj htables hlength).2

end PageOf

/-- A report is read up to its rows, and then the rest. -/
theorem feed_report (libs : List ReportedLibrary) (infos : List ResultCodeInfo)
    (results : Results) (rows rest : List Char) :
    feed (.data, .start) (report libs infos results rows ++ rest)
      = feed (.data, ⟨[readSummary libs infos results], [readHeader libs], [], .inTable⟩)
        (rows ++ (indent 12 ++ ("</table>".toList ++ (indent 8 ++ rest)))) := by
  have hassoc : ∀ a b c d e f : List Char,
      a ++ b ++ c ++ d ++ e ++ f ++ rest = (a ++ b) ++ (c ++ (d ++ (e ++ (f ++ rest)))) := by
    intros
    simp only [List.append_assoc]
  unfold report
  exact (congrArg (feed _) (hassoc _ _ _ _ _ _)).trans (feed_append_of_eq
    (feed_append_of_eq (feed_summaryTable libs infos results) (feed_detailHeader _ libs)) rfl)

/-- Inert rows are read as they were written, and the table ends. -/
theorem feed_rows_close (S : MarkupTable) (H : List TableCell) {rows : List ReportRow}
    (h : rows.all ReportRow.isInert = true) :
    feed (.data, ⟨[S], [H], [], .inTable⟩) (rows.flatMap ReportRow.html
        ++ (indent 12 ++ ("</table>".toList ++ indent 8)))
      = (.data, .outside (ReadReport.tables ⟨S, H, rows.map ReportRow.cells⟩)) := by
  have hclose : ∀ R, feed (.data, ⟨[S], R, [], .inTable⟩) "</table>".toList
      = (.data, .outside [S, R]) := fun _ => rfl
  exact feed_append_of_eq (feed_rows [S] [H] h)
    (feed_indent_append rfl 12 (feed_append_of_eq (hclose _) (feed_indent rfl 8)))

namespace RowsOf

variable {v : Visit} {rows : List ReportRow}

/-- Inert rows show a visit exactly if it is harmless. -/
theorem shownBy_iff (hrows : RowsOf infos v.results v.files rows) (h : v.Shaped libs infos)
    (hall : rows.all ReportRow.isInert = true) :
    v.ShownBy refs libs infos
        ⟨readSummary libs infos v.results, readHeader libs, rows.map ReportRow.cells⟩
      ↔ v.Harmless refs := by
  refine ⟨fun hshown => (hrows.showsFile_iff refs hall).mp
    (fun j file row hfile hrow => (hshown.rows j file row hfile hrow).1), fun hharmless => ?_⟩
  refine ⟨rfl, rfl, (List.length_map _).trans hrows.1, fun j file cells hj hcells => ⟨?_, ?_⟩⟩
  · exact (hrows.showsFile_iff refs hall).mpr hharmless j file cells hj hcells
  · rw [hrows.length_cells hcells, h.length_results]

/-- **Rows that are not all inert are not read as rows that show the visit**,
whatever follows them. -/
theorem not_shownBy (hrows : RowsOf infos v.results v.files rows) (S : MarkupTable)
    (H : List TableCell) (hall : rows.all ReportRow.isInert = false) {rest : List Char}
    {t : ReadReport} {more : List MarkupTable}
    (htables : (feed (.data, ⟨[S], [H], [], .inTable⟩)
      (rows.flatMap ReportRow.html ++ rest)).2.closeCell.done = t.tables ++ more) :
    ¬ v.ShownBy refs libs infos t := by
  intro hshown
  obtain ⟨j, k, row, cell, u, hj, hshownIn, hcell, hcut⟩ := exists_cut_cell [S] [H] hall rest
  obtain ⟨file, hfile, hof⟩ := hrows.exists_file hj
  rw [htables] at hcell
  have hcell : ((t.header :: t.rows)[1 + j]?).bind (fun r => r[k]?) = some cell := hcell
  rw [Nat.add_comm, List.getElem?_cons_succ] at hcell
  obtain ⟨row', hrow', hcell⟩ := Option.bind_eq_some_iff.mp hcell
  exact hof.not_showsFile refs hshownIn hcut hcell (hshown.rows j file row' hfile hrow').1

end RowsOf

/-- **A report is the work of its visit.** -/
theorem exists_pageOf_visit {v : Visit} (h : v.Shaped libs infos) :
    ∃ html, visit libs infos v.files v.results = some html ∧ PageOf refs libs infos html [v] := by
  obtain ⟨rows, hrows, hlength, hof⟩ := exists_rows infos h.codes 0
    (fun r hr => (h.length_files r hr).trans (Nat.zero_add _).symm)
  simp only [Nat.zero_add] at hof
  have hrowsOf : RowsOf infos v.results v.files rows := ⟨hlength, hof⟩
  have hread := feed_report libs infos v.results (rows.flatMap ReportRow.html)
  have hinert : rows.all ReportRow.isInert = true →
      feed (.data, .start) (report libs infos v.results (rows.flatMap ReportRow.html))
        = (.data, .outside (ReadReport.tables
          ⟨readSummary libs infos v.results, readHeader libs, rows.map ReportRow.cells⟩)) := by
    intro hall
    rw [← List.append_nil (report _ _ _ _), hread, List.append_nil]
    exact feed_rows_close _ _ hall
  refine ⟨_, by rw [visit, hrows]; rfl, ?_, ?_⟩
  · intro hharmless
    have hv := hharmless v List.mem_cons_self
    have hall := hrowsOf.all_isInert hv
    exact ⟨[_], List.Forall₂.cons ((hrowsOf.shownBy_iff h hall).mpr hv) List.Forall₂.nil,
      (hinert hall).trans (by rw [List.flatMap_singleton])⟩
  · intro rest reports more hreports htables
    obtain ⟨t, _, ht, hnil, rfl⟩ := List.forall₂_cons_left_iff.mp hreports
    obtain rfl := List.forall₂_nil_left_iff.mp hnil
    rw [List.flatMap_singleton] at htables
    refine List.forall_mem_singleton.mpr ?_
    by_cases hall : rows.all ReportRow.isInert = true
    · -- the rows that are read are those that were written
      rw [readTables_append (hinert hall)] at htables
      obtain ⟨-, htables⟩ := List.cons_eq_cons.mp htables
      obtain ⟨htable, -⟩ := List.cons_eq_cons.mp htables
      obtain ⟨-, hrows' : rows.map ReportRow.cells = t.rows⟩ := List.cons_eq_cons.mp htable
      refine (hrowsOf.showsFile_iff refs hall).mp fun j file row hfile hrow => ?_
      rw [hrows'] at hrow
      exact (ht.rows j file row hfile hrow).1
    · rw [readTables, hread] at htables
      exact absurd ht (hrowsOf.not_shownBy _ _ (Bool.not_eq_true _ ▸ hall) htables)

end PageOf

/-! ## The page -/

section Page

variable (refs : CharRefs) (r : Reporter)

/-- A heading has neither tables nor marks. -/
theorem isBareText_heading (text : PlainText) {opening closing : List Char}
    (hopening : isBareText opening = true) (hclosing : isBareText closing = true) :
    isBareText (opening ++ text.val.toList ++ closing ++ "\n".toList) = true :=
  isBareText_append (isBareText_append (isBareText_append hopening
    (isBareText_of_notMem text.property)) hclosing) (by decide)

/-- The page up to the list of links has neither tables nor marks. -/
theorem isBareText_opening :
    isBareText (rawString [(8, "<!DOCTYPE html>"), (8, "<html>"), (8, "")]
      ++ rawString headLines ++ rawString [(12, "<body>"), (8, "")]
      ++ ("<h1>".toList ++ r.title.val.toList ++ "</h1>".toList ++ "\n".toList)) = true := by
  have hdoctype : isBareText (rawString [(8, "<!DOCTYPE html>"), (8, "<html>"), (8, "")])
      = true := by decide +kernel
  have hhead : isBareText (rawString headLines) = true := by decide +kernel
  have hbody : isBareText (rawString [(12, "<body>"), (8, "")]) = true := by decide +kernel
  exact isBareText_append (isBareText_append (isBareText_append hdoctype hhead) hbody)
    (isBareText_heading r.title (by decide) (by decide))

/-- The page up to the sections, with the list of links apart. -/
theorem beginReport_eq :
    r.beginReport = (rawString [(8, "<!DOCTYPE html>"), (8, "<html>"), (8, "")]
      ++ rawString headLines ++ rawString [(12, "<body>"), (8, "")]
      ++ ("<h1>".toList ++ r.title.val.toList ++ "</h1>".toList ++ "\n".toList))
      ++ r.tests.flatMap contentsEntry := by
  unfold Reporter.beginReport
  simp only [List.append_assoc]

theorem isBareText_endReport : isBareText endReport = true := by decide +kernel

/-- An entry of the list of links has no tables. -/
theorem aside_contentsEntry (t : RegisteredTest) : Aside .data (contentsEntry t) .data := by
  have hopen : Aside .data "<p><a href=\"#".toList
      (.quoted ⟨false, "a".toList, []⟩ "href".toList '"' "#".toList) := ⟨rfl, rfl⟩
  have hclose : Aside (.quoted ⟨false, "a".toList, []⟩ "href".toList '"' ("#".toList ++ t.id))
      "\">".toList .data := ⟨rfl, rfl⟩
  exact (((hopen.append (Aside.quoted _ _ _ t.id_plain)).append hclose).append
    (Aside.text t.heading.property)).append (Aside.of_isBareText (by decide))

/-- The beginning of the page has no tables. -/
theorem aside_beginReport : Aside .data r.beginReport .data := by
  rw [beginReport_eq]
  exact (Aside.of_isBareText (isBareText_opening r)).append
    (Aside.flatMap fun t _ => aside_contentsEntry t)

/-- The beginning of a section has no tables. -/
theorem aside_sectionOpening (t : RegisteredTest) :
    Aside .data ("<div id=\"".toList ++ t.id ++ "\">\n".toList
      ++ ("<h2>".toList ++ t.heading.val.toList ++ "</h2>".toList ++ "\n".toList)) .data := by
  have hopen : Aside .data "<div id=\"".toList
      (.quoted ⟨false, "div".toList, []⟩ "id".toList '"' []) := ⟨rfl, rfl⟩
  have hclose : Aside (.quoted ⟨false, "div".toList, []⟩ "id".toList '"' ([] ++ t.id))
      "\">\n".toList .data := ⟨rfl, rfl⟩
  exact ((hopen.append (Aside.quoted _ _ _ t.id_plain)).append hclose).append
    (Aside.of_isBareText (isBareText_heading t.heading (by decide) (by decide)))

variable {r}

/-- A section, with its reports apart. -/
theorem testSection_assoc (a b c d e f g reports l : List Char) :
    a ++ b ++ c ++ d ++ e ++ f ++ g ++ reports ++ l
      = (a ++ b ++ c ++ (d ++ e ++ f ++ g)) ++ (reports ++ l) := by
  simp only [List.append_assoc]

/-- **A section is the work of the visits of its test.** -/
theorem exists_pageOf_testSection {t : RegisteredTest}
    (h : ∀ v ∈ t.test r.implementations, v.Shaped r.libs r.resultCodeInfo) :
    ∃ html, r.testSection t = some html ∧
      PageOf refs r.libs r.resultCodeInfo html (t.test r.implementations) := by
  have hnil : PageOf refs r.libs r.resultCodeInfo [] [] := PageOf.aside ⟨rfl, rfl⟩
  obtain ⟨reports, hreports, hpage⟩ := exists_mapM_flatten (g := fun v => [v]) hnil PageOf.append
    fun v hv => exists_pageOf_visit (h v hv)
  rw [List.flatMap_singleton'] at hpage
  refine ⟨_, by rw [Reporter.testSection, hreports]; rfl, ?_⟩
  rw [testSection_assoc]
  have hend : PageOf refs r.libs r.resultCodeInfo "</div>\n".toList [] :=
    PageOf.aside (Aside.of_isBareText (by decide))
  have hsection := (PageOf.aside (aside_sectionOpening t)).append (hpage.append hend)
  rwa [List.append_nil] at hsection

/-- **The page is the work of all visits.** -/
theorem exists_pageOf_runTests (h : ∀ v ∈ r.visits, v.Shaped r.libs r.resultCodeInfo) :
    ∃ html, r.runTests = some html ∧ PageOf refs r.libs r.resultCodeInfo html r.visits := by
  have hsections : ∀ t ∈ r.tests, ∃ html, r.testSection t = some html ∧
      PageOf refs r.libs r.resultCodeInfo html (t.test r.implementations) :=
    fun t ht => exists_pageOf_testSection refs fun v hv =>
      h v (List.mem_flatMap.mpr ⟨t, ht, hv⟩)
  obtain ⟨sections, hmap, hpage⟩ :=
    exists_mapM_flatten (PageOf.aside ⟨rfl, rfl⟩) PageOf.append hsections
  refine ⟨_, by rw [Reporter.runTests, hmap]; rfl, ?_⟩
  rw [List.append_assoc]
  have hopening : PageOf refs r.libs r.resultCodeInfo r.beginReport [] :=
    PageOf.aside (aside_beginReport r)
  have hend : PageOf refs r.libs r.resultCodeInfo endReport [] :=
    PageOf.aside (Aside.of_isBareText isBareText_endReport)
  have hall := hopening.append (hpage.append hend)
  rwa [List.append_nil] at hall

end Page

end JsonBenchmarks
