import JsonBenchmarks.SuitePageReadBack

/-!
# The links of the page of the test suites

The list at the top of the page has a link for each test, to the section with
the id of the test. Ids are numbered as the tests are registered. If nothing in
the reports is taken for markup then there are no links and no anchors but
those, so each link leads to one section, and the sections come in the order of
the list (`links_runTests`).

Like the tables, the marks of a page are put together piece by piece. Those of
a report are none, and the page has one link and one anchor for each test. So a
page reads back, marks and tables, exactly if its tables do
(`Reporter.readsBack_iff`).
-/

namespace JsonBenchmarks

open Markup

/-! ## The marks of a report -/

/-- Layout has no marks. -/
theorem marks_indent (n : ℕ) : Marks .data (indent n) .data [] [] :=
  Marks.text (lt_notMem_indent n)

/-- The header cells of the libraries have no marks. -/
theorem marks_libraryHeaders (libs : List ReportedLibrary) {label : ReportedLibrary → List Char}
    (h : ∀ lib, '<' ∉ label lib) : Marks .data (libraryHeaders libs label) .data [] [] := by
  have hopen : isBareText "<th class=\"rotate\"><div><span>".toList = true := by decide +kernel
  have hclose : isBareText "</span></div></th>\n".toList = true := by decide +kernel
  exact Marks.flatMap_nil fun lib _ => Marks.of_isBareText
    (isBareText_append (isBareText_append hopen (isBareText_of_notMem (h lib))) hclose)

/-- The row of a result code has no marks. -/
theorem marks_summaryRow (results : Results) (info : ResultCodeInfo) :
    Marks .data (summaryRow results info) .data [] [] := by
  have hopen : Marks .data "<tr><td bgcolor=\"".toList
      (.quoted ⟨false, "td".toList, []⟩ "bgcolor".toList '"' []) [] [] := ⟨rfl, rfl, rfl⟩
  have hcolor : Marks (.quoted ⟨false, "td".toList, []⟩ "bgcolor".toList '"'
      ([] ++ info.color.toList)) "\">".toList .data [] [] := ⟨rfl, rfl, rfl⟩
  have hfont : isBareText "<font color=\"white\">".toList = true := by decide +kernel
  have hfontEnd : isBareText "</font></td>".toList = true := by decide +kernel
  have hcount : ∀ n : ℕ, isBareText ("<td>".toList ++ Nat.toDigits 10 n ++ "</td>\n".toList)
      = true := by
    intro n
    have hdigits : '<' ∉ Nat.toDigits 10 n :=
      fun h => absurd (Nat.isDigit_of_mem_toDigits (by decide) (by decide) h) (by decide)
    exact isBareText_append (isBareText_append (by decide +kernel)
      (isBareText_of_notMem hdigits)) (by decide +kernel)
  have hend : isBareText "</tr>\n".toList = true := by decide +kernel
  exact ((((((hopen.append (Marks.quoted _ _ _ info.color_plain)).append hcolor).append
    (Marks.of_isBareText hfont)).append (Marks.text info.description_plain)).append
    (Marks.of_isBareText hfontEnd)).append
    (Marks.flatMap_nil fun r _ => Marks.of_isBareText (hcount _))).append
    (Marks.of_isBareText hend)

/-- The summary table has no marks. -/
theorem marks_summaryTable (libs : List ReportedLibrary) (infos : List ResultCodeInfo)
    (results : Results) : Marks .data (summaryTable libs infos results) .data [] [] := by
  have htable : Marks .data "<table>".toList .data [] [] := ⟨rfl, rfl, rfl⟩
  have hrow : Marks .data "<tr>".toList .data [] [] := ⟨rfl, rfl, rfl⟩
  have hcell : Marks .data "<th></th>".toList .data [] [] := ⟨rfl, rfl, rfl⟩
  have hrowEnd : Marks .data "</tr>".toList .data [] [] := ⟨rfl, rfl, rfl⟩
  have htableEnd : Marks .data "</table>".toList .data [] [] := ⟨rfl, rfl, rfl⟩
  have hheaders := marks_libraryHeaders libs ReportedLibrary.label_plain
  have hrows : Marks .data (infos.flatMap (summaryRow results)) .data [] [] :=
    Marks.flatMap_nil fun info _ => marks_summaryRow results info
  exact ((((((((((((((marks_indent 12).append htable).append (marks_indent 12)).append
    hrow).append (marks_indent 14)).append hcell).append (marks_indent 8)).append
    hheaders).append (marks_indent 12)).append hrowEnd).append (marks_indent 8)).append
    hrows).append (marks_indent 12)).append htableEnd).append (marks_indent 8)

/-- The beginning of the detail table has no marks. -/
theorem marks_detailHeader (libs : List ReportedLibrary) :
    Marks .data (detailHeader libs) .data [] [] := by
  have hstray : Marks .data "</table>".toList .data [] [] := ⟨rfl, rfl, rfl⟩
  have htable : Marks .data "<table style=\"width:100%\">".toList .data [] [] :=
    ⟨by exact rfl, by exact rfl, by exact rfl⟩
  have hrow : Marks .data "<tr>".toList .data [] [] := ⟨rfl, rfl, rfl⟩
  have hcell : Marks .data "<th></th>".toList .data [] [] := ⟨rfl, rfl, rfl⟩
  have hrowEnd : Marks .data "</tr>".toList .data [] [] := ⟨rfl, rfl, rfl⟩
  have hheaders := marks_libraryHeaders libs (fun lib => lib.name_plain)
  exact (((((((((((((marks_indent 12).append hstray).append (marks_indent 12)).append
    htable).append (marks_indent 12)).append hrow).append (marks_indent 14)).append
    hcell).append (marks_indent 8)).append hheaders).append (marks_indent 14)).append
    hcell).append (marks_indent 12)).append hrowEnd |>.append (marks_indent 8)

/-- A coloured cell has no marks. -/
theorem marks_colorCell {color : List Char} (h : '"' ∉ color) :
    Marks .data (colorCell color) .data [] [] := by
  have hopen : Marks .data "<td bgcolor=\"".toList
      (.quoted ⟨false, "td".toList, []⟩ "bgcolor".toList '"' []) [] [] := ⟨rfl, rfl, rfl⟩
  have hclose : Marks (.quoted ⟨false, "td".toList, []⟩ "bgcolor".toList '"' ([] ++ color))
      "\"></td>\n".toList .data [] [] := ⟨rfl, rfl, rfl⟩
  exact (hopen.append (Marks.quoted _ _ _ h)).append hclose

/-- **The row of a file has no marks if it is inert.** -/
theorem marks_row {row : ReportRow} (h : row.isInert = true) :
    Marks .data row.html .data [] [] := by
  obtain ⟨hname, htext⟩ := Bool.and_eq_true_iff.mp h
  have hrow : Marks .data "<tr>\n".toList .data [] [] := ⟨rfl, rfl, rfl⟩
  have hcell : Marks .data "<td>".toList .data [] [] := ⟨rfl, rfl, rfl⟩
  have hcellEnd : Marks .lt "/td>".toList .data [] [] := ⟨rfl, rfl, rfl⟩
  have hlastEnd : Marks .lt "/td>\n".toList .data [] [] := ⟨rfl, rfl, rfl⟩
  have hrowEnd : Marks .data "</tr>\n".toList .data [] [] := ⟨rfl, rfl, rfl⟩
  have hcolors : Marks .data (row.colors.flatMap colorCell) .data [] [] :=
    Marks.flatMap_nil fun color hcolor => marks_colorCell (row.colors_plain color hcolor)
  have hname' : Marks .data (row.name ++ "</td>".toList) .data [] [] := Marks.inert hname hcellEnd
  have htext' : Marks .data (row.text ++ "</td>\n".toList) .data [] [] :=
    Marks.inert htext hlastEnd
  rw [row.html_eq]
  rw [List.append_assoc _ row.text, List.append_assoc _ row.name]
  exact (((((hrow.append hcell).append hname').append hcolors).append hcell).append
    htext').append hrowEnd

/-- **A report on harmless files has no marks.** -/
theorem marks_visit {refs : CharRefs} {libs : List ReportedLibrary} {infos : List ResultCodeInfo}
    {v : Visit} (h : v.Shaped libs infos) (hharmless : v.Harmless refs) :
    ∃ html, visit libs infos v.files v.results = some html ∧ Marks .data html .data [] [] := by
  obtain ⟨rows, hrows, hlength, hof⟩ := exists_rows infos h.codes 0
    (fun r hr => (h.length_files r hr).trans (Nat.zero_add _).symm)
  simp only [Nat.zero_add] at hof
  have hrowsOf : RowsOf infos v.results v.files rows := ⟨hlength, hof⟩
  have hinert := List.all_eq_true.mp (hrowsOf.all_isInert hharmless)
  have htableEnd : Marks .data "</table>".toList .data [] [] := ⟨rfl, rfl, rfl⟩
  refine ⟨_, by rw [visit, hrows]; rfl, ?_⟩
  exact (((((marks_summaryTable libs infos v.results).append (marks_detailHeader libs)).append
    (Marks.flatMap_nil fun row hrow => marks_row (hinert row hrow))).append
    (marks_indent 12)).append htableEnd).append (marks_indent 8)

/-! ## The marks of the page -/

section Page

variable {r : Reporter}

/-- An entry of the list has a link to the section of the test. -/
theorem marks_contentsEntry (t : RegisteredTest) :
    Marks .data (contentsEntry t) .data ["#".toList ++ t.id] [] := by
  have hopen : Marks .data "<p><a href=\"#".toList
      (.quoted ⟨false, "a".toList, []⟩ "href".toList '"' "#".toList) [] [] := ⟨rfl, rfl, rfl⟩
  have hclose : Marks (.quoted ⟨false, "a".toList, []⟩ "href".toList '"' ("#".toList ++ t.id))
      "\">".toList .data ["#".toList ++ t.id] [] := ⟨rfl, rfl, rfl⟩
  have hend : isBareText "</a></p>\n".toList = true := by decide +kernel
  exact (((hopen.append (Marks.quoted _ _ _ t.id_plain)).append hclose).append
    (Marks.text t.heading.property)).append (Marks.of_isBareText hend)

/-- A section has the anchor of its test. -/
theorem marks_sectionOpening (t : RegisteredTest) :
    Marks .data ("<div id=\"".toList ++ t.id ++ "\">\n".toList
      ++ ("<h2>".toList ++ t.heading.val.toList ++ "</h2>".toList ++ "\n".toList))
      .data [] [t.id] := by
  have hopen : Marks .data "<div id=\"".toList
      (.quoted ⟨false, "div".toList, []⟩ "id".toList '"' []) [] [] := ⟨rfl, rfl, rfl⟩
  have hclose : Marks (.quoted ⟨false, "div".toList, []⟩ "id".toList '"' ([] ++ t.id))
      "\">\n".toList .data [] [t.id] := ⟨rfl, rfl, rfl⟩
  exact ((hopen.append (Marks.quoted _ _ _ t.id_plain)).append hclose).append
    (Marks.of_isBareText (isBareText_heading t.heading (by decide +kernel) (by decide +kernel)))

/-- What is written in several rounds, if it has no links. -/
theorem Marks.append_anchors {cs ds : List Char} {is js : List (List Char)}
    (h : Marks .data cs .data [] is) (h' : Marks .data ds .data [] js) :
    Marks .data (cs ++ ds) .data [] (is ++ js) := h.append h'

/-- **A section has one anchor and no links.** -/
theorem marks_testSection {refs : CharRefs} {t : RegisteredTest}
    (h : ∀ v ∈ t.test r.implementations, v.Shaped r.libs r.resultCodeInfo ∧ v.Harmless refs) :
    ∃ html, r.testSection t = some html ∧ Marks .data html .data [] [t.id] := by
  have hvisits : ∀ v ∈ t.test r.implementations, ∃ html,
      visit r.libs r.resultCodeInfo v.files v.results = some html ∧
        Marks .data html .data [] [] := fun v hv => marks_visit (h v hv).1 (h v hv).2
  obtain ⟨reports, hreports, hmarks⟩ := exists_mapM_flatten (g := fun _ => []) ⟨rfl, rfl, rfl⟩
    Marks.append_anchors hvisits
  have hnone : (t.test r.implementations).flatMap (fun _ => ([] : List (List Char))) = [] :=
    List.flatMap_eq_nil_iff.mpr fun _ _ => rfl
  rw [hnone] at hmarks
  have hend : isBareText "</div>\n".toList = true := by decide +kernel
  refine ⟨_, by rw [Reporter.testSection, hreports]; rfl, ?_⟩
  rw [testSection_assoc]
  exact (marks_sectionOpening t).append (hmarks.append (Marks.of_isBareText hend))

/-- **The page has a link and an anchor for each test**, and no others. -/
theorem marks_runTests {refs : CharRefs}
    (h : ∀ v ∈ r.visits, v.Shaped r.libs r.resultCodeInfo ∧ v.Harmless refs) :
    ∃ html, r.runTests = some html ∧ Marks .data html .data
      (r.tests.map fun t => "#".toList ++ t.id) (r.tests.map RegisteredTest.id) := by
  have hsections : ∀ t ∈ r.tests, ∃ html, r.testSection t = some html ∧
      Marks .data html .data [] [t.id] :=
    fun t ht => marks_testSection fun v hv => h v (List.mem_flatMap.mpr ⟨t, ht, hv⟩)
  obtain ⟨sections, hmap, hmarks⟩ := exists_mapM_flatten ⟨rfl, rfl, rfl⟩ Marks.append_anchors
    hsections
  have hcontents : Marks .data (r.tests.flatMap contentsEntry) .data
      (r.tests.flatMap fun t => ["#".toList ++ t.id]) (r.tests.flatMap fun _ => []) :=
    Marks.flatMap fun t _ => marks_contentsEntry t
  have hnone : r.tests.flatMap (fun _ => ([] : List (List Char))) = [] :=
    List.flatMap_eq_nil_iff.mpr fun _ _ => rfl
  rw [hnone, ← List.map_eq_flatMap] at hcontents
  rw [← List.map_eq_flatMap] at hmarks
  refine ⟨_, by rw [Reporter.runTests, hmap]; rfl, ?_⟩
  rw [beginReport_eq]
  have hpage := (((Marks.of_isBareText (isBareText_opening r)).append hcontents).append
    hmarks).append (Marks.of_isBareText isBareText_endReport)
  simpa only [List.nil_append, List.append_nil] using hpage

end Page

/-! ## Reading the page back -/

/-- **The page reads back exactly if all visits are harmless**, for any tests
that have results of the right shape. -/
theorem Reporter.readsBack_iff (refs : CharRefs) (r : Reporter)
    (h : ∀ v ∈ r.visits, v.Shaped r.libs r.resultCodeInfo) :
    r.ReadsBack refs ↔ ∀ v ∈ r.visits, v.Harmless refs := by
  obtain ⟨html, hhtml, hpage⟩ := exists_pageOf_runTests refs h
  constructor
  · rintro ⟨html', reports, hhtml', -, -, htables, hshown⟩
    obtain rfl := Option.some.inj (hhtml.symm.trans hhtml')
    refine hpage.harmless [] reports [] hshown ?_
    rw [List.append_nil, List.append_nil, htables]
  · intro hharmless
    obtain ⟨reports, hshown, hfeed⟩ := hpage.read hharmless
    obtain ⟨html', hhtml', hmarks⟩ := marks_runTests fun v hv => ⟨h v hv, hharmless v hv⟩
    obtain rfl := Option.some.inj (hhtml.symm.trans hhtml')
    refine ⟨html, reports, hhtml, hmarks.links, hmarks.anchors, ?_, hshown⟩
    rw [readTables, hfeed]
    rfl

/-! ## The ids of the tests -/

/-- **A reporter with some tests**, registered one after the other. -/
def Reporter.registerTests (r : Reporter) (tests : List (PlainText × Test)) : Reporter :=
  tests.foldl (fun r t => r.registerTest t.1 t.2) r

/-- The ids of a reporter's tests are those up to its counter. -/
def Reporter.Numbered (r : Reporter) : Prop :=
  r.tests.map RegisteredTest.id = (List.range r.counter).map testId

/-- Registering a test numbers it. -/
theorem Reporter.Numbered.registerTest {r : Reporter} (h : r.Numbered) (heading : PlainText)
    (test : Test) : (r.registerTest heading test).Numbered := by
  show (r.tests ++ [_]).map RegisteredTest.id = (List.range (r.counter + 1)).map testId
  rw [List.map_append, h, List.range_succ, List.map_append]
  rfl

/-- So does registering several. -/
theorem Reporter.Numbered.registerTests {r : Reporter} (h : r.Numbered)
    (tests : List (PlainText × Test)) : (r.registerTests tests).Numbered := by
  induction tests generalizing r with
  | nil => exact h
  | cons t tests ih => exact ih (h.registerTest t.1 t.2)

/-- Different numbers make different ids. -/
theorem testId_injective : Function.Injective testId := by
  intro m n h
  have hdigits : Nat.toDigits 10 m = Nat.toDigits 10 n := List.append_cancel_left h
  have hvalues := congrArg (fun ds => Nat.ofDigitChars 10 ds 0) hdigits
  simpa only [Nat.ofDigitChars_ten_toDigits] using hvalues

/-- No two tests have the same id. -/
theorem Reporter.Numbered.nodup {r : Reporter} (h : r.Numbered) :
    (r.tests.map RegisteredTest.id).Nodup := by
  rw [h]
  exact List.nodup_range.map testId_injective

/-- Registering tests changes nothing but the tests. -/
theorem registerTests_frame (r : Reporter) (tests : List (PlainText × Test)) :
    (r.registerTests tests).implementations = r.implementations ∧
      (r.registerTests tests).resultCodeInfo = r.resultCodeInfo ∧
      (r.registerTests tests).tests.length = r.tests.length + tests.length := by
  induction tests generalizing r with
  | nil => exact ⟨rfl, rfl, rfl⟩
  | cons t tests ih =>
    obtain ⟨himplementations, hinfos, hlength⟩ := ih (r.registerTest t.1 t.2)
    refine ⟨himplementations, hinfos, hlength.trans ?_⟩
    show (r.tests ++ [_]).length + tests.length = _
    rw [List.length_append, List.length_singleton, List.length_cons, Nat.add_assoc,
      Nat.add_comm 1]

/-- **Each link of the page leads to one section**: whatever tests are
registered, if their results have the right shape and their files are harmless
then the links are those to the anchors, in the order in which the anchors
come, and no two anchors are the same. -/
theorem links_runTests (refs : CharRefs) (title : PlainText)
    (implementations : List Implementation) (infos : List ResultCodeInfo)
    (tests : List (PlainText × Test))
    (h : ∀ v ∈ ((Reporter.create title implementations infos).registerTests tests).visits,
      v.Shaped (implementations.map Implementation.lib) infos ∧ v.Harmless refs) :
    ∃ html, ((Reporter.create title implementations infos).registerTests tests).runTests
        = some html ∧
      linksOf html = (anchorsOf html).map ("#".toList ++ ·) ∧ (anchorsOf html).Nodup ∧
      (anchorsOf html).length = tests.length := by
  obtain ⟨himplementations, hinfos, hlength⟩ :=
    registerTests_frame (Reporter.create title implementations infos) tests
  have hnumbered : (Reporter.create title implementations infos).Numbered := rfl
  obtain ⟨html, hhtml, hmarks⟩ := marks_runTests fun v hv => by
    rw [Reporter.libs, himplementations, hinfos]
    exact h v hv
  refine ⟨html, hhtml, ?_, ?_, ?_⟩
  · rw [linksOf, hmarks.links, anchorsOf, hmarks.anchors, List.map_map]
    rfl
  · rw [anchorsOf, hmarks.anchors]
    exact (hnumbered.registerTests tests).nodup
  · rw [anchorsOf, hmarks.anchors, List.length_map, hlength]
    exact Nat.zero_add _

/-- The page on a test that visits once, with a file that is not closed. -/
theorem links_runTests_unclosed :
    let impl : Implementation :=
      ⟨nlohmann, fun files => .ok (files.map fun _ => .expectedResult),
        fun _ _ h => Except.ok.inj h ▸ List.length_map _⟩
    let file : TestSuiteFile :=
      ⟨"data/input/JSON_checker/fail2.json", .expectFailure, "[\"Unclosed array\""⟩
    ∃ html, ((Reporter.create ⟨"Parser Comparisons", by decide⟩ [impl]
        resultCodeInfos).registerTests
          [(⟨"JSON Checker", by decide⟩, fun _ => [⟨[file], [[.expectedResult]]⟩])]).runTests
        = some html ∧
      linksOf html = (anchorsOf html).map ("#".toList ++ ·) ∧ (anchorsOf html).Nodup ∧
      (anchorsOf html).length = 1 := by
  intro impl file
  refine links_runTests noRefs ⟨"Parser Comparisons", by decide⟩ [impl] resultCodeInfos
    [(⟨"JSON Checker", by decide⟩, fun _ => [⟨[file], [[.expectedResult]]⟩])] (fun v hv => ?_)
  obtain rfl : v = ⟨[file], [[.expectedResult]]⟩ := List.mem_singleton.mp hv
  refine ⟨⟨rfl, by decide, by decide⟩, fun f hf => ?_⟩
  obtain rfl : f = file := List.mem_singleton.mp hf
  exact ⟨by decide, ⟨by decide, rfl⟩, ⟨by decide, rfl⟩⟩

end JsonBenchmarks
