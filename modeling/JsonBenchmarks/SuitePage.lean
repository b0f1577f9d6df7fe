import JsonBenchmarks.ReportReadBack
import JsonBenchmarks.SuiteFiles
import JsonBenchmarks.MarkupPages

/-!
# The page of the test suites

`json_parsing_test_reporter` writes a page: a head, a list of links with one
entry for each registered test, and behind it a section for each of them. A
test gets the reporter as a visitor and has it write its report into the
section, or several of them, or none if it cannot run. `main` has the calls that
make a reporter and run it, but in a part that is not compiled (`#if 0`), so
this is about the class and about what those calls would do.

The page reads back as its links and the tables of all reports, one behind the
other, exactly if no file that is reported on has a name or a text that a reader
of markup takes for something else (`Reporter.readsBack_iff`): a file spoils its
own report and whatever comes behind it, but not the reports before it.
-/

namespace JsonBenchmarks

open Markup

/-! ## The reporter -/

/-- Text of the program's own, which contains no markup. -/
abbrev PlainText := {s : String // '<' ∉ s.toList}

/-- A library, as the reporter and the tests see it. Its test suite has a
result for each file. -/
structure Implementation where
  lib : ReportedLibrary
  runTestSuite : RunTestSuite
  length_eq : ∀ files results, runTestSuite files = .ok results → results.length = files.length

/-- What a test hands to `visit`. -/
structure Visit where
  files : List TestSuiteFile
  results : Results

/-- A test function: what it hands to `visit`, call by call. -/
abbrev Test := List Implementation → List Visit

/-- An element of `tests_`. -/
structure RegisteredTest where
  heading : PlainText
  id : List Char
  test : Test
  id_plain : '"' ∉ id

/-- **`json_parsing_test_reporter`.** -/
structure Reporter where
  title : PlainText
  implementations : List Implementation
  resultCodeInfo : List ResultCodeInfo
  tests : List RegisteredTest
  counter : ℕ

/-- The id of the test with a number. -/
def testId (n : ℕ) : List Char := "a".toList ++ Nat.toDigits 10 n

theorem quote_notMem_testId (n : ℕ) : '"' ∉ testId n := by
  intro h
  rcases List.mem_append.mp h with h | h
  · exact absurd h (by decide)
  · exact absurd (Nat.isDigit_of_mem_toDigits (by decide) (by decide) h) (by decide)

namespace Reporter

/-- The constructor. -/
def create (title : PlainText) (implementations : List Implementation)
    (resultCodeInfo : List ResultCodeInfo) : Reporter :=
  ⟨title, implementations, resultCodeInfo, [], 0⟩

/-- `register_test`. -/
def registerTest (r : Reporter) (heading : PlainText) (test : Test) : Reporter :=
  { r with
    tests := r.tests ++ [⟨heading, testId r.counter, test, quote_notMem_testId r.counter⟩]
    counter := r.counter + 1 }

end Reporter

/-- A raw string that begins with a line break, line by line with the
indentation. -/
def rawString (lines : List (ℕ × String)) : List Char :=
  lines.flatMap fun line => indent line.1 ++ line.2.toList

/-- The `<head>` of the page. -/
def headLines : List (ℕ × String) :=
  [ (12, "<head>"),
    (14, "<title>Parsing Tests</title>"),
    (14, "<style>"),
    (18, "th.rotate \x7b"),
    (20, "height: 140px;"),
    (20, "white-space: nowrap;"),
    (18, "\x7d"),
    (0, ""),
    (18, "th.rotate > div \x7b"),
    (20, "transform: "),
    (22, "translate(25px, 51px)"),
    (22, "rotate(315deg);"),
    (20, "width: 30px;"),
    (18, "\x7d"),
    (18, "th.rotate > div > span \x7b"),
    (20, "border-bottom: 1px solid #ccc;"),
    (20, "padding: 5px 10px;"),
    (14, "\x7d"),
    (14, "</style>"),
    (18, "<script>"),
    (10, "(function(i,s,o,g,r,a,m)\x7bi['GoogleAnalyticsObject']=r;i[r]=i[r]||function()\x7b"),
    (10, "(i[r].q=i[r].q||[]).push(arguments)\x7d,i[r].l=1*new Date();a=s.createElement(o),"),
    (10, "m=s.getElementsByTagName(o)[0];a.async=1;a.src=g;m.parentNode.insertBefore(a,m)"),
    (10, "\x7d)(window,document,'script','https://www.google-analytics.com/analytics.js','ga');"),
    (0, ""),
    (10, "ga('create', 'UA-42023908-2', 'auto');"),
    (10, "ga('send', 'pageview');"),
    (0, ""),
    (8, "</script>"),
    (12, "</head>"),
    (8, "") ]

/-- The entry of a test in the list of links. -/
def contentsEntry (t : RegisteredTest) : List Char :=
  "<p><a href=\"#".toList ++ t.id ++ "\">".toList ++ t.heading.val.toList ++ "</a></p>\n".toList

/-- `end_report`. -/
def endReport : List Char := rawString [(12, "</body>"), (8, "</html>"), (8, "")]

namespace Reporter

variable (r : Reporter)

/-- What the reporter knows of the libraries. -/
def libs : List ReportedLibrary := r.implementations.map Implementation.lib

/-- `begin_report`. -/
def beginReport : List Char :=
  rawString [(8, "<!DOCTYPE html>"), (8, "<html>"), (8, "")]
    ++ rawString headLines
    ++ rawString [(12, "<body>"), (8, "")]
    ++ "<h1>".toList ++ r.title.val.toList ++ "</h1>".toList ++ "\n".toList
    ++ r.tests.flatMap contentsEntry

/-- The section of a test. -/
def testSection (t : RegisteredTest) : Option (List Char) := do
  let reports ← (t.test r.implementations).mapM fun v =>
    visit r.libs r.resultCodeInfo v.files v.results
  return "<div id=\"".toList ++ t.id ++ "\">\n".toList
    ++ "<h2>".toList ++ t.heading.val.toList ++ "</h2>".toList ++ "\n".toList
    ++ reports.flatten ++ "</div>\n".toList

/-- **`run_tests`.** It has no result if `visit` has none. -/
def runTests : Option (List Char) := do
  let sections ← r.tests.mapM r.testSection
  return r.beginReport ++ sections.flatten ++ endReport

end Reporter

/-! ## What should be read back -/

/-- What is read of a report. -/
structure ReadReport where
  summary : MarkupTable
  header : List TableCell
  rows : MarkupTable

/-- The tables of a report. -/
def ReadReport.tables (t : ReadReport) : List MarkupTable := [t.summary, t.header :: t.rows]

section Shown

variable (refs : CharRefs) (libs : List ReportedLibrary) (infos : List ResultCodeInfo)

/-- **A report shows a visit**: summary and header are those of the libraries
and results, and there is a row for each file in order, with a cell for each
library between the first and the last. -/
structure Visit.ShownBy (v : Visit) (t : ReadReport) : Prop where
  summary : t.summary = readSummary libs infos v.results
  header : t.header = readHeader libs
  length_rows : t.rows.length = v.files.length
  rows : ∀ i file row, v.files[i]? = some file → t.rows[i]? = some row →
    ShowsFile refs infos v.results i file row ∧ row.length = libs.length + 2

/-- The results of a visit have the shape that the reporter relies on. -/
structure Visit.Shaped (v : Visit) : Prop where
  length_results : v.results.length = libs.length
  length_files : ∀ r ∈ v.results, r.length = v.files.length
  codes : ∀ r ∈ v.results, ∀ rc ∈ r, ∃ info ∈ infos, info.code = rc

/-- No file of a visit does harm to its report. -/
def Visit.Harmless (v : Visit) : Prop := ∀ file ∈ v.files, refs.Harmless file

end Shown

/-- The visits of the tests of a reporter, in the order of the page. -/
def Reporter.visits (r : Reporter) : List Visit := r.tests.flatMap fun t => t.test r.implementations

/-- **The page reads back**: it is written, its links and anchors are those of
the registered tests, and its tables are those of one report for each visit, in
order, that shows the visit. -/
def Reporter.ReadsBack (refs : CharRefs) (r : Reporter) : Prop :=
  ∃ html reports, r.runTests = some html ∧
    linksOf html = r.tests.map (fun t => "#".toList ++ t.id) ∧
    anchorsOf html = r.tests.map RegisteredTest.id ∧
    readTables html = reports.flatMap ReadReport.tables ∧
    List.Forall₂ (Visit.ShownBy refs r.libs r.resultCodeInfo) r.visits reports

end JsonBenchmarks
