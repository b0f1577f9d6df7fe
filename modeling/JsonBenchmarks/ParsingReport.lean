import JsonBenchmarks.TestSuite
import JsonBenchmarks.MarkupTables

/-!
# The parsing report

`json_parsing_test_reporter::visit` writes the results of the test suite as
two HTML tables: how often each library had each result, and a row for each
file with its name, a coloured cell for each library, and the beginning of its
text. Names and texts are written as they are.

The test files are what a parser should choke on, and some of them are markup:
a `<` with a letter behind it opens a tag that nobody meant. Reading the
report back gives the table that was written exactly if no name and no text
does such a thing (`visit_readsBack_iff`). Then it does not matter what else
stands in the files. Otherwise the cell of the first text that does is cut
short, and nothing in the later files repairs it.
-/

namespace JsonBenchmarks

open Markup

/-! ## What is reported -/

/-- What a library tells the report about itself: constants of its adapter,
which contain no markup. -/
structure ReportedLibrary where
  name : String
  version : String
  name_plain : '<' ∉ name.toList
  version_plain : '<' ∉ version.toList

/-- `result_code_info`. The descriptions and colours are constants of the
program. -/
structure ResultCodeInfo where
  code : ResultCode
  description : String
  color : String
  description_plain : '<' ∉ description.toList
  color_plain : '"' ∉ color.toList

/-- The `result_code_infos` of `main`. -/
def resultCodeInfos : List ResultCodeInfo :=
  [ ⟨.expectedResult, "Expected result", "#008000", by decide, by decide⟩,
    ⟨.expectedSuccessParsingFailed, "Expected success, parsing failed", "#d19b73",
      by decide, by decide⟩,
    ⟨.expectedFailureParsingSucceeded, "Expected failure, parsing succeeded", "#001a75",
      by decide, by decide⟩,
    ⟨.resultUndefinedParsingSucceeded, "Result undefined, parsing succeeded", "#f7a8ff",
      by decide, by decide⟩,
    ⟨.resultUndefinedParsingFailed, "Result undefined, parsing failed", "#050f07",
      by decide, by decide⟩,
    ⟨.processStopped, "Process stopped", "#e00053", by decide, by decide⟩ ]

/-- The results of the libraries: for each a list with a result per file. -/
abbrev Results := List (List ResultCode)

/-- `count_results`. -/
def countResults (results : List ResultCode) (outcome : ResultCode) : ℕ := results.count outcome

/-- `path::filename()`: what stands behind the last slash. -/
def fileName (path : String) : List Char := (path.toList.reverse.takeWhile (· ≠ '/')).reverse

/-- What is written of a `const char *`: everything before the first NUL. -/
def cStr (t : List Char) : List Char := t.takeWhile (· ≠ '\x00')

/-- `max_text_length`. -/
def maxTextLength : ℕ := 30

/-! ## Writing the report -/

/-- The line break and the blanks before a line of a raw string. -/
def indent (n : ℕ) : List Char := '\n' :: List.replicate n ' '

/-- The loop over the libraries that writes their header cells. -/
def libraryHeaders (libs : List ReportedLibrary) (label : ReportedLibrary → List Char) :
    List Char :=
  libs.flatMap fun lib =>
    "<th class=\"rotate\"><div><span>".toList ++ label lib ++ "</span></div></th>\n".toList

/-- The row of the summary table for one result code. -/
def summaryRow (results : Results) (info : ResultCodeInfo) : List Char :=
  "<tr><td bgcolor=\"".toList ++ info.color.toList ++ "\">".toList
    ++ "<font color=\"white\">".toList ++ info.description.toList ++ "</font></td>".toList
    ++ results.flatMap (fun r =>
        "<td>".toList ++ Nat.toDigits 10 (countResults r info.code) ++ "</td>\n".toList)
    ++ "</tr>\n".toList

/-- A cell of a colour. -/
def colorCell (color : List Char) : List Char :=
  "<td bgcolor=\"".toList ++ color ++ "\"></td>\n".toList

/-- The coloured cell of a result, if its code has a colour. -/
def coloredCell (infos : List ResultCodeInfo) (rc : ResultCode) : List Char :=
  match infos.find? (fun a => a.code == rc) with
  | some info => colorCell info.color.toList
  | none => []

/-- The loop over the libraries in the row of a file. There is nothing to
write where a library has no result for the file. -/
def coloredCells (infos : List ResultCodeInfo) (i : ℕ) : Results → Option (List Char)
  | [] => some []
  | r :: rs => do
    let rc ← r[i]?
    let cells ← coloredCells infos i rs
    return coloredCell infos rc ++ cells

/-- What is written of the text of a file. -/
def shownText (text : String) : List Char :=
  let maxLength := if text.length > maxTextLength then maxTextLength else text.length
  text.toList.take maxLength ++ (if maxLength < text.length then " ...".toList else [])

/-- The row of a file. -/
def detailRow (infos : List ResultCodeInfo) (results : Results) (i : ℕ) (file : TestSuiteFile) :
    Option (List Char) := do
  let cells ← coloredCells infos i results
  return "<tr>\n".toList ++ "<td>".toList ++ cStr (fileName file.path) ++ "</td>".toList ++ cells
    ++ "<td>".toList ++ shownText file.text ++ "</td>\n".toList ++ "</tr>\n".toList

/-- The loop over the files, from an index on. -/
def detailRows (infos : List ResultCodeInfo) (results : Results) :
    ℕ → List TestSuiteFile → Option (List Char)
  | _, [] => some []
  | i, file :: files => do
    let row ← detailRow infos results i file
    let rows ← detailRows infos results (i + 1) files
    return row ++ rows

/-- The summary table. -/
def summaryTable (libs : List ReportedLibrary) (infos : List ResultCodeInfo) (results : Results) :
    List Char :=
  indent 12 ++ "<table>".toList ++ indent 12 ++ "<tr>".toList ++ indent 14
    ++ "<th></th>".toList ++ indent 8
    ++ libraryHeaders libs (fun lib => lib.name.toList ++ ("-".toList ++ lib.version.toList))
    ++ indent 12 ++ "</tr>".toList ++ indent 8
    ++ infos.flatMap (summaryRow results)
    ++ indent 12 ++ "</table>".toList ++ indent 8

/-- The beginning of the detail table, with one `</table>` too many. -/
def detailHeader (libs : List ReportedLibrary) : List Char :=
  indent 12 ++ "</table>".toList ++ indent 12 ++ "<table style=\"width:100%\">".toList
    ++ indent 12 ++ "<tr>".toList ++ indent 14 ++ "<th></th>".toList ++ indent 8
    ++ libraryHeaders libs (fun lib => lib.name.toList)
    ++ indent 14 ++ "<th></th>".toList ++ indent 12 ++ "</tr>".toList ++ indent 8

/-- The two tables around the rows of the files. -/
def report (libs : List ReportedLibrary) (infos : List ResultCodeInfo) (results : Results)
    (rows : List Char) : List Char :=
  summaryTable libs infos results ++ detailHeader libs ++ rows
    ++ indent 12 ++ "</table>".toList ++ indent 8

/-- **`json_parsing_test_reporter::visit`**. It has no result if it reads a
result that is not there. -/
def visit (libs : List ReportedLibrary) (infos : List ResultCodeInfo) (files : List TestSuiteFile)
    (results : Results) : Option (List Char) := do
  let rows ← detailRows infos results 0 files
  return report libs infos results rows

/-! ## What should be read back -/

/-- The text of a file cut to its first characters, with dots exactly if it
was cut. -/
def cutText (text : String) : List Char :=
  text.toList.take maxTextLength ++ if maxTextLength < text.length then " ...".toList else []

/-- How a reader decodes the character references in a text. Decoding makes no
text longer. -/
structure CharRefs where
  decode : List Char → List Char
  length_le : ∀ t, (decode t).length ≤ t.length

/-- A text that is read as it was written. -/
def CharRefs.Plain (refs : CharRefs) (t : List Char) : Prop := inert t = true ∧ refs.decode t = t

/-- The colours of the results of a file, one for each library. -/
def resultColors (infos : List ResultCodeInfo) (results : Results) (i : ℕ) :
    List (Option (List Char)) :=
  results.map fun r => (r[i]?).bind fun rc =>
    (infos.find? fun a => a.code == rc).map fun a => a.color.toList

/-- An empty cell of a colour. -/
def colorTableCell (color : List Char) : TableCell := ⟨false, [("bgcolor".toList, color)], []⟩

/-- An empty header cell. -/
def emptyHeader : TableCell := ⟨true, [], []⟩

/-- The header cell of a library. Its label is turned, for which it is within
two elements. -/
def labelCell (label : List Char) : TableCell :=
  ⟨true, [("class".toList, "rotate".toList)],
    .startTag "div".toList [] :: .startTag "span".toList []
      :: (label.map .char ++ [.endTag "span".toList, .endTag "div".toList])⟩

/-- The cell of a colour with what it means, in white. -/
def meaningCell (info : ResultCodeInfo) : TableCell :=
  ⟨false, [("bgcolor".toList, info.color.toList)],
    .startTag "font".toList [("color".toList, "white".toList)]
      :: (info.description.toList.map .char ++ [.endTag "font".toList])⟩

/-- The cell of a number. -/
def countCell (n : ℕ) : TableCell := ⟨false, [], (Nat.toDigits 10 n).map .char⟩

/-- **The summary as it should be read**: name and version of each library, and
a row for each result code with the count of each library. -/
def readSummary (libs : List ReportedLibrary) (infos : List ResultCodeInfo) (results : Results) :
    MarkupTable :=
  (emptyHeader :: libs.map fun lib =>
      labelCell (lib.name.toList ++ "-".toList ++ lib.version.toList))
    :: infos.map fun info =>
      meaningCell info :: results.map fun r => countCell (r.count info.code)

/-- **The header of the files as it should be read**, with the names of the
libraries. -/
def readHeader (libs : List ReportedLibrary) : List TableCell :=
  emptyHeader :: (libs.map (fun lib => labelCell lib.name.toList) ++ [emptyHeader])

/-- **A row shows a file**: its name, a coloured cell for each library with the
colour of the library's result, and its text. -/
def ShowsFile (refs : CharRefs) (infos : List ResultCodeInfo) (results : Results) (i : ℕ)
    (file : TestSuiteFile) (row : List TableCell) : Prop :=
  ∃ (first last : TableCell) (colors : List (List Char)),
    row = first :: (colors.map colorTableCell ++ [last]) ∧
      colors.map some = resultColors infos results i ∧
      first.text.map refs.decode = some (fileName file.path) ∧
      last.text.map refs.decode = some (cutText file.text)

/-- **The report reads back**: it is written, and read as markup it is two
tables, of which the second has a header and a row for each file in order, with
a cell for each library between the first and the last. -/
def ReadsBack (refs : CharRefs) (libs : List ReportedLibrary) (infos : List ResultCodeInfo)
    (files : List TestSuiteFile) (results : Results) : Prop :=
  ∃ html summary header rows, visit libs infos files results = some html ∧
    readTables html = [summary, header :: rows] ∧ rows.length = files.length ∧
    ∀ i file row, files[i]? = some file → rows[i]? = some row →
      ShowsFile refs infos results i file row ∧ row.length = libs.length + 2

end JsonBenchmarks
