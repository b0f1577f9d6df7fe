import JsonBenchmarks.FallibleRuns
import JsonBenchmarks.ParsingReport
import JsonBenchmarks.StableSort

/-!
# The files of a test suite

`json_test_suite_parsing_tests` and `json_checker_parsing_tests`, which are not
compiled (`#if 0`), are the tests of a report. A test goes through a directory.
It takes the regular files whose extension is `.json`, reads each of them, and
tells by the first letter of the name what a parser should do with it; the
suites differ in their directories and letters only. The files are sorted by
what is expected, run with every library, and handed to the reporter.

The order of a directory is not specified, so all that can be said of the files
is what they are and how they are grouped: those to be accepted, those to be
rejected, and those that may be either, each group in the order of the
directory (`parsingTests_iff`). A file whose size cannot be told ends the
test, even if its letter is none of the three.
-/

namespace JsonBenchmarks

open FallibleRuns StableSort

/-! ## Finding the files -/

/-- What a directory iterator finds. -/
structure DirEntry where
  path : String
  /-- `fs::is_regular_file` of its status. -/
  isRegular : Bool
  /-- `fs::file_size`, or the exception that it throws. -/
  fileSize : Except String ℕ
  /-- What a stream delivers that is opened on it, if it opens. -/
  content : Option (List Char)

/-- `path::extension()` of a file name: what stands from the last dot on,
unless that is where the name begins. -/
def extension (name : List Char) : List Char :=
  let behind := (name.reverse.takeWhile (· ≠ '.')).reverse
  if name ≠ "..".toList ∧ behind.length + 1 < name.length then '.' :: behind else []

/-- The entries that `json_file_finder` calls its function for. -/
def DirEntry.isJson (e : DirEntry) : Bool :=
  e.isRegular && extension (fileName e.path) = ".json".toList

/-- **`json_file_finder`.** There is nothing to find if the directory does not
exist. -/
def jsonFileFinder {σ : Type} (dir : Option (List DirEntry)) (f : σ → DirEntry → Except String σ)
    (s : σ) : Except String σ :=
  match dir with
  | some entries => entries.foldlM (fun s e => if e.isJson then f s e else .ok s) s
  | none => .ok s

/-! ## The tests -/

/-- A suite: its directory, and the letters with which names begin. -/
structure Suite where
  directory : String
  success : Char
  failure : Char
  undefined : Char

/-- The suite of `json_test_suite_parsing_tests`. -/
def jsonTestSuite : Suite := ⟨"data/input/JSONTestSuite/test_parsing", 'y', 'n', 'i'⟩

/-- The suite of `json_checker_parsing_tests`. -/
def jsonChecker : Suite := ⟨"data/input/JSON_checker", 'p', 'f', 'i'⟩

/-- What is expected of a file by the first letter of its name. -/
def Suite.expected (suite : Suite) (type : Char) : Option ExpectedResult :=
  if type = suite.success then some .expectSuccess
  else if type = suite.failure then some .expectFailure
  else if type = suite.undefined then some .resultUndefined
  else none

/-- The buffer that a file is read into. It has the size of the file, and NULs
where nothing is read. -/
def readBuffer (size : ℕ) (content : Option (List Char)) : List Char :=
  match content with
  | some content => content.take size ++ List.replicate (size - content.length) '\x00'
  | none => List.replicate size '\x00'

/-- The function that a test gives to `json_file_finder`. -/
def Suite.pushFile (suite : Suite) (pathnames : List TestSuiteFile) (e : DirEntry) :
    Except String (List TestSuiteFile) := do
  let size ← e.fileSize
  let buffer := readBuffer size e.content
  match suite.expected ((fileName e.path).headD '\x00') with
  | some type => return pathnames ++ [⟨e.path, type, String.ofList buffer⟩]
  | none => return pathnames

/-- The value of the enumeration. -/
def ExpectedResult.value : ExpectedResult → ℕ
  | .expectSuccess => 0
  | .expectFailure => 1
  | .resultUndefined => 2

/-- The comparison that the files are sorted with. -/
def byType (a b : TestSuiteFile) : Bool := decide (a.type.value < b.type.value)

/-- `run_test_suite` of an adapter, which may throw. -/
abbrev RunTestSuite := List TestSuiteFile → Except String (List ResultCode)

/-- **A test**: what it hands to `visitor.visit`, or the exception that it
prints instead. -/
def Suite.parsingTests (suite : Suite) (fs : String → Option (List DirEntry))
    (implementations : List RunTestSuite) : Except String (List TestSuiteFile × Results) := do
  let pathnames ← jsonFileFinder (fs suite.directory) suite.pushFile []
  let pathnames := stableSort byType pathnames
  let results ← implementations.mapM fun impl => impl pathnames
  return (pathnames, results)

/-! ## Which files, and in which order -/

/-- The file of a suite that an entry is, if it is one. -/
def Suite.fileOf (suite : Suite) (e : DirEntry) : Option TestSuiteFile :=
  if e.isJson then
    match e.fileSize, suite.expected ((fileName e.path).headD '\x00') with
    | .ok size, some type => some ⟨e.path, type, String.ofList (readBuffer size e.content)⟩
    | _, _ => none
  else none

/-- Every size that is asked for can be told. -/
def SizesKnown (entries : List DirEntry) : Prop :=
  ∀ e ∈ entries, e.isJson = true → ∃ size, e.fileSize = .ok size

/-- The function that is called for an entry pushes its file. -/
theorem Suite.pushFile_of_ok (suite : Suite) {e : DirEntry} (he : e.isJson = true) {size : ℕ}
    (hsize : e.fileSize = .ok size) (pathnames : List TestSuiteFile) :
    suite.pushFile pathnames e = .ok (pathnames ++ (suite.fileOf e).toList) := by
  unfold pushFile fileOf
  rw [hsize, if_pos he]
  cases suite.expected ((fileName e.path).headD '\x00') with
  | some type => rfl
  | none => exact congrArg Except.ok (List.append_nil pathnames).symm

/-- **The finder pushes the files of a suite in the order of the directory**, if
it can tell their sizes. -/
theorem jsonFileFinder_pushFile (suite : Suite) (entries : List DirEntry)
    (pathnames files : List TestSuiteFile) :
    jsonFileFinder (some entries) suite.pushFile pathnames = .ok files ↔
      SizesKnown entries ∧ files = pathnames ++ entries.filterMap suite.fileOf := by
  unfold jsonFileFinder SizesKnown
  dsimp only
  induction entries generalizing pathnames with
  | nil =>
    rw [List.foldlM_nil, List.filterMap_nil, List.append_nil]
    exact ⟨fun h => ⟨by simp, (Except.ok.inj h).symm⟩, fun h => congrArg Except.ok h.2.symm⟩
  | cons e entries ih =>
    rw [List.foldlM_cons, List.forall_mem_cons]
    by_cases he : e.isJson = true
    · rw [if_pos he]
      cases hsize : e.fileSize with
      | error what =>
        have hthrows : suite.pushFile pathnames e = .error what := by
          unfold Suite.pushFile
          rw [hsize]
          rfl
        rw [hthrows]
        refine iff_of_false (fun h => nomatch h) fun h => ?_
        obtain ⟨size, hsize'⟩ := h.1.1 he
        exact nomatch hsize'
      | ok size =>
        rw [suite.pushFile_of_ok he hsize]
        show List.foldlM _ (pathnames ++ (suite.fileOf e).toList) entries = _ ↔ _
        have hmap : (e :: entries).filterMap suite.fileOf
            = (suite.fileOf e).toList ++ entries.filterMap suite.fileOf := by
          rw [List.filterMap_cons]
          cases suite.fileOf e <;> rfl
        rw [ih, hmap, List.append_assoc]
        exact and_congr_left' (and_iff_right fun _ => ⟨size, rfl⟩).symm
    · have hnone : suite.fileOf e = none := if_neg he
      rw [if_neg he, List.filterMap_cons_none hnone]
      show List.foldlM _ pathnames entries = _ ↔ _
      rw [ih]
      exact and_congr_left' (and_iff_right fun h => absurd h he).symm

/-- The files of a suite of which the same is expected, in the order of the
directory. -/
def Suite.group (suite : Suite) (entries : List DirEntry) (type : ExpectedResult) :
    List TestSuiteFile :=
  (entries.filterMap suite.fileOf).filter fun file => file.type = type

/-- **All files of a suite**: those to be accepted, those to be rejected, and
those that may be either. -/
def Suite.files (suite : Suite) (entries : List DirEntry) : List TestSuiteFile :=
  suite.group entries .expectSuccess ++ suite.group entries .expectFailure
    ++ suite.group entries .resultUndefined

theorem ExpectedResult.value_inj {type type' : ExpectedResult} :
    type.value = type'.value ↔ type = type' := by
  cases type <;> cases type' <;> decide

/-- Sorting groups the files. -/
theorem stableSort_byType (suite : Suite) (entries : List DirEntry) :
    stableSort byType (entries.filterMap suite.fileOf) = suite.files entries := by
  have hvalues : ([0, 1, 2] : List ℕ).Pairwise (· < ·) := by decide
  have hmem : ∀ type : ExpectedResult, type.value ∈ [0, 1, 2] := by
    intro type
    cases type <;> decide
  have hclass : ∀ type : ExpectedResult, classOf (fun file : TestSuiteFile => file.type.value)
      type.value (entries.filterMap suite.fileOf) = suite.group entries type :=
    fun type => List.filter_congr fun file _ => decide_eq_decide.mpr ExpectedResult.value_inj
  have hbyType : ∀ a b, byType a b = true ↔ a.type.value < b.type.value :=
    fun _ _ => decide_eq_true_iff
  rw [stableSort_eq_flatMap hbyType hvalues fun file _ => hmem file.type]
  show classOf _ ExpectedResult.expectSuccess.value _ ++ (classOf _
    ExpectedResult.expectFailure.value _ ++ (classOf _ ExpectedResult.resultUndefined.value _
      ++ [])) = _
  rw [hclass, hclass, hclass, List.append_nil, Suite.files, List.append_assoc]

/-- The finder, for a directory that may not exist. -/
theorem jsonFileFinder_eq_ok_iff (suite : Suite) (dir : Option (List DirEntry))
    (files : List TestSuiteFile) :
    jsonFileFinder dir suite.pushFile [] = .ok files ↔
      SizesKnown (dir.getD []) ∧ files = (dir.getD []).filterMap suite.fileOf := by
  cases dir with
  | some entries => exact jsonFileFinder_pushFile suite entries [] files
  | none => exact jsonFileFinder_pushFile suite [] [] files

/-- **What a test hands to the reporter**: exactly if the sizes can be told and
no library throws, the files of the suite, grouped by what is expected of them
and in the order of the directory within a group, and the results of each
library for these files. -/
theorem parsingTests_iff (suite : Suite) (fs : String → Option (List DirEntry))
    (implementations : List RunTestSuite) (files : List TestSuiteFile) (results : Results) :
    suite.parsingTests fs implementations = .ok (files, results) ↔
      SizesKnown ((fs suite.directory).getD []) ∧
        files = suite.files ((fs suite.directory).getD []) ∧
        implementations.mapM (fun impl => impl files) = .ok results := by
  have hbind : suite.parsingTests fs implementations
      = (jsonFileFinder (fs suite.directory) suite.pushFile []).bind fun pathnames =>
        (implementations.mapM fun impl : RunTestSuite => impl (stableSort byType pathnames)).bind
          fun results => .ok (stableSort byType pathnames, results) := rfl
  rw [hbind, bind_eq_ok_iff]
  simp only [jsonFileFinder_eq_ok_iff, bind_eq_ok_iff, Except.ok.injEq, Prod.mk.injEq]
  constructor
  · rintro ⟨pathnames, ⟨hsizes, rfl⟩, results', hresults, rfl, rfl⟩
    rw [stableSort_byType] at hresults ⊢
    exact ⟨hsizes, rfl, hresults⟩
  · rintro ⟨hsizes, rfl, hresults⟩
    refine ⟨_, ⟨hsizes, rfl⟩, results, ?_, stableSort_byType suite _, rfl⟩
    rw [stableSort_byType]
    exact hresults

end JsonBenchmarks
