import JsonBenchmarks.SuitePageLinks

/-!
# The page of `main`

`main` registers the tests of the two suites with a reporter, in the part that
is not compiled. Each of them hands one report to the reporter, on all files
that it finds and with the results of every library, or none if it is left by an
exception (`mainReporter_reports`). A directory that does not exist is one
without files.

So which files are on the page is a matter of the directories and of the
libraries, and so is whether it reads back (`mainReporter_readsBack_iff`).
-/

namespace JsonBenchmarks

open FallibleRuns

/-! ## The tests of `main` -/

/-- The test function of a suite. If something throws, it prints what and does
not call `visit`. -/
def Suite.test (suite : Suite) (fs : String → Option (List DirEntry)) : Test :=
  fun implementations =>
    match suite.parsingTests fs (implementations.map Implementation.runTestSuite) with
    | .ok (files, results) => [⟨files, results⟩]
    | .error _ => []

/-- `json_test_suite_parsing_tests`. -/
def jsonTestSuiteParsingTests (fs : String → Option (List DirEntry)) : Test :=
  jsonTestSuite.test fs

/-- `json_checker_parsing_tests`. -/
def jsonCheckerParsingTests (fs : String → Option (List DirEntry)) : Test := jsonChecker.test fs

/-- The reporter of `main`. -/
def mainReporter (fs : String → Option (List DirEntry)) (implementations : List Implementation) :
    Reporter :=
  ((Reporter.create ⟨"Parser Comparisons", by decide⟩ implementations resultCodeInfos).registerTest
      ⟨"JSON Test Suite", by decide⟩ (jsonTestSuiteParsingTests fs)).registerTest
    ⟨"JSON Checker", by decide⟩ (jsonCheckerParsingTests fs)

/-! ## What is reported -/

section Main

variable (suite : Suite) (fs : String → Option (List DirEntry))
  (implementations : List Implementation)

/-- The files of a suite as they are found. -/
def Suite.filesIn : List TestSuiteFile := suite.files ((fs suite.directory).getD [])

/-- **The suite runs**: the size of each of its files can be told, and no
library throws. -/
structure Suite.Runs : Prop where
  sizes : SizesKnown ((fs suite.directory).getD [])
  libraries : ∀ impl ∈ implementations, ∃ results,
    impl.runTestSuite (suite.filesIn fs) = .ok results

variable {suite fs implementations}

/-- A test visits once if it is not left by an exception. -/
theorem mem_test_iff (v : Visit) :
    v ∈ suite.test fs implementations ↔ SizesKnown ((fs suite.directory).getD []) ∧
      v.files = suite.filesIn fs ∧ List.Forall₂
        (fun (impl : Implementation) results => impl.runTestSuite v.files = .ok results)
        implementations v.results := by
  have hparsing := parsingTests_iff suite fs
    (implementations.map Implementation.runTestSuite) v.files v.results
  rw [mapM_eq_ok_iff, List.forall₂_map_left_iff] at hparsing
  rw [Suite.filesIn, ← hparsing, Suite.test]
  cases suite.parsingTests fs (implementations.map Implementation.runTestSuite) with
  | error what => exact iff_of_false List.not_mem_nil fun h => nomatch h
  | ok found =>
    rw [List.mem_singleton, Except.ok.injEq]
    exact ⟨fun h => h ▸ rfl, fun h => by rw [h]⟩

variable (suite fs implementations) in
/-- **What is reported of a suite**: if it runs, one visit with its files and
what each library makes of them, and otherwise nothing. -/
structure Suite.Reported (vs : List Visit) : Prop where
  visit : suite.Runs fs implementations → ∃ results,
    vs = [⟨suite.filesIn fs, results⟩] ∧ List.Forall₂
      (fun (impl : Implementation) results => impl.runTestSuite (suite.filesIn fs) = .ok results)
      implementations results
  nothing : ¬ suite.Runs fs implementations → vs = []

/-- Of a suite that runs, each library has results. -/
theorem exists_results (h : suite.Runs fs implementations) : ∃ results, List.Forall₂
    (fun (impl : Implementation) results => impl.runTestSuite (suite.filesIn fs) = .ok results)
    implementations results := by
  have hlibraries := h.libraries
  choose! results hresults using hlibraries
  exact ⟨implementations.map results, by
    rw [List.forall₂_map_right_iff, List.forall₂_same]
    exact hresults⟩

/-- A suite that is reported on runs. -/
theorem runs_of_mem_test {v : Visit} (h : v ∈ suite.test fs implementations) :
    suite.Runs fs implementations := by
  obtain ⟨hsizes, hfiles, hresults⟩ := (mem_test_iff v).mp h
  refine ⟨hsizes, fun impl himpl => ?_⟩
  obtain ⟨i, hi, rfl⟩ := List.getElem_of_mem himpl
  have hi' : i < v.results.length := hresults.length_eq ▸ hi
  exact ⟨v.results[i], hfiles ▸ hresults.get hi hi'⟩

/-- The results of a suite have the right shape. -/
theorem shaped_of_mem_test {v : Visit} (h : v ∈ suite.test fs implementations) :
    v.Shaped (implementations.map Implementation.lib) resultCodeInfos := by
  obtain ⟨-, -, hresults⟩ := (mem_test_iff v).mp h
  have hcodes : ∀ rc : ResultCode, ∃ info ∈ resultCodeInfos, info.code = rc := by
    intro rc
    cases rc <;> decide
  refine ⟨?_, fun r hr => ?_, fun _ _ rc _ => hcodes rc⟩
  · rw [List.length_map, hresults.length_eq]
  · obtain ⟨i, hi, rfl⟩ := List.getElem_of_mem hr
    have hi' : i < implementations.length := hresults.length_eq ▸ hi
    exact (implementations[i]).length_eq _ _ (hresults.get hi' hi)

/-- A suite is reported on if it runs, and its files are those found. -/
theorem harmless_test_iff (refs : CharRefs) :
    (∀ v ∈ suite.test fs implementations, v.Harmless refs) ↔
      (suite.Runs fs implementations → ∀ file ∈ suite.filesIn fs, refs.Harmless file) := by
  constructor
  · intro hall hruns
    obtain ⟨results, hresults⟩ := exists_results hruns
    exact hall _ ((mem_test_iff ⟨suite.filesIn fs, results⟩).mpr ⟨hruns.sizes, rfl, hresults⟩)
  · intro hall v hv
    rw [Visit.Harmless, ((mem_test_iff v).mp hv).2.1]
    exact hall (runs_of_mem_test hv)

end Main

section MainReporter

variable (fs : String → Option (List DirEntry)) (implementations : List Implementation)

theorem visits_mainReporter : (mainReporter fs implementations).visits
    = jsonTestSuite.test fs implementations ++ jsonChecker.test fs implementations :=
  congrArg (_ ++ ·) (List.append_nil _)

/-- **The page of `main` reads back exactly if every file of a suite that runs
is harmless**, whatever the directories hold and whatever the libraries make of
the files. -/
theorem mainReporter_readsBack_iff (refs : CharRefs) :
    (mainReporter fs implementations).ReadsBack refs ↔
      ∀ suite ∈ [jsonTestSuite, jsonChecker], suite.Runs fs implementations →
        ∀ file ∈ suite.filesIn fs, refs.Harmless file := by
  have hshaped : ∀ v ∈ (mainReporter fs implementations).visits,
      v.Shaped (implementations.map Implementation.lib) resultCodeInfos := by
    intro v hv
    rw [visits_mainReporter] at hv
    rcases List.mem_append.mp hv with hv | hv
    · exact shaped_of_mem_test hv
    · exact shaped_of_mem_test hv
  rw [Reporter.readsBack_iff refs _ hshaped, visits_mainReporter, List.forall_mem_append,
    harmless_test_iff, harmless_test_iff, List.forall_mem_cons, List.forall_mem_singleton]

end MainReporter

end JsonBenchmarks
