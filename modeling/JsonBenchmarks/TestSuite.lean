import Mathlib.Tactic

/-!
# The out-of-process test suite

Three adapters run their library's parser as a program of its own, one
process per test file, and turn what `std::system` returns into a result
code: a ladder of nine cases, by the expected type of the file and by the
value being 0, 1 or anything else.

The parser programs exit with 0 for an accepted document and with 1 for a
rejected one. On Linux, however, `std::system` does not return the exit code
but the wait status, in which the code is shifted left by eight bits and the
low bits are a signal. So an exit with 1 is 256 to the ladder, and its 1 is a
death by signal 1: the ladder reads every termination as it is meant except
these two (`ladder_status_eq_iff`).
-/

namespace JsonBenchmarks

/-- `result_code`. -/
inductive ResultCode
  | expectedResult
  | expectedSuccessParsingFailed
  | expectedFailureParsingSucceeded
  | resultUndefinedParsingSucceeded
  | resultUndefinedParsingFailed
  | processStopped
deriving DecidableEq

/-- `expected_result`, the type of a test file. -/
inductive ExpectedResult
  | expectSuccess
  | expectFailure
  | resultUndefined
deriving DecidableEq

/-- `test_suite_file`. A string is a sequence of bytes, each of them a
character. -/
structure TestSuiteFile where
  path : String
  type : ExpectedResult
  text : String

/-! ## Wait statuses -/

/-- The number of a signal that a process can die of. -/
abbrev Signal := {n : ℕ // 1 ≤ n ∧ n < 127}

/-- The signal 1. -/
def sighup : Signal := ⟨1, by decide⟩

/-- **How a spawned process ends.** -/
inductive Termination
  /-- It exits with a code. -/
  | exited (code : Fin 256)
  /-- It dies of a signal, leaving a core file or not. -/
  | signaled (signal : Signal) (core : Bool)
deriving DecidableEq

/-- The wait status that `std::system` returns. -/
def Termination.status : Termination → ℤ
  | .exited code => 256 * (code : ℕ)
  | .signaled signal core => signal.val + if core then 128 else 0

/-! ## The ladder -/

/-- **The nine-way ladder** on the value that `std::system` returned. -/
def ladder (type : ExpectedResult) (result : ℤ) : ResultCode :=
  match type with
  | .expectSuccess =>
    if result = 0 then .expectedResult
    else if result = 1 then .expectedSuccessParsingFailed
    else .processStopped
  | .expectFailure =>
    if result = 0 then .expectedFailureParsingSucceeded
    else if result = 1 then .expectedResult
    else .processStopped
  | .resultUndefined =>
    if result = 0 then .resultUndefinedParsingSucceeded
    else if result = 1 then .resultUndefinedParsingFailed
    else .processStopped

/-- The loop of `run_test_suite()`. `system` are the terminations of the
processes still to be spawned, the `n`-th for the command it is given. -/
def runTestSuite (program : String) :
    (ℕ → String → Termination) → List TestSuiteFile → List ResultCode
  | _, [] => []
  | system, file :: files =>
    let command := program ++ file.path
    let result := (system 0 command).status
    ladder file.type result :: runTestSuite program (fun n => system (n + 1)) files

/-- The command that `nlohmann_benchmarks` appends a path to. -/
def NlohmannBenchmarks.program : String := "./parsers/nlohmann/build/nlohmann_parser "

/-- `nlohmann_benchmarks::run_test_suite`. -/
def NlohmannBenchmarks.runTestSuite :
    (ℕ → String → Termination) → List TestSuiteFile → List ResultCode :=
  JsonBenchmarks.runTestSuite NlohmannBenchmarks.program

/-- The command of `rapidjson_benchmarks`. -/
def RapidjsonBenchmarks.program : String := "./parsers/rapidjson/build/rapidjson_parser "

/-- `rapidjson_benchmarks::run_test_suite`. -/
def RapidjsonBenchmarks.runTestSuite :
    (ℕ → String → Termination) → List TestSuiteFile → List ResultCode :=
  JsonBenchmarks.runTestSuite RapidjsonBenchmarks.program

/-- The command of `json_spirit_benchmarks`. -/
def JsonSpiritBenchmarks.program : String := "./parsers/json_spirit/build/json_spirit_parser "

/-- `json_spirit_benchmarks::run_test_suite`. -/
def JsonSpiritBenchmarks.runTestSuite :
    (ℕ → String → Termination) → List TestSuiteFile → List ResultCode :=
  JsonBenchmarks.runTestSuite JsonSpiritBenchmarks.program

/-! ## What the results are meant to say -/

/-- The result of a file that the parser accepts. -/
def ExpectedResult.parsed : ExpectedResult → ResultCode
  | .expectSuccess => .expectedResult
  | .expectFailure => .expectedFailureParsingSucceeded
  | .resultUndefined => .resultUndefinedParsingSucceeded

/-- The result of a file that the parser rejects. -/
def ExpectedResult.rejected : ExpectedResult → ResultCode
  | .expectSuccess => .expectedSuccessParsingFailed
  | .expectFailure => .expectedResult
  | .resultUndefined => .resultUndefinedParsingFailed

/-- **The classification**: an exit with 0 accepts, an exit with 1 rejects,
and everything else is a parser that was stopped. -/
def classify (type : ExpectedResult) (t : Termination) : ResultCode :=
  if t = .exited 0 then type.parsed
  else if t = .exited 1 then type.rejected
  else .processStopped

/-- The terminations whose wait status the ladder takes for another: the exit
of a parser that rejects, and a death by signal 1 without a core. -/
def Termination.Misread (t : Termination) : Prop :=
  t = .exited 1 ∨ t = .signaled sighup false

/-- The ladder on 0, 1 and the rest. -/
theorem ladder_eq (type : ExpectedResult) (result : ℤ) :
    ladder type result
      = if result = 0 then type.parsed
        else if result = 1 then type.rejected
        else .processStopped := by
  cases type <;> rfl

theorem Termination.status_exited (code : Fin 256) :
    (Termination.exited code).status = 256 * (code.val : ℤ) := rfl

theorem Termination.status_signaled (signal : Signal) (core : Bool) :
    (Termination.signaled signal core).status
      = (signal.val : ℤ) + if core then 128 else 0 := rfl

/-- The status of a death by a signal is positive. -/
theorem Termination.le_status_signaled (signal : Signal) (core : Bool) :
    (signal.val : ℤ) ≤ (Termination.signaled signal core).status ∧ (1 : ℤ) ≤ signal.val := by
  have hsig : (1 : ℤ) ≤ (signal.val : ℤ) := by exact_mod_cast signal.property.1
  rw [status_signaled]
  cases core <;> simp [hsig]

/-- The wait status 0 is the exit with 0. -/
theorem Termination.status_eq_zero_iff (t : Termination) :
    t.status = 0 ↔ t = .exited 0 := by
  cases t with
  | exited code =>
    rw [status_exited, Termination.exited.injEq, Fin.ext_iff]
    show 256 * (code.val : ℤ) = 0 ↔ code.val = 0
    omega
  | signaled signal core =>
    have hsig := le_status_signaled signal core
    exact iff_of_false (fun h => by linarith) (fun h => Termination.noConfusion h)

/-- The wait status 1 is the signal 1. -/
theorem Termination.status_eq_one_iff (t : Termination) :
    t.status = 1 ↔ t = .signaled sighup false := by
  cases t with
  | exited code =>
    rw [status_exited]
    refine iff_of_false (fun h => ?_) (fun h => Termination.noConfusion h)
    omega
  | signaled signal core =>
    have hsig := le_status_signaled signal core
    rw [status_signaled, Termination.signaled.injEq, Subtype.ext_iff]
    show (signal.val : ℤ) + (if core then 128 else 0) = 1 ↔ signal.val = 1 ∧ core = false
    cases core with
    | true => exact iff_of_false (fun h => by simp at h; linarith) (fun h => by simp at h)
    | false => simp

/-- No result of a file that is accepted or rejected is a stopped process. -/
theorem ExpectedResult.rejected_ne_processStopped (type : ExpectedResult) :
    type.rejected ≠ .processStopped := by
  cases type <;> decide

/-- **The ladder reads a wait status as it is meant unless it is one of the
two.** -/
theorem ladder_status_eq_iff (type : ExpectedResult) (t : Termination) :
    ladder type t.status = classify type t ↔ ¬ t.Misread := by
  have hne := type.rejected_ne_processStopped
  rw [ladder_eq, classify]
  unfold Termination.Misread
  simp only [t.status_eq_zero_iff, t.status_eq_one_iff]
  by_cases h₀ : t = .exited 0
  · simp [h₀]
  by_cases h₁ : t = .exited 1
  · simp [h₁, hne.symm]
  by_cases hs : t = .signaled sighup false
  · simp [hs, hne]
  · simp [h₀, h₁, hs]

/-- The loop returns one result per file, in the order of the files. -/
theorem runTestSuite_eq_mapIdx (program : String) (system : ℕ → String → Termination)
    (files : List TestSuiteFile) :
    runTestSuite program system files
      = files.mapIdx
        (fun i file => ladder file.type (system i (program ++ file.path)).status) := by
  induction files generalizing system with
  | nil => rfl
  | cons file files ih =>
    rw [runTestSuite, List.mapIdx_cons, ih]

/-- The whole loop classifies its files exactly when no termination in it is
misread. -/
theorem runTestSuite_eq_iff (program : String) (system : ℕ → String → Termination)
    (files : List TestSuiteFile) :
    runTestSuite program system files
        = files.mapIdx (fun i file => classify file.type (system i (program ++ file.path)))
      ↔ ∀ i, ∀ h : i < files.length, ¬ (system i (program ++ files[i].path)).Misread := by
  rw [runTestSuite_eq_mapIdx, List.mapIdx_eq_mapIdx_iff]
  exact forall_congr' (fun i => forall_congr' (fun h => ladder_status_eq_iff _ _))

/-- The three adapters that spawn a parser. -/
inductive SpawningAdapter
  | nlohmann
  | rapidjson
  | jsonSpirit

namespace SpawningAdapter

/-- The command that the path of a file is appended to. -/
def program : SpawningAdapter → String
  | .nlohmann => NlohmannBenchmarks.program
  | .rapidjson => RapidjsonBenchmarks.program
  | .jsonSpirit => JsonSpiritBenchmarks.program

/-- `run_test_suite()` of the adapter. -/
def runTestSuite :
    SpawningAdapter → (ℕ → String → Termination) → List TestSuiteFile → List ResultCode
  | .nlohmann => NlohmannBenchmarks.runTestSuite
  | .rapidjson => RapidjsonBenchmarks.runTestSuite
  | .jsonSpirit => JsonSpiritBenchmarks.runTestSuite

end SpawningAdapter

/-- **Every file gets its class exactly when no parser exits with 1 or dies of
signal 1**, for each of the three adapters, any list of files and any
terminations of the processes spawned for it. -/
theorem runTestSuite_classifies_iff (a : SpawningAdapter)
    (system : ℕ → String → Termination) (files : List TestSuiteFile) :
    a.runTestSuite system files
        = files.mapIdx (fun i file => classify file.type (system i (a.program ++ file.path)))
      ↔ ∀ i, ∀ h : i < files.length, ¬ (system i (a.program ++ files[i].path)).Misread := by
  cases a <;> exact runTestSuite_eq_iff _ system files

/-- **A correct rejection is published as a stopped process**: the parser
exits with 1 on a file that is expected to fail. -/
theorem rejection_not_classified :
    let files : List TestSuiteFile :=
      [⟨"data/input/JSON_checker/fail2.json", .expectFailure, "[\"Unclosed array\""⟩]
    SpawningAdapter.nlohmann.runTestSuite (fun _ _ => .exited 1) files
      ≠ files.mapIdx (fun _ file => classify file.type (.exited 1)) := by
  decide

end JsonBenchmarks
