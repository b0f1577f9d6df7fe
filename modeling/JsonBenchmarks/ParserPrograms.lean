import JsonBenchmarks.MainReporter

/-!
# The parser programs behind a report

The adapters that spawn a parser append the path of a file to a command and
give it to a shell. The shell splits the command into words, so a path with a
blank is no longer one argument; the program, which wants exactly one, exits
with 1 as it does for a file that it rejects; and its exit code comes back as a
wait status, which is never 1 for an exit (`ladder_status_eq_iff`).

Put together: what is published of a file is that it parsed, if its path is one
word and the library accepts it, and otherwise that the process was stopped
(`runTestSuite_spawned`). That a library rejects a file is published only of a
process that died of signal 1. So in the reports of `main` the counts of a
spawned library are those of the files that it accepts, all others being
counted as stopped (`mainReporter_counts_spawned`).
-/

namespace JsonBenchmarks

/-! ## The programs -/

/-- There are exit codes. -/
instance exitCode_neZero : NeZero 256 := ⟨Nat.succ_ne_zero 255⟩

/-- How a call of a library ends. An exception that the program does not catch
is a death by the signal of `abort`. -/
inductive LibraryCall (α : Type)
  | returned (result : α)
  | threw
  | died (signal : Signal) (core : Bool)

/-- A call of which the program looks at something. -/
def LibraryCall.map {α β : Type} (f : α → β) : LibraryCall α → LibraryCall β
  | .returned result => .returned (f result)
  | .threw => .threw
  | .died signal core => .died signal core

/-- How a program ends that makes of a file what the call says. -/
def LibraryCall.termination : LibraryCall Bool → Termination
  | .returned ok => .exited (if ok then 0 else 1)
  | .threw => .exited 1
  | .died signal core => .signaled signal core

/-- What is common to the programs. `read` is what the program makes of the
stream that it opened, if it did open. -/
def parserMain (read : Option (List Char) → LibraryCall Bool)
    (ifstream : List Char → Option (List Char)) : List (List Char) → Termination
  | [_, name] => (read (ifstream name)).termination
  | _ => .exited 1

/-- What `nlohmann_parser` makes of a stream. It does not look whether it
opened. -/
def NlohmannParser.read (parse : Option (List Char) → LibraryCall Unit)
    (is : Option (List Char)) : LibraryCall Bool := (parse is).map fun () => true

/-- `main` of `nlohmann_parser`. -/
def nlohmannParser (parse : Option (List Char) → LibraryCall Unit) :
    (List Char → Option (List Char)) → List (List Char) → Termination :=
  parserMain (NlohmannParser.read parse)

/-- What `rapidjson_parser` makes of a stream, which is not checked either. The
result of parsing says whether it failed. -/
def RapidjsonParser.read (parseStream : Option (List Char) → LibraryCall Bool) :
    Option (List Char) → LibraryCall Bool := parseStream

/-- `main` of `rapidjson_parser`. -/
def rapidjsonParser (parseStream : Option (List Char) → LibraryCall Bool) :
    (List Char → Option (List Char)) → List (List Char) → Termination :=
  parserMain (RapidjsonParser.read parseStream)

/-- What `json_spirit_parser` makes of a stream. What is read must not be
null. -/
def JsonSpiritParser.read (readStream : List Char → LibraryCall (Bool × Bool)) :
    Option (List Char) → LibraryCall Bool
  | none => .returned false
  | some is => (readStream is).map fun (read, isNull) => read && !isNull

/-- `main` of `json_spirit_parser`. -/
def jsonSpiritParser (readStream : List Char → LibraryCall (Bool × Bool)) :
    (List Char → Option (List Char)) → List (List Char) → Termination :=
  parserMain (JsonSpiritParser.read readStream)

namespace SpawningAdapter

/-- What the program of an adapter asks of its library. -/
def Library : SpawningAdapter → Type
  | .nlohmann => Option (List Char) → LibraryCall Unit
  | .rapidjson => Option (List Char) → LibraryCall Bool
  | .jsonSpirit => List Char → LibraryCall (Bool × Bool)

/-- `main` of the program. -/
def main : (a : SpawningAdapter) → a.Library →
    (List Char → Option (List Char)) → List (List Char) → Termination
  | .nlohmann => nlohmannParser
  | .rapidjson => rapidjsonParser
  | .jsonSpirit => jsonSpiritParser

/-- What the program makes of a stream. -/
def read : (a : SpawningAdapter) → a.Library → Option (List Char) → LibraryCall Bool
  | .nlohmann => NlohmannParser.read
  | .rapidjson => RapidjsonParser.read
  | .jsonSpirit => JsonSpiritParser.read

theorem main_eq (a : SpawningAdapter) (lib : a.Library) :
    a.main lib = parserMain (a.read lib) := by
  cases a <;> rfl

end SpawningAdapter

/-! ## The shell -/

/-- The characters that mean nothing to a shell within a word. -/
def isWordChar (c : Char) : Bool := c.isAlphanum || ['_', '.', '/', '+', '-', '#'].contains c

/-- The words of a command, up to a comment. -/
def shellWords (command : List Char) : List (List Char) :=
  ((command.splitOn ' ').filter fun w => !w.isEmpty).takeWhile fun w => w.head? ≠ some '#'

/-- The shell that `std::system` gives a command to. -/
structure Shell where
  /-- Whether it is replaced by the program, rather than wait for it. -/
  execs : Bool
  /-- What becomes of a command with other characters. -/
  other : String → Termination

namespace Shell

/-- How a shell ends when its program does. -/
def relay (sh : Shell) : Termination → Termination
  | .exited code => .exited code
  | .signaled signal core =>
    if sh.execs then .signaled signal core
    else .exited ⟨128 + signal.val, Nat.lt_of_lt_of_le
      (Nat.add_lt_add_left signal.property.2 128) (by decide)⟩

/-- **`std::system`**, for a program. -/
def system (sh : Shell) (main : List (List Char) → Termination) (command : String) :
    Termination :=
  if command.toList.all fun c => isWordChar c || c == ' ' then
    sh.relay (main (shellWords command.toList))
  else sh.other command

end Shell

/-- The single argument that a path becomes, if it does. -/
def argument (path : String) : Option (List Char) :=
  match shellWords path.toList with
  | [name] => some name
  | _ => none

/-- A path of word characters and blanks. -/
def PlainPath (path : String) : Prop :=
  (path.toList.all fun c => isWordChar c || c == ' ') = true

/-! ## What is published -/

/-- A process dies of signal 1, and the shell passes it on. -/
def HungUp (sh : Shell) (call : LibraryCall Bool) : Prop :=
  sh.execs = true ∧ call.termination = .signaled sighup false

instance (sh : Shell) (call : LibraryCall Bool) : Decidable (HungUp sh call) :=
  inferInstanceAs (Decidable (_ ∧ _))

/-- The library took the file for JSON. -/
def LibraryCall.Accepts (call : LibraryCall Bool) : Prop := call.termination = .exited 0

instance (call : LibraryCall Bool) : Decidable call.Accepts :=
  inferInstanceAs (Decidable (_ = _))

/-- **What is published of a file.** -/
def published (sh : Shell) (type : ExpectedResult) (call : LibraryCall Bool) : ResultCode :=
  if call.Accepts then type.parsed
  else if HungUp sh call then type.rejected
  else .processStopped

/-- A program that is given no single argument rejects it unseen. -/
def calledWith (read : Option (List Char) → LibraryCall Bool)
    (ifstream : List Char → Option (List Char)) (path : String) : LibraryCall Bool :=
  match argument path with
  | some name => read (ifstream name)
  | none => .returned false

/-- A shell exits with 0 exactly if its program does. -/
theorem relay_eq_exited_zero_iff (sh : Shell) (t : Termination) :
    sh.relay t = .exited 0 ↔ t = .exited 0 := by
  cases t with
  | exited code => rfl
  | signaled signal core =>
    refine iff_of_false (fun h => ?_) (fun h => Termination.noConfusion h)
    by_cases hexecs : sh.execs = true
    · rw [Shell.relay, if_pos hexecs] at h
      exact Termination.noConfusion h
    · rw [Shell.relay, if_neg hexecs] at h
      have hcode := congrArg Fin.val (Termination.exited.inj h)
      exact absurd hcode (Nat.ne_of_gt (Nat.add_pos_left (by decide) signal.val))

/-- It dies of a signal exactly if it passes on that its program does. -/
theorem relay_eq_signaled_iff (sh : Shell) (t : Termination) (signal : Signal) (core : Bool) :
    sh.relay t = .signaled signal core ↔ sh.execs = true ∧ t = .signaled signal core := by
  cases t with
  | exited code =>
    exact iff_of_false (fun h => Termination.noConfusion h) fun h => Termination.noConfusion h.2
  | signaled signal' core' =>
    by_cases hexecs : sh.execs = true
    · rw [Shell.relay, if_pos hexecs]
      exact (and_iff_right hexecs).symm
    · rw [Shell.relay, if_neg hexecs]
      exact iff_of_false (fun h => Termination.noConfusion h) fun h => hexecs h.1

/-- **The ladder publishes** what the shell makes of a program. -/
theorem ladder_relay (sh : Shell) (type : ExpectedResult) (call : LibraryCall Bool) :
    ladder type (sh.relay call.termination).status = published sh type call := by
  rw [ladder_eq]
  simp only [Termination.status_eq_zero_iff, Termination.status_eq_one_iff,
    relay_eq_exited_zero_iff, relay_eq_signaled_iff]
  rfl

/-! ## Commands -/

/-- The words of a command whose program is one. -/
theorem shellWords_append {program : List Char} (hblank : ' ' ∉ program) (hne : program ≠ [])
    (hhash : program.head? ≠ some '#') (path : List Char) :
    shellWords (program ++ ' ' :: path) = program :: shellWords path := by
  unfold shellWords
  rw [List.splitOn_append_cons_self_of_not_mem hblank,
    List.filter_cons_of_pos (by simpa using hne), List.takeWhile_cons_of_pos (by simpa using hhash)]

/-- What the program of an adapter is called. -/
theorem exists_program (a : SpawningAdapter) :
    ∃ program : List Char, a.program.toList = program ++ [' '] ∧ ' ' ∉ program ∧ program ≠ [] ∧
      program.head? ≠ some '#' ∧ (program.all fun c => isWordChar c || c == ' ') = true := by
  cases a with
  | nlohmann => exact ⟨"./parsers/nlohmann/build/nlohmann_parser".toList, by decide +kernel⟩
  | rapidjson => exact ⟨"./parsers/rapidjson/build/rapidjson_parser".toList, by decide +kernel⟩
  | jsonSpirit => exact ⟨"./parsers/json_spirit/build/json_spirit_parser".toList, by decide +kernel⟩

/-- **How a spawned process ends.** -/
theorem system_program (sh : Shell) (a : SpawningAdapter) (lib : a.Library)
    (ifstream : List Char → Option (List Char)) {path : String} (h : PlainPath path) :
    sh.system (a.main lib ifstream) (a.program ++ path)
      = sh.relay (calledWith (a.read lib) ifstream path).termination := by
  obtain ⟨program, hprogram, hblank, hne, hhash, hplain⟩ := exists_program a
  have hcommand : (a.program ++ path).toList = program ++ ' ' :: path.toList := by
    rw [String.toList_append, hprogram, List.append_assoc]
    rfl
  have hall : ((a.program ++ path).toList.all fun c => isWordChar c || c == ' ') = true := by
    rw [hcommand, List.all_append, hplain, List.all_cons, h]
    rfl
  rw [Shell.system, if_pos hall, hcommand, shellWords_append hblank hne hhash, a.main_eq]
  unfold calledWith argument
  match shellWords path.toList with
  | [] => rfl
  | [name] => rfl
  | _ :: _ :: _ => rfl

theorem SpawningAdapter.runTestSuite_eq (a : SpawningAdapter) :
    a.runTestSuite = JsonBenchmarks.runTestSuite a.program := by
  cases a <;> rfl

/-- **What is published of the files**, for an adapter, any of its library's
calls, any shell, and any files with plain paths. -/
theorem runTestSuite_spawned (sh : Shell) (a : SpawningAdapter) (lib : ℕ → a.Library)
    (ifstream : List Char → Option (List Char)) {files : List TestSuiteFile}
    (h : ∀ file ∈ files, PlainPath file.path) :
    a.runTestSuite (fun n => sh.system (a.main (lib n) ifstream)) files
      = files.mapIdx fun i file =>
        published sh file.type (calledWith (a.read (lib i)) ifstream file.path) := by
  rw [a.runTestSuite_eq, runTestSuite_eq_mapIdx, List.mapIdx_eq_mapIdx_iff]
  intro i hi
  rw [system_program sh a (lib i) ifstream (h _ (List.getElem_mem hi)), ladder_relay]

/-! ## What is counted -/

/-- **A library that is spawned**, as the reporter sees it. -/
def SpawningAdapter.implementation (a : SpawningAdapter) (about : ReportedLibrary) (sh : Shell)
    (lib : ℕ → a.Library) (ifstream : List Char → Option (List Char)) : Implementation where
  lib := about
  runTestSuite files :=
    .ok (a.runTestSuite (fun n => sh.system (a.main (lib n) ifstream)) files)
  length_eq files results h := by
    rw [← Except.ok.inj h, a.runTestSuite_eq, runTestSuite_eq_mapIdx, List.length_mapIdx]

section Counts

variable (sh : Shell) (a : SpawningAdapter) (lib : ℕ → a.Library)
  (ifstream : List Char → Option (List Char))

/-- Whether the process for a file accepts it. -/
def SpawningAdapter.accepts (file : TestSuiteFile × ℕ) : Bool :=
  decide (calledWith (a.read (lib file.2)) ifstream file.1.path).Accepts

/-- **The counts of a spawned library**: of each type the files that it accepts
are counted as parsed, all others are counted as stopped, and none as
rejected. -/
structure SpawnedCounts (files : List TestSuiteFile) (results : List ResultCode) : Prop where
  parsed : ∀ type : ExpectedResult, countResults results type.parsed
    = files.zipIdx.countP fun file => decide (file.1.type = type) && a.accepts lib ifstream file
  stopped : countResults results .processStopped
    = files.zipIdx.countP fun file => !a.accepts lib ifstream file
  parsingFailed : countResults results .expectedSuccessParsingFailed = 0 ∧
    countResults results .resultUndefinedParsingFailed = 0

theorem parsed_inj {type type' : ExpectedResult} : type.parsed = type'.parsed ↔ type = type' := by
  cases type <;> cases type' <;> decide

theorem parsed_ne_processStopped (type : ExpectedResult) : type.parsed ≠ .processStopped := by
  cases type <;> decide

variable {sh a lib ifstream} in
/-- They are those of the results, if no process is hung up. -/
theorem spawnedCounts_runTestSuite {files : List TestSuiteFile}
    (hplain : ∀ file ∈ files, PlainPath file.path)
    (hhang : ∀ n stream, ¬ HungUp sh (a.read (lib n) stream)) :
    SpawnedCounts a lib ifstream files
      (a.runTestSuite (fun n => sh.system (a.main (lib n) ifstream)) files) := by
  have hcalled : ∀ n path, ¬ HungUp sh (calledWith (a.read (lib n)) ifstream path) := by
    intro n path
    unfold calledWith
    split
    · exact hhang n _
    · exact fun h => Termination.noConfusion h.2
  have hpublished : ∀ file : TestSuiteFile × ℕ,
      published sh file.1.type (calledWith (a.read (lib file.2)) ifstream file.1.path)
        = if a.accepts lib ifstream file then file.1.type.parsed else .processStopped := by
    intro file
    rw [published, if_neg (hcalled file.2 file.1.path), SpawningAdapter.accepts]
    simp only [decide_eq_true_eq]
  have hcount : ∀ code, countResults
      (a.runTestSuite (fun n => sh.system (a.main (lib n) ifstream)) files) code
        = files.zipIdx.countP fun file =>
          (if a.accepts lib ifstream file then file.1.type.parsed
            else .processStopped) == code := by
    intro code
    rw [runTestSuite_spawned sh a lib ifstream hplain, List.mapIdx_eq_zipIdx_map, countResults,
      List.count, List.countP_map]
    exact congrArg (List.countP · files.zipIdx) (funext fun file =>
      congrArg (· == code) (hpublished file))
  have hnone : ∀ code, (∀ type : ExpectedResult, type.parsed ≠ code) → code ≠ .processStopped →
      countResults (a.runTestSuite (fun n => sh.system (a.main (lib n) ifstream)) files) code
        = 0 := by
    intro code hparsed hstopped
    rw [hcount, List.countP_eq_zero]
    intro file _ heq
    split at heq
    · exact hparsed _ (beq_iff_eq.mp heq)
    · exact hstopped (beq_iff_eq.mp heq).symm
  refine ⟨fun type => ?_, ?_, hnone _ (fun type => ?_) (by decide),
    hnone _ (fun type => ?_) (by decide)⟩
  · rw [hcount]
    refine congrArg (List.countP · files.zipIdx) (funext fun file => ?_)
    cases haccepts : a.accepts lib ifstream file with
    | true =>
      rw [if_pos rfl, Bool.and_true]
      exact decide_eq_decide.mpr parsed_inj
    | false =>
      rw [if_neg Bool.false_ne_true, Bool.and_false]
      exact beq_eq_false_iff_ne.mpr (parsed_ne_processStopped type).symm
  · rw [hcount]
    refine congrArg (List.countP · files.zipIdx) (funext fun file => ?_)
    cases haccepts : a.accepts lib ifstream file with
    | true =>
      rw [if_pos rfl]
      exact beq_eq_false_iff_ne.mpr (parsed_ne_processStopped file.1.type)
    | false => rfl
  · cases type <;> decide
  · cases type <;> decide

/-- **In the reports of `main`** the counts of a spawned library are those of
the files that it accepts. -/
theorem mainReporter_counts_spawned (about : ReportedLibrary)
    (fs : String → Option (List DirEntry)) {implementations : List Implementation} {j : ℕ}
    (hj : implementations[j]? = some (a.implementation about sh lib ifstream)) {v : Visit}
    (hv : v ∈ (mainReporter fs implementations).visits)
    (hplain : ∀ file ∈ v.files, PlainPath file.path)
    (hhang : ∀ n stream, ¬ HungUp sh (a.read (lib n) stream)) :
    ∃ results, v.results[j]? = some results ∧
      SpawnedCounts a lib ifstream v.files results := by
  have hresults : List.Forall₂
      (fun (impl : Implementation) results => impl.runTestSuite v.files = .ok results)
      implementations v.results := by
    rw [visits_mainReporter] at hv
    rcases List.mem_append.mp hv with hv | hv
    · exact ((mem_test_iff v).mp hv).2.2
    · exact ((mem_test_iff v).mp hv).2.2
  obtain ⟨hlt, himpl⟩ := List.getElem?_eq_some_iff.mp hj
  have hlt' : j < v.results.length := hresults.length_eq ▸ hlt
  have hrun := hresults.get hlt hlt'
  rw [List.get_eq_getElem, himpl] at hrun
  refine ⟨v.results[j], List.getElem?_eq_getElem hlt', ?_⟩
  have hrun : _ = v.results[j] := Except.ok.inj hrun
  rw [← hrun]
  exact spawnedCounts_runTestSuite hplain hhang

end Counts

/-- A directory with a file that is not closed. -/
def unclosedDirectory (directory : String) : Option (List DirEntry) :=
  if directory = "data/input/JSON_checker" then
    some [⟨"data/input/JSON_checker/fail2.json", true, .ok 17, some "[\"Unclosed array\"".toList⟩]
  else none

/-- The report on it, with a library that throws. -/
theorem mainReporter_counts_unclosed :
    let ifstream : List Char → Option (List Char) := fun _ => some "[\"Unclosed array\"".toList
    let lib : ℕ → SpawningAdapter.nlohmann.Library := fun _ _ => .threw
    ∃ v ∈ (mainReporter unclosedDirectory
        [SpawningAdapter.nlohmann.implementation nlohmann ⟨true, fun _ => .exited 127⟩ lib
          ifstream]).visits,
      ∃ results, v.results[0]? = some results ∧
        SpawnedCounts .nlohmann lib ifstream v.files results := by
  intro ifstream lib
  have hv : (⟨jsonChecker.filesIn unclosedDirectory, [[.processStopped]]⟩ : Visit)
      ∈ jsonChecker.test unclosedDirectory
        [SpawningAdapter.nlohmann.implementation nlohmann ⟨true, fun _ => .exited 127⟩ lib
          ifstream] := by
    refine (mem_test_iff _).mpr ⟨?_, rfl, List.Forall₂.cons ?_ List.Forall₂.nil⟩
    · intro e he _
      obtain rfl := List.mem_singleton.mp he
      exact ⟨17, rfl⟩
    · exact congrArg Except.ok (by decide +kernel)
  refine ⟨_, by rw [visits_mainReporter]; exact List.mem_append_right _ hv, ?_⟩
  refine mainReporter_counts_spawned ⟨true, fun _ => .exited 127⟩ .nlohmann lib ifstream nlohmann
    unclosedDirectory rfl (by rw [visits_mainReporter]; exact List.mem_append_right _ hv) ?_ ?_
  · have hall : (jsonChecker.filesIn unclosedDirectory).all (fun file =>
        file.path.toList.all fun c => isWordChar c || c == ' ') = true := by decide +kernel
    exact List.all_eq_true.mp hall
  · exact fun _ _ h => Termination.noConfusion h.2

end JsonBenchmarks
