import JsonBenchmarks.BenchmarkReport
import JsonBenchmarks.DriverTrace
import JsonBenchmarks.GeneratorLoops
import JsonBenchmarks.Lifetime
import JsonBenchmarks.ModeOption

/-!
# The program

`main` parses its options, has the test file made, and runs `benchmark()` on
it. Its pieces are those of the other modules: the option that selects the
mode, the generator and its loops, the run of the driver and its report. What
is new here is how they are put together, and what one may conclude for a run
of the whole program from the words of its command line.

The program asserts that the library that counts allocations is preloaded.
Given options, it comes to its end exactly if the file cannot be made, a vector
is refused that has no room for as many values, or all loops of the generator
can reach the bounds that the options give them (`main_ends_iff`). Then the
file, the flags and the name of the report are those that the options ask for,
and an argument that only begins a name asks for nothing at all
(`main_prepares`). It exits successfully exactly if nothing fails on the way
(`main_succeeds_iff`), and then simdjson has printed a document that is gone
(`main_succeeds_unsafe`). All this is said of a machine that has the memory that
the vectors take.
-/

namespace JsonBenchmarks

open CountedLoop JsonEvents

open DataGeneratorMode (KE)

/-! ## The options -/

/-- The number of an enumerator. -/
def DataGeneratorMode.KE.bits : KE → BitVec 64
  | .ints => DataGeneratorMode.ints
  | .floats => DataGeneratorMode.floats
  | .strings => DataGeneratorMode.strings
  | .keywords => DataGeneratorMode.keywords
  | .mixed => DataGeneratorMode.mixed
  | .smallfile => DataGeneratorMode.smallfile
  | .compacted => DataGeneratorMode.compacted

/-- An argument that the validator of the option accepts. -/
abbrev ModeArgument := {s : String // modeValidator s = true}

/-- `kwords`, as they are given. All but the first may be left out. -/
structure Options where
  mode : ModeArgument
  despaced : Option Bool
  numInts : Option (BitVec 64)
  numFloats : Option (BitVec 64)
  numStrings : Option (BitVec 64)
  numKeywords : Option (BitVec 64)
  numRepeats : Option (BitVec 64)

namespace Options

variable (o : Options)

def isDespaced : Bool := o.despaced.getD false

def counts : Counts where
  numInts := o.numInts.getD 5000
  numFloats := o.numFloats.getD 5000
  numStrings := o.numStrings.getD 5000
  numKeywords := o.numKeywords.getD 5000

def repeats : BitVec 64 := o.numRepeats.getD 5000

/-- `flags`. -/
def flags : BitVec 64 :=
  (modeConverter o.mode.1).bits ||| if o.isDespaced then DataGeneratorMode.compacted else 0

/-- `json_flags`, of which `e_json_flags::despaced` is the first bit. -/
def jsonFlags : BitVec 64 := if o.isDespaced then 0 ||| 1 <<< 0 else 0

end Options

/-- What `cmdargs::parse_args` makes of the command line, which is not called
if there are no arguments. -/
inductive CommandLine
  | empty
  | rejected (emsg : String)
  | help
  | version
  | options (o : Options)

/-- `report_fname`. The assertion fails for what is no mode. -/
def reportFname : KE → Option String
  | .ints => some "reports/ints.md"
  | .floats => some "reports/floats.md"
  | .strings => some "reports/strings.md"
  | .keywords => some "reports/keywords.md"
  | .mixed => some "reports/mixed.md"
  | .smallfile => some "reports/smallfile.md"
  | .compacted => none

/-! ## The run -/

/-- What a run finds in the world. -/
structure World where
  /-- `MALLOC_STAT_GET_STAT_FNPTR()` finds a function: the library that counts
  allocations is preloaded. -/
  allocStat : Bool
  /-- `MALLOC_STAT_CHECK_VERSION()`. -/
  allocStatVersion : Bool
  /-- The directory of the test file exists, or is created. -/
  outputDir : Bool
  /-- The test file is created. -/
  canCreate : Bool
  /-- `fs::file_size` of the test file, which is there, can be told. -/
  sized : Bool
  /-- The report is opened. -/
  reportOpens : String → Bool
  /-- What is drawn. -/
  generators : Generators
  /-- The machine. -/
  machine : Machine
  /-- The size of a file, in megabytes. -/
  size : TestFile → NumberText
  /-- The versions of the libraries. -/
  version : Adapter → List Char
  /-- What the calls of the adapters do. -/
  implementations : {xs : List Instance // xs.map Instance.impl = createBenchmarks}

inductive ExitStatus
  | success
  | failure
deriving DecidableEq

/-- What a run leaves that gets through `benchmark()`. A report that was not
opened takes no text. -/
structure Benchmarked where
  testFile : TestFile
  reportFname : String
  report : Option (List Char)
  jsonFlags : BitVec 64
  ok : Bool

/-- How `main` ends. -/
inductive MainRun
  | returned (status : ExitStatus)
  | benchmarked (b : Benchmarked)
  | terminated
  | aborted
  | undefined

/-- The status of the process, if `main` returns. -/
def MainRun.status : MainRun → Option ExitStatus
  | .returned status => some status
  | .benchmarked b => some (if b.ok then .success else .failure)
  | .terminated | .aborted | .undefined => none

/-- The part of `main` behind the test file. -/
def benchmarkTestFile (fuel : ℕ) (o : Options) (w : World) (t : TestFile) : Option MainRun :=
  if w.sized then
    match reportFname (modeConverter o.mode.1) with
    | none => some .aborted
    | some fname => do
      let run ← benchmarkReport fuel w.machine testFileFname (w.size t) w.version
        w.implementations.1 Memory.initial
      return match run with
        | .returned report ok => .benchmarked
            ⟨t, fname, if w.reportOpens fname then some report else none, o.jsonFlags, ok⟩
        | .undefined => .undefined
  else some .terminated

/-- The part of `main` behind the options. No exception is caught here, so one
of the file system or of `make_test_file` ends the process. -/
def runOptions (fuel : ℕ) (o : Options) (w : World) : Option MainRun :=
  if w.outputDir then do
    match ← makeTestFile fuel w.canCreate testFileFname w.generators o.counts o.repeats
        o.flags with
    | .error _ => return .terminated
    | .ok t => benchmarkTestFile fuel o w t
  else some .terminated

/-- **`main`**, with its assertions. -/
def main (fuel : ℕ) (cmdline : CommandLine) (w : World) : Option MainRun :=
  if w.allocStat then
    if w.allocStatVersion then
      match cmdline with
      | .empty => some (.returned .failure)
      | .rejected _ => some (.returned .failure)
      | .help => some (.returned .success)
      | .version => some (.returned .success)
      | .options o => runOptions fuel o w
    else some .aborted
  else some .aborted

/-! ## What the options ask for -/

namespace Options

/-- A kind of values is asked for by its name, or by the name of the mode that
has all of them. -/
def Asks (o : Options) (name : String) : Prop := o.mode.1 = name ∨ o.mode.1 = "mixed"

instance (o : Options) (name : String) : Decidable (o.Asks name) :=
  inferInstanceAs (Decidable (_ ∨ _))

/-- The number of values that are asked for. -/
def asked (o : Options) (name : String) (num : BitVec 64) : ℕ :=
  if o.Asks name then num.toNat else 0

/-- **Every loop can reach its bound.** -/
structure Reachable (o : Options) : Prop where
  strings : o.asked "strings" o.counts.numStrings < 2 ^ 32
  floats : o.asked "floats" o.counts.numFloats < 2 ^ 32
  ints : o.asked "ints" o.counts.numInts < 2 ^ 32
  keywords : o.asked "keywords" o.counts.numKeywords < 2 ^ 32
  repeats : o.repeats.toNat ≤ 2 ^ 32 - 2

/-- **A vector cannot have as many values as are asked for**, and all loops
before it can reach their bounds. There is no such vector of strings, for which
nothing is reserved. -/
def Overflows (o : Options) : Prop :=
  o.asked "strings" o.counts.numStrings < 2 ^ 32 ∧
    (2 ^ 60 ≤ o.asked "floats" o.counts.numFloats ∨
      o.asked "floats" o.counts.numFloats < 2 ^ 32 ∧
        (2 ^ 60 ≤ o.asked "ints" o.counts.numInts ∨
          o.asked "ints" o.counts.numInts < 2 ^ 32 ∧
            2 ^ 63 ≤ o.asked "keywords" o.counts.numKeywords))

/-- The mode that the report is named after. -/
def modeName (o : Options) : String := if o.mode.1 ∈ modeNames then o.mode.1 else "smallfile"

end Options

/-- The modes that the converter tells by their names. -/
theorem modeConverter_eq_iff {e : KE} (he : e ≠ .smallfile ∧ e ≠ .compacted) (s : String) :
    modeConverter s = e ↔ s = e.print := by
  constructor
  · intro h
    unfold modeConverter at h
    split_ifs at h with hints hfloats hstrings hkeywords hmixed
    · exact h ▸ hints
    · exact h ▸ hfloats
    · exact h ▸ hstrings
    · exact h ▸ hkeywords
    · exact h ▸ hmixed
    · exact absurd h.symm he.1
  · rintro rfl
    cases e with
    | smallfile => exact absurd rfl he.1
    | compacted => exact absurd rfl he.2
    | _ => rfl

/-- No argument is stored as the bit that is added to a mode. -/
theorem modeConverter_ne_compacted (s : String) : modeConverter s ≠ .compacted := by
  unfold modeConverter
  repeat' split
  all_goals decide

/-- **The bits that select a kind are those of a mode whose name asks for it.** -/
theorem selected_flags_iff (o : Options) {e : KE}
    (he : e ≠ .mixed ∧ e ≠ .smallfile ∧ e ≠ .compacted) :
    Selected o.flags e.bits ↔ o.Asks e.print := by
  have hbits : ∀ (mode : KE) (c : Bool),
      Selected (mode.bits ||| if c then DataGeneratorMode.compacted else 0) e.bits
        ↔ mode = e ∨ mode = .mixed := by
    intro mode c
    cases e with
    | mixed => exact absurd rfl he.1
    | smallfile => exact absurd rfl he.2.1
    | compacted => exact absurd rfl he.2.2
    | _ => cases mode <;> cases c <;> decide
  have hmixed : modeConverter o.mode.1 = .mixed ↔ o.mode.1 = "mixed" :=
    modeConverter_eq_iff ⟨by decide, by decide⟩ _
  unfold Options.flags Options.Asks
  rw [hbits, modeConverter_eq_iff he.2, hmixed]

/-- The values that are drawn are those that are asked for. -/
theorem length_drawn_flags {α : Type} (o : Options) {e : KE}
    (he : e ≠ .mixed ∧ e ≠ .smallfile ∧ e ≠ .compacted) (num : BitVec 64) (draw : ℕ → α) :
    (drawn o.flags e.bits num draw).length = o.asked e.print num := by
  unfold Options.asked
  by_cases h : o.Asks e.print
  · rw [if_pos h, length_drawn ((selected_flags_iff o he).mpr h)]
  · rw [if_neg h, drawn, if_neg (fun hsel => h ((selected_flags_iff o he).mp hsel))]
    rfl

/-- A bound is within the range of the counter if its kind is asked for. -/
theorem asked_lt_iff (o : Options) {e : KE}
    (he : e ≠ .mixed ∧ e ≠ .smallfile ∧ e ≠ .compacted) (num : BitVec 64) :
    o.asked e.print num < 2 ^ 32 ↔ (Selected o.flags e.bits → num.toNat < 2 ^ 32) := by
  unfold Options.asked
  rw [selected_flags_iff o he]
  split
  · exact (true_imp_iff.symm.trans (imp_congr_left (iff_of_true trivial ‹_›)))
  · exact iff_of_true (by decide) fun h => absurd h ‹_›

/-! ## The test file -/

/-- The bounds that can be reached, by the bits. -/
theorem reachable_iff (o : Options) : o.Reachable ↔ Reachable o.counts o.repeats o.flags := by
  have hstrings := asked_lt_iff o (e := .strings) (by decide) o.counts.numStrings
  have hfloats := asked_lt_iff o (e := .floats) (by decide) o.counts.numFloats
  have hints := asked_lt_iff o (e := .ints) (by decide) o.counts.numInts
  have hkeywords := asked_lt_iff o (e := .keywords) (by decide) o.counts.numKeywords
  constructor
  · intro h
    exact ⟨hstrings.mp h.strings, hfloats.mp h.floats, hints.mp h.ints, hkeywords.mp h.keywords,
      h.repeats⟩
  · rintro ⟨h₁, h₂, h₃, h₄, hrepeats⟩
    exact ⟨hstrings.mpr h₁, hfloats.mpr h₂, hints.mpr h₃, hkeywords.mpr h₄, hrepeats⟩

/-- A vector is refused if its kind is asked for too often. -/
theorem refused_flags_iff (o : Options) {e : KE}
    (he : e ≠ .mixed ∧ e ≠ .smallfile ∧ e ≠ .compacted) {bytes n : ℕ} (num : BitVec 64)
    (hn : n = maxSize bytes + 1) :
    n ≤ o.asked e.print num ↔ Refused o.flags e.bits bytes num := by
  unfold Options.asked Refused
  rw [selected_flags_iff o he, hn, Nat.succ_le_iff]
  split
  · exact (and_iff_right ‹_›).symm
  · exact iff_of_false (Nat.not_lt_zero _) fun h => absurd h.1 ‹_›

/-- The vectors that are refused, by the bits. -/
theorem overflows_iff (o : Options) : o.Overflows ↔ Overflows o.counts o.flags := by
  have hstrings := asked_lt_iff o (e := .strings) (by decide) o.counts.numStrings
  have hfloats := asked_lt_iff o (e := .floats) (by decide) o.counts.numFloats
  have hints := asked_lt_iff o (e := .ints) (by decide) o.counts.numInts
  have hdoubles := refused_flags_iff o (e := .floats) (by decide) o.counts.numFloats
    (show 2 ^ 60 = maxSize 8 + 1 by decide)
  have hintegers := refused_flags_iff o (e := .ints) (by decide) o.counts.numInts
    (show 2 ^ 60 = maxSize 8 + 1 by decide)
  have hkeywords := refused_flags_iff o (e := .keywords) (by decide) o.counts.numKeywords
    (show 2 ^ 63 = maxSize 1 + 1 by decide)
  exact and_congr hstrings (or_congr hdoubles (and_congr hfloats
    (or_congr hintegers (and_congr hints hkeywords))))

/-- A vector that is refused has a loop that cannot reach its bound. -/
theorem not_reachable_of_overflows {o : Options} (h : o.Overflows) : ¬ o.Reachable := by
  intro hreachable
  have hlt : (2 : ℕ) ^ 32 < 2 ^ 60 := by decide
  rcases h with ⟨-, hfloats | ⟨-, hints | ⟨-, hkeywords⟩⟩⟩
  · exact absurd (hlt.trans_le hfloats) hreachable.floats.le.not_gt
  · exact absurd (hlt.trans_le hints) hreachable.ints.le.not_gt
  · exact absurd ((hlt.trans (by decide)).trans_le hkeywords) hreachable.keywords.le.not_gt

/-- The file that the options ask for. -/
def Options.testFile (o : Options) (g : Generators) : TestFile where
  compacted := o.flags &&& DataGeneratorMode.compacted != 0
  firstLoop := JsonTree.eventsList (List.replicate (iterations 2#32 o.repeats.toNat)
    (firstTree (drawnValues g o.counts o.flags)))
  secondLoop := JsonTree.eventsList (List.replicate (iterations 2#32 o.repeats.toNat) secondTree)

/-- **What `make_test_file` does if it ends.** -/
theorem makeTestFile_options {fuel : ℕ} {filename : String} {g : Generators} {o : Options}
    {r : Except String TestFile}
    (h : makeTestFile fuel true filename g o.counts o.repeats o.flags = some r) :
    o.Overflows ∧ r = .error "vector::reserve" ∨ o.Reachable ∧ r = .ok (o.testFile g) := by
  cases r with
  | error what =>
    obtain ⟨hoverflows, rfl⟩ := (exists_generate_eq_error_iff g o.counts o.flags what).mp
      ⟨fuel, makeTestFile_eq_error_iff.mp h⟩
    exact Or.inl ⟨(overflows_iff o).mpr hoverflows, rfl⟩
  | ok t =>
    obtain ⟨v, hv, ht⟩ := makeTestFile_eq_ok_iff.mp h
    obtain ⟨⟨hss, hds, his, hks⟩, rfl⟩ := generate_eq_ok_iff.mp hv
    have hrecords := (exists_writeRecords_iff fuel _ _ _).mp ⟨t, ht⟩
    refine Or.inr ⟨(reachable_iff o).mpr ⟨fun h => (hss h).1, fun h => (hds h).1,
      fun h => (his h).1, fun h => (hks h).1, hrecords.1⟩, congrArg Except.ok ?_⟩
    obtain ⟨hfirst, hsecond⟩ := writeRecords_eq_some ht
    obtain ⟨first, -, ht⟩ := Option.bind_eq_some_iff.mp ht
    obtain ⟨second, -, ht⟩ := Option.bind_eq_some_iff.mp ht
    obtain rfl := Option.some.inj ht
    exact congrArg₂ (TestFile.mk _) hfirst hsecond

/-- **It makes the file if every bound can be reached**, given time. -/
theorem exists_makeTestFile {o : Options} (h : o.Reachable) (filename : String) (g : Generators)
    {fuel : ℕ} (hfuel : 2 ^ 32 ≤ fuel) :
    makeTestFile fuel true filename g o.counts o.repeats o.flags = some (.ok (o.testFile g)) := by
  obtain ⟨-, t, hmake⟩ := exists_makeTestFile_of_reachable ((reachable_iff o).mp h) filename g hfuel
  rcases makeTestFile_options hmake with ⟨-, herror⟩ | ⟨-, hfile⟩
  · exact nomatch herror
  · rw [hmake, hfile]

/-- **An argument that is not the name of a mode is stored as `smallfile`.** -/
theorem print_modeConverter (s : String) :
    (modeConverter s).print = if s ∈ modeNames then s else "smallfile" := by
  split
  · exact (print_modeConverter_eq_iff s).mpr ‹_›
  · have hname : ¬ (modeConverter s).print = s :=
      fun h => absurd ((print_modeConverter_eq_iff s).mp h) ‹_›
    by_cases he : modeConverter s ≠ .smallfile
    · have hs := (modeConverter_eq_iff ⟨he, modeConverter_ne_compacted s⟩ s).mp rfl
      exact absurd hs.symm hname
    · rw [not_not.mp he]
      rfl

/-- The name of the report. -/
theorem reportFname_modeConverter (o : Options) :
    reportFname (modeConverter o.mode.1) = some ("reports/" ++ o.modeName ++ ".md") := by
  have hfname : ∀ e, e ≠ KE.compacted →
      reportFname e = some ("reports/" ++ e.print ++ ".md") := by
    intro e he
    cases e with
    | compacted => exact absurd rfl he
    | _ => decide
  rw [hfname _ (modeConverter_ne_compacted _), print_modeConverter, Options.modeName]

/-! ## The run behind the test file -/

/-- No text is told of a machine whose system is not known. -/
theorem insertAll_undefined {machine : Machine} (hos : machine.os = .undefined)
    (size : NumberText) (version : Adapter → List Char) (implementations : List Adapter) :
    insertAll (machine.insertions size version implementations) = .undefined := by
  unfold Machine.insertions headerInsertions
  rw [hos, List.append_assoc, insertAll_append]
  rfl

/-- **Behind the test file** the run comes to its end, given time, and how it
ends depends on the machine and on what the adapters do. -/
theorem exists_benchmarkTestFile (o : Options) {w : World} (hsized : w.sized = true)
    (t : TestFile) :
    ∃ fuel r, (∀ fuel' ≥ fuel, benchmarkTestFile fuel' o w t = some r) ∧
      (w.machine.os = .undefined ∧ r = .undefined ∨
        w.machine.os ≠ .undefined ∧ ∃ b, r = .benchmarked b ∧
          (b.ok = true ↔ w.machine.os ≠ .throws ∧
            (benchmark w.implementations.1 Memory.initial).ok = true)) := by
  obtain ⟨fuel, hrun⟩ := exists_benchmarkReport w.machine (w.size t) w.version
    w.implementations.1 Memory.initial
  by_cases hos : w.machine.os = .undefined
  · refine ⟨fuel, .undefined, fun fuel' hle => ?_, Or.inl ⟨hos, rfl⟩⟩
    rw [benchmarkTestFile, if_pos hsized, reportFname_modeConverter, hrun fuel' hle,
      insertAll_undefined hos]
    rfl
  · obtain ⟨text, hinsert, -⟩ := exists_insertAll hos (w.size t) w.version
      (w.implementations.1.map Instance.impl)
    rw [hinsert] at hrun
    let b (ok : Bool) (report : List Char) : Benchmarked :=
      let fname := "reports/" ++ o.modeName ++ ".md"
      ⟨t, fname, if w.reportOpens fname then some report else none, o.jsonFlags, ok⟩
    by_cases hthrows : w.machine.os = .throws
    · rw [if_pos hthrows] at hrun
      refine ⟨fuel, .benchmarked (b false text), fun fuel' hle => ?_, Or.inr ⟨hos, _, rfl,
        iff_of_false Bool.false_ne_true fun h => h.1 hthrows⟩⟩
      rw [benchmarkTestFile, if_pos hsized, reportFname_modeConverter, hrun fuel' hle]
      rfl
    · let run := benchmark w.implementations.1 Memory.initial
      rw [if_neg hthrows] at hrun
      refine ⟨fuel, .benchmarked (b run.ok (if run.ok then text ++ ['\n'] else text)),
        fun fuel' hle => ?_, Or.inr ⟨hos, _, rfl, (and_iff_right hthrows).symm⟩⟩
      rw [benchmarkTestFile, if_pos hsized, reportFname_modeConverter, hrun fuel' hle]
      rfl

/-- The number of values in an array among the favorites of a record. -/
def HasValues (r : Json) (name : String) (n : ℕ) : Prop :=
  ∃ ss, favorite r name = some (scalars ss) ∧ ss.length = n

/-- **A run prepares what its options ask for.** -/
structure Prepares (o : Options) (b : Benchmarked) : Prop where
  encoder : b.testFile.compacted = o.isDespaced
  jsonFlags : b.jsonFlags ≠ 0 ↔ o.isDespaced = true
  reportFname : b.reportFname = "reports/" ++ o.modeName ++ ".md"
  records : ∃ first, denote b.testFile.events = some (.array
      (List.replicate ((o.repeats.toNat + 1) / 2) first
        ++ List.replicate ((o.repeats.toNat + 1) / 2) secondTree)) ∧
    HasValues first "big_text" (o.asked "strings" o.counts.numStrings) ∧
    HasValues first "integer_values" (o.asked "ints" o.counts.numInts) ∧
    HasValues first "double_values" (o.asked "floats" o.counts.numFloats) ∧
    HasValues first "keywords_values" (o.asked "keywords" o.counts.numKeywords)

/-- The first records have as many values as are asked for. -/
theorem hasValues_firstTree (o : Options) (g : Generators) :
    let first := firstTree (drawnValues g o.counts o.flags)
    HasValues first "big_text" (o.asked "strings" o.counts.numStrings) ∧
      HasValues first "integer_values" (o.asked "ints" o.counts.numInts) ∧
      HasValues first "double_values" (o.asked "floats" o.counts.numFloats) ∧
      HasValues first "keywords_values" (o.asked "keywords" o.counts.numKeywords) := by
  refine ⟨⟨_, rfl, ?_⟩, ⟨_, rfl, ?_⟩, ⟨_, rfl, ?_⟩, ⟨_, rfl, ?_⟩⟩
  · rw [List.length_map]
    exact length_drawn_flags o (e := .strings) (by decide) _ _
  · rw [List.length_map]
    exact length_drawn_flags o (e := .ints) (by decide) _ _
  · rw [List.length_map]
    exact length_drawn_flags o (e := .floats) (by decide) _ _
  · rw [flatMap_keywordScalars, List.length_map]
    exact length_drawn_flags o (e := .keywords) (by decide) _ _

/-- The document of the file that the options ask for. -/
theorem denote_testFile (o : Options) (g : Generators) :
    denote (o.testFile g).events = some (.array
      (List.replicate ((o.repeats.toNat + 1) / 2) (firstTree (drawnValues g o.counts o.flags))
        ++ List.replicate ((o.repeats.toNat + 1) / 2) secondTree)) := by
  rw [TestFile.events, Options.testFile, List.append_assoc [_], ← JsonTree.eventsList_append]
  refine denote_array (fun r hr => ?_)
  rcases List.mem_append.mp hr with hr | hr
  · rw [List.eq_of_mem_replicate hr]
    exact nodupKeys_firstTree _
  · rw [List.eq_of_mem_replicate hr]
    exact nodupKeys_secondTree

/-- The bit for the compact encoder is the flag that is given. -/
theorem compacted_flags (o : Options) :
    (o.flags &&& DataGeneratorMode.compacted != 0) = o.isDespaced := by
  have hbits : ∀ (mode : KE) (c : Bool), mode ≠ .compacted →
      ((mode.bits ||| if c then DataGeneratorMode.compacted else 0)
        &&& DataGeneratorMode.compacted != 0) = c := by
    intro mode c h
    cases mode with
    | compacted => exact absurd rfl h
    | _ => cases c <;> decide
  exact hbits _ _ (modeConverter_ne_compacted _)

/-- More time changes nothing about it. -/
theorem benchmarkTestFile_mono {o : Options} {w : World} {t : TestFile} {fuel fuel' : ℕ}
    {r : MainRun} (h : benchmarkTestFile fuel o w t = some r) (hle : fuel ≤ fuel') :
    benchmarkTestFile fuel' o w t = some r := by
  unfold benchmarkTestFile at h ⊢
  split at h
  · rw [if_pos ‹_›, reportFname_modeConverter]
    rw [reportFname_modeConverter] at h
    obtain ⟨run, hrun, h⟩ := Option.bind_eq_some_iff.mp h
    exact Option.bind_eq_some_iff.mpr ⟨run, benchmarkReport_mono hrun hle, h⟩
  · rw [if_neg ‹_›]
    exact h

/-- What the run keeps of the options. -/
theorem benchmarkTestFile_benchmarked {fuel : ℕ} {o : Options} {w : World} {t : TestFile}
    {b : Benchmarked} (h : benchmarkTestFile fuel o w t = some (.benchmarked b)) :
    b.testFile = t ∧ b.reportFname = "reports/" ++ o.modeName ++ ".md" ∧
      b.jsonFlags = o.jsonFlags ∧ b.report.isSome = w.reportOpens b.reportFname := by
  unfold benchmarkTestFile at h
  split at h
  · rw [reportFname_modeConverter] at h
    obtain ⟨run, -, h⟩ := Option.bind_eq_some_iff.mp h
    cases run with
    | returned report ok =>
      obtain rfl := MainRun.benchmarked.inj (Option.some.inj h)
      refine ⟨rfl, rfl, rfl, ?_⟩
      dsimp only
      cases w.reportOpens ("reports/" ++ o.modeName ++ ".md") <;> rfl
    | undefined => exact nomatch Option.some.inj h
  · exact nomatch Option.some.inj h

/-! ## What a run of the program does -/

/-- What is there where values begin to be drawn. -/
structure World.Ready (w : World) : Prop where
  allocStat : w.allocStat = true
  allocStatVersion : w.allocStatVersion = true
  outputDir : w.outputDir = true
  canCreate : w.canCreate = true

/-- A program whose assertions hold. -/
theorem main_of_allocStat {w : World} (h : w.allocStat = true ∧ w.allocStatVersion = true)
    (fuel : ℕ) (o : Options) : main fuel (.options o) w = runOptions fuel o w := by
  rw [main, if_pos h.1, if_pos h.2]

/-- **A run with options** whose values are drawn. -/
theorem main_options {w : World} (hw : w.Ready) {fuel : ℕ} {o : Options} {r : MainRun}
    (h : main fuel (.options o) w = some r) :
    o.Overflows ∧ r = .terminated ∨
      o.Reachable ∧ benchmarkTestFile fuel o w (o.testFile w.generators) = some r := by
  rw [main_of_allocStat ⟨hw.allocStat, hw.allocStatVersion⟩, runOptions, if_pos hw.outputDir,
    hw.canCreate] at h
  obtain ⟨made, hmade, h⟩ := Option.bind_eq_some_iff.mp h
  rcases makeTestFile_options hmade with ⟨hoverflows, rfl⟩ | ⟨hreachable, rfl⟩
  · exact Or.inl ⟨hoverflows, (Option.some.inj h).symm⟩
  · exact Or.inr ⟨hreachable, h⟩

/-- Conversely, the run ends, given time, if every bound can be reached, and it
gets through `benchmark()` if the system can be told. -/
theorem exists_main_options {w : World} (hw : w.Ready) {o : Options} (h : o.Reachable) :
    ∃ fuel r, main fuel (.options o) w = some r ∧
      (w.sized = true → w.machine.os ≠ .undefined → ∃ b, r = .benchmarked b) := by
  have hrun : ∀ fuel ≥ 2 ^ 32, main fuel (.options o) w
      = benchmarkTestFile fuel o w (o.testFile w.generators) := by
    intro fuel hfuel
    rw [main_of_allocStat ⟨hw.allocStat, hw.allocStatVersion⟩, runOptions, if_pos hw.outputDir,
      hw.canCreate, exists_makeTestFile h _ _ hfuel]
    rfl
  by_cases hsized : w.sized = true
  · obtain ⟨fuel, r, hall, hend⟩ := exists_benchmarkTestFile o hsized (o.testFile w.generators)
    refine ⟨max fuel (2 ^ 32), r, ?_, fun _ hos => ?_⟩
    · rw [hrun _ (le_max_right fuel _)]
      exact hall _ (le_max_left fuel _)
    · rcases hend with ⟨hundefined, -⟩ | ⟨-, b, hb, -⟩
      · exact absurd hundefined hos
      · exact ⟨b, hb⟩
  · refine ⟨2 ^ 32, .terminated, ?_, fun h => absurd h hsized⟩
    rw [hrun _ le_rfl, benchmarkTestFile, if_neg hsized]

/-- It ends by an exception if a vector is refused. -/
theorem exists_main_overflows {w : World} (hw : w.Ready) {o : Options} (h : o.Overflows) :
    ∃ fuel, main fuel (.options o) w = some .terminated := by
  obtain ⟨fuel, hgenerate⟩ := (exists_generate_eq_error_iff w.generators o.counts o.flags
    "vector::reserve").mpr ⟨(overflows_iff o).mp h, rfl⟩
  refine ⟨fuel, ?_⟩
  rw [main_of_allocStat ⟨hw.allocStat, hw.allocStatVersion⟩, runOptions, if_pos hw.outputDir,
    hw.canCreate, makeTestFile_eq_error_iff.mpr hgenerate]
  rfl

/-- A run with options that does not get so far is aborted or terminated. -/
theorem exists_main_not_ready {w : World} (hw : ¬ w.Ready) (o : Options) :
    ∃ r : MainRun, r.status = none ∧ ∀ fuel, main fuel (.options o) w = some r := by
  by_cases hstat : w.allocStat = true ∧ w.allocStatVersion = true
  · refine ⟨.terminated, rfl, fun fuel => ?_⟩
    rw [main_of_allocStat hstat, runOptions]
    split
    · have hcreate : w.canCreate = false :=
        Bool.eq_false_iff.mpr fun h => hw ⟨hstat.1, hstat.2, ‹_›, h⟩
      rw [hcreate]
      rfl
    · rfl
  · refine ⟨.aborted, rfl, fun fuel => ?_⟩
    rw [main]
    split
    · rw [if_neg fun h => hstat ⟨‹_›, h⟩]
    · rfl

/-- **The program comes to its end exactly if the test file cannot be made, a
vector is refused, or every loop of the generator can reach its bound**, for
every command line and every world. -/
theorem main_ends_iff (cmdline : CommandLine) (w : World) :
    (∃ fuel r, main fuel cmdline w = some r) ↔
      ∀ o, cmdline = .options o → w.Ready → o.Overflows ∨ o.Reachable := by
  cases cmdline with
  | options o =>
    simp only [CommandLine.options.injEq, forall_eq']
    constructor
    · rintro ⟨fuel, r, h⟩ hw
      exact (main_options hw h).imp And.left And.left
    · intro h
      by_cases hw : w.Ready
      · rcases h hw with hoverflows | hreachable
        · obtain ⟨fuel, hrun⟩ := exists_main_overflows hw hoverflows
          exact ⟨fuel, _, hrun⟩
        · obtain ⟨fuel, r, hrun, -⟩ := exists_main_options hw hreachable
          exact ⟨fuel, r, hrun⟩
      · obtain ⟨r, -, hrun⟩ := exists_main_not_ready hw o
        exact ⟨0, r, hrun 0⟩
  | _ =>
    refine iff_of_true ?_ fun o h => nomatch h
    unfold main
    split
    · split <;> exact ⟨0, _, rfl⟩
    · exact ⟨0, _, rfl⟩

/-- A run that gets through `benchmark()` had its file made. -/
theorem main_benchmarked {fuel : ℕ} {cmdline : CommandLine} {w : World} {b : Benchmarked}
    (h : main fuel cmdline w = some (.benchmarked b)) :
    ∃ o, cmdline = .options o ∧
      benchmarkTestFile fuel o w (o.testFile w.generators) = some (.benchmarked b) := by
  cases cmdline with
  | options o =>
    by_cases hw : w.Ready
    · rcases main_options hw h with ⟨-, hr⟩ | ⟨-, hrun⟩
      · exact nomatch hr
      · exact ⟨o, rfl, hrun⟩
    · obtain ⟨r, hr, hrun⟩ := exists_main_not_ready hw o
      obtain rfl := Option.some.inj ((hrun fuel).symm.trans h)
      exact nomatch hr
  | _ =>
    unfold main at h
    split at h
    · split at h <;> exact nomatch Option.some.inj h
    · exact nomatch Option.some.inj h

/-- **A run that gets through `benchmark()` prepares what its options ask for**,
whatever the world is like: the file says so with either encoder, the adapters
are told which it is, and the report is written if its file is opened. -/
theorem main_prepares (fuel : ℕ) (cmdline : CommandLine) (w : World) (b : Benchmarked)
    (h : main fuel cmdline w = some (.benchmarked b)) :
    ∃ o, cmdline = .options o ∧ Prepares o b ∧
      b.report.isSome = w.reportOpens b.reportFname := by
  obtain ⟨o, ho, hrun⟩ := main_benchmarked h
  obtain ⟨htestFile, hfname, hflags, hreport⟩ := benchmarkTestFile_benchmarked hrun
  refine ⟨o, ho, ⟨?_, ?_, hfname, ?_⟩, hreport⟩
  · rw [htestFile]
    exact compacted_flags o
  · rw [hflags, Options.jsonFlags]
    cases o.isDespaced <;> decide
  · rw [htestFile]
    exact ⟨_, denote_testFile o w.generators, hasValues_firstTree o w.generators⟩

/-- One integer, for two records, with the compact encoder. -/
def Options.oneInt : Options :=
  ⟨⟨"ints", modeValidator_of_mem (by decide)⟩, some true, some 1, none, none, none, some 2⟩

/-- A world in which nothing fails but the report cannot be opened. -/
def World.quiet : World where
  allocStat := true
  allocStatVersion := true
  outputDir := true
  canCreate := true
  sized := true
  reportOpens := fun _ => false
  generators := ⟨fun _ => 0, fun _ => 7, fun _ => 2⟩
  machine := ⟨none, none, none, none, ⟨4, 4096, by decide⟩, true, "g++-13.2.0".toList⟩
  size := fun _ => ⟨"0.1".toList, by decide⟩
  version := fun _ => "1.0".toList
  implementations := ⟨createBenchmarks.map
    (⟨·, .ok (), .ok (), .ok (true, ""), .ok (true, ""), .ok ()⟩), rfl⟩

theorem ready_quiet : World.quiet.Ready := ⟨rfl, rfl, rfl, rfl⟩

theorem reachable_oneInt : Options.oneInt.Reachable :=
  ⟨by decide, by decide, by decide, by decide, by decide⟩

/-- What it prepares. -/
theorem main_prepares_oneInt :
    ∃ fuel b o, main fuel (.options .oneInt) .quiet = some (.benchmarked b) ∧
      CommandLine.options .oneInt = .options o ∧ Prepares o b ∧
      b.report.isSome = World.quiet.reportOpens b.reportFname := by
  obtain ⟨fuel, r, h, hr⟩ := exists_main_options ready_quiet reachable_oneInt
  obtain ⟨b, rfl⟩ := hr rfl (by decide)
  obtain ⟨o, ho, hprepares, hreport⟩ := main_prepares fuel (.options .oneInt) .quiet b h
  exact ⟨fuel, b, o, h, ho, hprepares, hreport⟩

/-- When a run with options succeeds whose values are drawn. -/
theorem success_main_options_iff {w : World} (hw : w.Ready) {fuel : ℕ} {o : Options}
    {r : MainRun} (h : main fuel (.options o) w = some r) :
    r.status = some .success ↔ o.Reachable ∧ w.sized = true ∧
      (∃ os, w.machine.os = .returns os) ∧ ∀ x ∈ w.implementations.1, x.completes = true := by
  rcases main_options hw h with ⟨hoverflows, rfl⟩ | ⟨hreachable, hrun⟩
  · exact iff_of_false (fun h => nomatch h) fun h => not_reachable_of_overflows hoverflows h.1
  by_cases hsized : w.sized = true
  · obtain ⟨fuel', r', hall, hend⟩ := exists_benchmarkTestFile o hsized (o.testFile w.generators)
    have hsame := benchmarkTestFile_mono hrun (le_max_left fuel fuel')
    obtain rfl := Option.some.inj (hsame.symm.trans (hall _ (le_max_right fuel fuel')))
    rw [← ok_benchmarkFrom_iff 0 _ Memory.initial, and_iff_right hreachable, and_iff_right hsized]
    rcases hend with ⟨hos, rfl⟩ | ⟨hos, b, rfl, hok⟩
    · exact iff_of_false (fun h => nomatch h) fun h => nomatch hos.symm.trans h.1.choose_spec
    · have hreturns : w.machine.os ≠ .throws ↔ ∃ os, w.machine.os = .returns os := by
        cases hcase : w.machine.os with
        | returns os => exact iff_of_true (fun h => nomatch h) ⟨os, rfl⟩
        | throws => exact iff_of_false (fun h => h rfl) fun h => nomatch h.choose_spec
        | undefined => exact absurd hcase hos
      have hstatus : (MainRun.benchmarked b).status = some .success ↔ b.ok = true := by
        show some (if b.ok then ExitStatus.success else .failure) = _ ↔ _
        cases b.ok <;> decide
      rw [hstatus, hok, hreturns]
      rfl
  · rw [benchmarkTestFile, if_neg hsized] at hrun
    obtain rfl := Option.some.inj hrun
    exact iff_of_false (fun h => nomatch h) fun h => hsized h.2.1

/-- **The program exits successfully exactly if its assertions hold, and it is
asked for help or its version, or nothing fails**: the test file is made, all of
its loops end, the system is told, and every call of every adapter returns and
succeeds. Whether the report is written does not matter. -/
theorem main_succeeds_iff (cmdline : CommandLine) (w : World) :
    (∃ fuel r, main fuel cmdline w = some r ∧ r.status = some .success) ↔
      w.allocStat = true ∧ w.allocStatVersion = true ∧
        (cmdline = .help ∨ cmdline = .version ∨ ∃ o, cmdline = .options o ∧
          w.outputDir = true ∧ w.canCreate = true ∧ o.Reachable ∧ w.sized = true ∧
          (∃ os, w.machine.os = .returns os) ∧
            ∀ x ∈ w.implementations.1, x.completes = true) := by
  by_cases hstat : w.allocStat = true ∧ w.allocStatVersion = true
  · rw [and_iff_right hstat.1, and_iff_right hstat.2]
    have hmain : ∀ fuel, main fuel cmdline w = match cmdline with
        | .empty => some (.returned .failure)
        | .rejected _ => some (.returned .failure)
        | .help => some (.returned .success)
        | .version => some (.returned .success)
        | .options o => runOptions fuel o w := fun fuel => by
      rw [main.eq_def, if_pos hstat.1, if_pos hstat.2]
    cases cmdline with
    | empty | rejected =>
      refine iff_of_false ?_ (by simp)
      rintro ⟨fuel, r, h, hr⟩
      obtain rfl := Option.some.inj ((hmain fuel).symm.trans h)
      exact nomatch hr
    | help | version => exact iff_of_true ⟨0, _, hmain 0, rfl⟩ (by simp)
    | options o =>
      simp only [reduceCtorEq, CommandLine.options.injEq, false_or, exists_eq_left']
      constructor
      · rintro ⟨fuel, r, h, hr⟩
        by_cases hw : w.Ready
        · exact ⟨hw.outputDir, hw.canCreate, (success_main_options_iff hw h).mp hr⟩
        · obtain ⟨r', hr', hrun⟩ := exists_main_not_ready hw o
          obtain rfl := Option.some.inj ((hrun fuel).symm.trans h)
          exact nomatch hr'.symm.trans hr
      · rintro ⟨hdir, hcreate, hsuccess⟩
        have hw : w.Ready := ⟨hstat.1, hstat.2, hdir, hcreate⟩
        obtain ⟨fuel, r, h, -⟩ := exists_main_options hw hsuccess.1
        exact ⟨fuel, r, h, (success_main_options_iff hw h).mpr hsuccess⟩
  · refine iff_of_false ?_ fun h => hstat ⟨h.1, h.2.1⟩
    rintro ⟨fuel, r, h, hr⟩
    have haborted : main fuel cmdline w = some .aborted := by
      rw [main.eq_def]
      split
      · rw [if_neg fun h => hstat ⟨‹_›, h⟩]
      · rfl
    obtain rfl := Option.some.inj (haborted.symm.trans h)
    exact nomatch hr

/-! ## What a successful run does -/

/-- **Which calls are safe**: all but those that use a document of simdjson. -/
theorem safe_call_iff (i : ℕ) (xs : List Instance) (m : Memory) :
    ∀ c ∈ (benchmarkFrom i xs m).calls,
      c.Safe ↔ ¬ (c.impl = .simdjson ∧ (c.method = .print ∨ c.method = .finish)) := by
  have hone : ∀ (i : ℕ) (x : Instance) (m : Memory), ∀ c ∈ (benchmarkOne i x m).calls,
      c.Safe ↔ ¬ (c.impl = .simdjson ∧ (c.method = .print ∨ c.method = .finish)) := by
    intro i x m
    rcases benchmarkOne_cases i x m with ⟨-, hr⟩ | ⟨-, -, hr⟩ | ⟨-, -, hr⟩ | ⟨h, -, hr⟩ | ⟨h, hr⟩
    · rw [hr]; simp
    · rw [hr]; simp [Instance.call, Call.Safe]
    · rw [hr]; simp [Instance.call, Call.Safe]
    -- `print()` is called, and finds the handle that `parse()` leaves
    · have hback := x.backed_parses_iff m h
      rw [hr]; simp [Instance.call, Call.Safe, hback]
    · have hback := x.backed_parses_iff m (Bool.and_eq_true_iff.mp h).1
      rw [hr]; simp [Instance.call, Call.Safe, hback]
  induction xs generalizing i m with
  | nil => exact fun c hc => absurd hc List.not_mem_nil
  | cons x xs ih =>
    rw [benchmarkFrom_cons]
    split
    · intro c hc
      exact (List.mem_append.mp hc).elim (hone i x m c) (ih (i + 1) _ c)
    · exact hone i x m

/-- The rounds of a list depend on nothing but its adapters. -/
theorem mapIdx_round (xs : List Instance) :
    (xs.mapIdx fun i x => x.round i) = (xs.map Instance.impl).mapIdx fun i a =>
      [(i, a, .prepare), (i, a, .parse), (i, a, .print), (i, a, .finish)] := by
  refine List.ext_getElem? fun i => ?_
  rw [List.getElem?_mapIdx, List.getElem?_mapIdx, List.getElem?_map, Option.map_map]
  rfl

/-- **A run of the program that succeeds calls every method of every adapter, in
order, and prints and frees documents of simdjson that are gone**, whatever its
options. All other calls are safe. -/
theorem main_succeeds_unsafe (fuel : ℕ) (o : Options) (w : World) (r : MainRun)
    (h : main fuel (.options o) w = some r) (hr : r.status = some .success) :
    let calls := (benchmark w.implementations.1 Memory.initial).calls
    calls.map Call.event = (createBenchmarks.mapIdx fun i a =>
        [(i, a, .prepare), (i, a, .parse), (i, a, .print), (i, a, .finish)]).flatten ∧
      ∀ c ∈ calls, ¬ c.Safe ↔ (c.impl = .simdjson ∧ (c.method = .print ∨ c.method = .finish)) := by
  have hcompletes : ∀ x ∈ w.implementations.1, x.completes = true := by
    by_cases hw : w.Ready
    · exact ((success_main_options_iff hw h).mp hr).2.2.2
    · obtain ⟨r', hr', hrun⟩ := exists_main_not_ready hw o
      obtain rfl := Option.some.inj ((hrun fuel).symm.trans h)
      exact nomatch hr'.symm.trans hr
  have hok : (benchmarkFrom 0 w.implementations.1 Memory.initial).ok = true :=
    (ok_benchmarkFrom_iff 0 _ _).mpr hcompletes
  refine ⟨?_, fun c hc => ?_⟩
  · obtain ⟨n, part, -, hcalls, hend⟩ := benchmarkFrom_rounds 0 w.implementations.1 Memory.initial
    rcases hend with ⟨-, rfl, rfl⟩ | ⟨hfails, -⟩
    · have hrounds : (w.implementations.1.mapIdx fun i x => x.round i)
          = createBenchmarks.mapIdx fun i a =>
            [(i, a, .prepare), (i, a, .parse), (i, a, .print), (i, a, .finish)] :=
        (mapIdx_round w.implementations.1).trans
          (congrArg (List.mapIdx _) w.implementations.2)
      simp only [List.take_length, List.append_nil, Nat.zero_add] at hcalls
      rw [← hrounds]
      exact hcalls
    · exact absurd (hok.symm.trans hfails) Bool.noConfusion
  · rw [safe_call_iff 0 w.implementations.1 Memory.initial c hc, not_not]

/-- The run for one integer succeeds. -/
theorem main_succeeds_unsafe_oneInt :
    ∃ fuel r, main fuel (.options .oneInt) .quiet = some r ∧ r.status = some .success ∧
      ∃ c ∈ (benchmark World.quiet.implementations.1 Memory.initial).calls,
        c.event = (5, .simdjson, .print) ∧ ¬ c.Safe := by
  obtain ⟨fuel, r, h, -⟩ := exists_main_options ready_quiet reachable_oneInt
  have hr : r.status = some .success :=
    (success_main_options_iff ready_quiet h).mpr ⟨reachable_oneInt, rfl, ⟨_, rfl⟩, by decide⟩
  obtain ⟨hcalls, hsafe⟩ := main_succeeds_unsafe fuel .oneInt .quiet r h hr
  have hmem : (5, Adapter.simdjson, Method.print) ∈
      (benchmark World.quiet.implementations.1 Memory.initial).calls.map Call.event := by
    rw [hcalls]
    decide
  obtain ⟨c, hc, hevent⟩ := List.mem_map.mp hmem
  obtain ⟨-, himpl, hmethod⟩ : c.index = 5 ∧ c.impl = .simdjson ∧ c.method = .print := by
    simpa [Call.event] using hevent
  exact ⟨fuel, r, h, hr, c, hc, hevent, (hsafe c hc).mpr ⟨himpl, Or.inl hmethod⟩⟩

end JsonBenchmarks
