import JsonBenchmarks.Driver
import JsonBenchmarks.OsTools
import JsonBenchmarks.PipeTablePrinting

/-!
# The report of a benchmark

`benchmark()` writes a report in Markdown: the input file, the machine, the
libraries with their versions, and a table for what is measured. All of it is
inserted into the stream in front of the loop; what stands in the loop is a
comment. So the report does not depend on what the libraries do, and its last
table has no row, in any run.

What is told of the machine is whatever its files say. An exception of
`get_os` leaves the report after the key of its row, in the middle of the
second table, and no library is run. Otherwise the report has four tables, and
it reads back exactly if what is told of the machine, and the versions, can
stand in a cell (`benchmark_report_readsBack_iff`).
-/

namespace JsonBenchmarks

open FileStreams LoopRules PipeTables

/-! ## The machine -/

/-- `sysconf(_SC_PHYS_PAGES)` and `sysconf(_SC_PAGE_SIZE)`, whose product is
taken as a `long`. -/
structure PhysicalMemory where
  pages : ℤ
  pageSize : ℤ
  fits : -2 ^ 63 ≤ pages * pageSize ∧ pages * pageSize < 2 ^ 63

/-- What the driver asks the machine: the contents of files, if they can be
opened, and what is known without. -/
structure Machine where
  cpuinfo : Option (List Char)
  osRelease : Option (List Char)
  boardVendor : Option (List Char)
  boardName : Option (List Char)
  memory : PhysicalMemory
  is64 : Bool
  compiler : List Char

/-- The first line of a file, as the first call of `std::getline` finds it. -/
def firstLine (content : List Char) : List Char :=
  ((IFileStream.opened content false).getline []).1

/-- `get_os_type`. -/
def getOsType : List Char := "Linux".toList

/-- `get_motherboard`. -/
def getMotherboard (boardVendor boardName : Option (List Char)) : List Char :=
  match boardVendor with
  | none => unknown
  | some content =>
    let vendor := firstLine content
    if vendor.isEmpty then unknown
    else
      let vendor := if vendor.getLast? = some '.' then vendor.dropLast else vendor
      match boardName with
      | none => vendor ++ ", UNKNOWN".toList
      | some content =>
        let name := firstLine content
        if name.isEmpty then vendor ++ ", UNKNOWN".toList else vendor ++ "-".toList ++ name

/-- `get_ram`. The divisor is unsigned, and so is the division. -/
def getRam (memory : PhysicalMemory) : List Char :=
  let total := (BitVec.ofInt 64 (memory.pages * memory.pageSize)).toNat / (1024 * 1024 * 1024)
  (toString total ++ " GB").toList

/-! ## The adapters -/

namespace Adapter

/-- `name()`. -/
def name : Adapter → String
  | .jsoncons => "jsoncons"
  | .flatjson => "flatjson"
  | .yyjson => "yyjson"
  | .simdjson => "simdjson"

/-- `url()`. -/
def url : Adapter → String
  | .jsoncons => "https://github.com/danielaparker/jsoncons"
  | .flatjson => "https://github.com/niXman/flatjson"
  | .yyjson => "https://github.com/ibireme/yyjson"
  | .simdjson => "https://github.com/simdjson/simdjson"

end Adapter

/-! ## The insertions -/

/-- A number as it is inserted into a stream. -/
abbrev NumberText := {s : List Char // s ≠ [] ∧ s.all ("0123456789.e+-".toList.contains ·) = true}

/-- `test_file_fname`, the input of `main`. -/
def testFileFname : String := "data/output/testdata.json"

section Insertions

def put (s : String) : StringOutcome := .returns s.toList

def endl : StringOutcome := .returns ['\n']

/-- **The insertions in front of the loop**, for the list of implementations.
`size` is what the size of the input is inserted as, in megabytes. -/
def headerInsertions (inputFname : String) (size : NumberText)
    (cpuType motherboard cpu ram os compiler : StringOutcome) (version : Adapter → List Char)
    (implementations : List Adapter) : List StringOutcome :=
  [ endl,
    put "## Read and Write Time Comparison", endl, endl,
    endl,
    put "Input filename|Size (MB)|Content", endl,
    put "---|---|---", endl,
    put inputFname, put "|", .returns size.1, put "|", put "Text,doubles", endl,
    endl,
    put "Environment", put "|", .returns getOsType, put ", ", cpuType, endl,
    put "---|---", endl,
    put "Computer", put "|", motherboard, put ", ", cpu, put ", ", ram, endl,
    put "Operating system", put "|", os, endl,
    put "Compiler", put "|", compiler, endl,
    endl,
    put "Library|Version", endl,
    put "---|---", endl ]
  ++ implementations.flatMap (fun val =>
    [ put "[", put val.name, put "](", put val.url, put ")", put "|", .returns (version val),
      endl ])
  ++ [ endl,
    put ("Library|Time to read s|Time to write s|Memory footprint on read MB|" ++
      "Memory footprint on write MB|Allocations on read|Allocations on write|Remarks"), endl,
    put "---|---|---|---|---|---|---|---", endl ]

/-- What insertions leave in a stream. An exception leaves what stands before
it. -/
inductive Inserted
  | all (text : List Char)
  | thrown (text : List Char)
  | undefined

/-- More text in front. -/
def Inserted.prepend (s : List Char) : Inserted → Inserted
  | .all text => .all (s ++ text)
  | .thrown text => .thrown (s ++ text)
  | .undefined => .undefined

/-- The insertions are made in order. -/
def insertAll : List StringOutcome → Inserted
  | [] => .all []
  | .returns s :: rest => (insertAll rest).prepend s
  | .throws :: _ => .thrown []
  | .undefined :: _ => .undefined

end Insertions

/-- How a run of `benchmark()` ends: with the report and its result. -/
inductive ReportRun
  | returned (report : List Char) (ok : Bool)
  | undefined
deriving DecidableEq

/-- What `benchmark()` does behind the insertions, its loop being that of the
run. -/
def finishReport (run : Run) : Inserted → ReportRun
  | .all text => .returned (if run.ok then text ++ ['\n'] else text) run.ok
  | .thrown text => .returned text false
  | .undefined => .undefined

/-- **`benchmark()`**, with the report that it writes. -/
def benchmarkReport (fuel : ℕ) (machine : Machine) (inputFname : String) (size : NumberText)
    (version : Adapter → List Char) (xs : List Instance) (m : Memory) : Option ReportRun := do
  let cpuType ← getCpuType fuel machine.cpuinfo
  let cpu ← getCpu fuel machine.cpuinfo
  let os ← getOs machine.is64 fuel machine.osRelease
  return finishReport (benchmark xs m)
    (insertAll (headerInsertions inputFname size cpuType
      (.returns (getMotherboard machine.boardVendor machine.boardName)) cpu
      (.returns (getRam machine.memory)) os (.returns machine.compiler) version
      (xs.map Instance.impl)))

/-! ## What the functions tell -/

/-- The field that is told for a key, of the content of a file. -/
def toldField (key : List Char) (rename : List Char → List Char) :
    Option (List Char) → List Char
  | none => unknown
  | some content => fieldText rename ((lineWith key content).getD (unterminated content))

namespace Machine

/-- What `get_os` does. -/
def os (machine : Machine) : StringOutcome :=
  match machine.osRelease with
  | none => .returns unknown
  | some content =>
    osOfLine machine.is64 ((lineWith prettyNameKey content).getD (unterminated content))

/-- The cell for the environment. -/
def environment (machine : Machine) : List Char :=
  getOsType ++ ", ".toList ++ toldField "vendor_id".toList vendorName machine.cpuinfo

/-- The cell for the computer. -/
def computer (machine : Machine) : List Char :=
  getMotherboard machine.boardVendor machine.boardName ++ ", ".toList
    ++ toldField "model name".toList id machine.cpuinfo ++ ", ".toList ++ getRam machine.memory

end Machine

/-- More time changes nothing about a field. -/
theorem cpuField_mono (key : List Char) (rename : List Char → List Char)
    {file : Option (List Char)} {fuel fuel' : ℕ} {out : StringOutcome}
    (h : cpuField key rename fuel file = some out) (hle : fuel ≤ fuel') :
    cpuField key rename fuel' file = some out := by
  cases file with
  | none => exact h
  | some content =>
    obtain ⟨line, hline, hout⟩ := Option.bind_eq_some_iff.mp h
    exact Option.bind_eq_some_iff.mpr
      ⟨line, loop_mono hline hle, fieldOfLine_mono rename hout hle⟩

/-- **A field function returns**, given time. -/
theorem exists_cpuField (key : List Char) (rename : List Char → List Char)
    (file : Option (List Char)) :
    ∃ fuel, cpuField key rename fuel file = some (.returns (toldField key rename file)) := by
  cases file with
  | none => exact ⟨0, rfl⟩
  | some content => exact (exists_cpuField_iff key rename content _).mpr rfl

theorem getOs_mono (is64 : Bool) {file : Option (List Char)} {fuel fuel' : ℕ}
    {out : StringOutcome} (h : getOs is64 fuel file = some out) (hle : fuel ≤ fuel') :
    getOs is64 fuel' file = some out := by
  cases file with
  | none => exact h
  | some content =>
    obtain ⟨line, hline, hout⟩ := Option.map_eq_some_iff.mp h
    exact Option.map_eq_some_iff.mpr ⟨line, loop_mono hline hle, hout⟩

/-- `get_os` ends, given time. -/
theorem exists_getOs (machine : Machine) :
    ∃ fuel, getOs machine.is64 fuel machine.osRelease = some machine.os := by
  unfold Machine.os
  cases machine.osRelease with
  | none => exact ⟨0, rfl⟩
  | some content => exact (exists_getOs_iff machine.is64 content _).mpr rfl

/-! ## The tables that are meant -/

/-- The table of the input file. -/
def fileTable (size : NumberText) : PipeTable where
  header := ["Input filename".toList, "Size (MB)".toList, "Content".toList]
  rows := [[testFileFname.toList, size.1, "Text,doubles".toList]]

/-- The table of the machine, with its last rows. -/
def machineTable (machine : Machine) (rows : List (List (List Char))) : PipeTable where
  header := ["Environment".toList, machine.environment]
  rows := ["Computer".toList, machine.computer] :: rows

/-- The link to a library. -/
def link (a : Adapter) : List Char :=
  "[".toList ++ a.name.toList ++ "](".toList ++ a.url.toList ++ ")".toList

/-- The table of the libraries. -/
def libraryTable (version : Adapter → List Char) (implementations : List Adapter) :
    PipeTable where
  header := ["Library".toList, "Version".toList]
  rows := implementations.map fun a => [link a, version a]

/-- The table of what is measured. -/
def measurementTable : PipeTable where
  header := ["Library".toList, "Time to read s".toList, "Time to write s".toList,
    "Memory footprint on read MB".toList, "Memory footprint on write MB".toList,
    "Allocations on read".toList, "Allocations on write".toList, "Remarks".toList]
  rows := []

/-- **The tables of a report**, up to an exception of `get_os`. -/
def reportTables (machine : Machine) (size : NumberText) (version : Adapter → List Char)
    (implementations : List Adapter) : List PipeTable :=
  match machine.os with
  | .returns os =>
    [fileTable size,
      machineTable machine
        [["Operating system".toList, os], ["Compiler".toList, machine.compiler]],
      libraryTable version implementations, measurementTable]
  | _ => [fileTable size, machineTable machine [["Operating system".toList, []]]]

/-- A text that can stand in a cell. -/
def PlainCell (s : List Char) : Prop := OneLine s ∧ trim s = s ∧ '|' ∉ s

/-- The cells that are not fixed. -/
def toldCells (machine : Machine) (version : Adapter → List Char)
    (implementations : List Adapter) : List (List Char) :=
  machine.environment :: machine.computer ::
    match machine.os with
    | .returns os => os :: machine.compiler :: implementations.map version
    | _ => []

/-- The insertions of a run on a machine. -/
def Machine.insertions (machine : Machine) (size : NumberText) (version : Adapter → List Char)
    (implementations : List Adapter) : List StringOutcome :=
  headerInsertions testFileFname size
    (.returns (toldField "vendor_id".toList vendorName machine.cpuinfo))
    (.returns (getMotherboard machine.boardVendor machine.boardName))
    (.returns (toldField "model name".toList id machine.cpuinfo))
    (.returns (getRam machine.memory)) machine.os (.returns machine.compiler) version
    implementations

/-! ## What is written -/

/-- The lines in front of the tables. -/
def titleLines : List (List Char) :=
  [[], "## Read and Write Time Comparison".toList, [], []]

/-- Insertions behind others. -/
def Inserted.andThen : Inserted → Inserted → Inserted
  | .all s, i => i.prepend s
  | i, _ => i

theorem Inserted.prepend_prepend (s t : List Char) (i : Inserted) :
    (i.prepend t).prepend s = i.prepend (s ++ t) := by
  cases i <;> simp [Inserted.prepend]

theorem insertAll_append (a b : List StringOutcome) :
    insertAll (a ++ b) = (insertAll a).andThen (insertAll b) := by
  induction a with
  | nil =>
    show insertAll b = (insertAll b).prepend []
    cases insertAll b <;> rfl
  | cons o a ih =>
    cases o with
    | returns s =>
      show (insertAll (a ++ b)).prepend s = ((insertAll a).prepend s).andThen (insertAll b)
      rw [ih]
      cases insertAll a with
      | all t => exact Inserted.prepend_prepend s t _
      | thrown t => rfl
      | undefined => rfl
    | throws => rfl
    | undefined => rfl

theorem rowLine_pair (a b : List Char) : rowLine [a, b] = a ++ '|' :: b := by
  rw [rowLine_cons a (List.cons_ne_nil b []), rowLine, List.intercalate_singleton]

/-- The insertions for the libraries. -/
theorem insertAll_libraries (version : Adapter → List Char) (implementations : List Adapter) :
    insertAll (implementations.flatMap fun val =>
      [ put "[", put val.name, put "](", put val.url, put ")", put "|", .returns (version val),
        endl ])
      = .all (unlines ((libraryTable version implementations).rows.map rowLine)) := by
  induction implementations with
  | nil => rfl
  | cons a as ih =>
    rw [List.flatMap_cons, insertAll_append, ih]
    show Inserted.all _ = Inserted.all _
    refine congrArg Inserted.all ?_
    show _ = unlines (rowLine [link a, version a] :: _)
    rw [rowLine_pair, link]
    simp [unlines, libraryTable]

theorem rowLine_triple (a b c : List Char) : rowLine [a, b, c] = a ++ '|' :: (b ++ '|' :: c) := by
  rw [rowLine_cons a (List.cons_ne_nil b [c]), rowLine_pair]

/-- The line of the last header. -/
theorem rowLine_measurementTable :
    ("Library|Time to read s|Time to write s|Memory footprint on read MB|" ++
      "Memory footprint on write MB|Allocations on read|Allocations on write|Remarks").toList
        = rowLine measurementTable.header := by
  rw [String.toList_append]
  decide +kernel

/-- **What is inserted is the tables**, with the title in front of them, if
`get_os` returns. -/
theorem insertAll_header (machine : Machine) (size : NumberText) (os : List Char)
    (version : Adapter → List Char) (implementations : List Adapter) :
    insertAll (headerInsertions testFileFname size
        (.returns (toldField "vendor_id".toList vendorName machine.cpuinfo))
        (.returns (getMotherboard machine.boardVendor machine.boardName))
        (.returns (toldField "model name".toList id machine.cpuinfo))
        (.returns (getRam machine.memory)) (.returns os) (.returns machine.compiler) version
        implementations)
      = .all (unlines titleLines ++ unlines ((fileTable size).lines ++ [[]] ++
          ((machineTable machine [["Operating system".toList, os],
              ["Compiler".toList, machine.compiler]]).lines ++ [[]]) ++
          ((libraryTable version implementations).lines ++ [[]]) ++ measurementTable.lines)) := by
  have hfile : "Input filename|Size (MB)|Content".toList = "Input filename".toList ++
      '|' :: ("Size (MB)".toList ++ '|' :: "Content".toList) := by decide
  have hlibrary : "Library|Version".toList = "Library".toList ++ '|' :: "Version".toList := by
    decide
  have htwo : "---|---".toList = rowLine (List.replicate 2 dashes) := by decide
  have hthree : "---|---|---".toList = rowLine (List.replicate 3 dashes) := by decide
  have height : "---|---|---|---|---|---|---|---".toList = rowLine (List.replicate 8 dashes) := by
    decide
  rw [headerInsertions, insertAll_append, insertAll_append, insertAll_libraries]
  show Inserted.all _ = Inserted.all _
  refine congrArg Inserted.all ?_
  simp only [hfile, hlibrary, htwo, hthree, height, rowLine_measurementTable, fileTable,
    machineTable, libraryTable, PipeTable.lines, unlines, titleLines, Machine.environment,
    Machine.computer, List.map_cons, List.map_nil, List.flatMap_cons, List.flatMap_append,
    List.flatMap_nil, List.cons_append, List.nil_append, List.append_assoc, rowLine_pair,
    rowLine_triple]
  rfl

/-- What is inserted if `get_os` throws: the tables up to the cell that it
should have filled. -/
theorem insertAll_header_throws (machine : Machine) (size : NumberText)
    (version : Adapter → List Char) (implementations : List Adapter) :
    ∃ text, insertAll (headerInsertions testFileFname size
        (.returns (toldField "vendor_id".toList vendorName machine.cpuinfo))
        (.returns (getMotherboard machine.boardVendor machine.boardName))
        (.returns (toldField "model name".toList id machine.cpuinfo))
        (.returns (getRam machine.memory)) .throws (.returns machine.compiler) version
        implementations)
      = .thrown (text ++ ['|']) ∧
      text ++ ['|'] ++ ['\n'] = unlines titleLines ++ unlines ((fileTable size).lines ++ [[]] ++
        (machineTable machine [["Operating system".toList, []]]).lines) := by
  have hfile : "Input filename|Size (MB)|Content".toList = "Input filename".toList ++
      '|' :: ("Size (MB)".toList ++ '|' :: "Content".toList) := by decide
  have htwo : "---|---".toList = rowLine (List.replicate 2 dashes) := by decide
  have hthree : "---|---|---".toList = rowLine (List.replicate 3 dashes) := by decide
  refine ⟨unlines titleLines ++ unlines ((fileTable size).lines ++ [[]] ++
    (machineTable machine []).lines) ++ "Operating system".toList, ?_, ?_⟩
  · rw [headerInsertions, List.append_assoc, insertAll_append]
    show Inserted.thrown _ = Inserted.thrown _
    refine congrArg Inserted.thrown ?_
    simp only [hfile, htwo, hthree, fileTable, machineTable, PipeTable.lines, unlines, titleLines,
      Machine.environment, Machine.computer, List.map_cons, List.map_nil, List.flatMap_cons,
      List.flatMap_nil, List.cons_append, List.nil_append, List.append_assoc, rowLine_pair,
      rowLine_triple, List.append_nil]
    rfl
  · simp only [fileTable, machineTable, PipeTable.lines, unlines, List.map_cons, List.map_nil,
      List.flatMap_cons, List.flatMap_nil, List.cons_append, List.nil_append, List.append_assoc,
      rowLine_pair, rowLine_triple, List.append_nil]

/-! ## What can be printed -/

instance (s : List Char) : Decidable (OneLine s) :=
  decidable_of_iff (s.all (!isLineEnd ·) = true) (by simp [OneLine])

instance (s : List Char) : Decidable (PlainCell s) :=
  inferInstanceAs (Decidable (_ ∧ _ ∧ _))

/-- A row with a label. -/
theorem labelled_of_head {label : List Char} {cells : List (List Char)}
    (h : (label.head?.any fun c => !isPad c && c != '|' && !opensBlock [c]) = true) :
    Labelled (label :: cells) := by
  cases label with
  | nil => exact absurd h Bool.false_ne_true
  | cons c label =>
    rw [List.head?_cons, Option.any_some] at h
    simp only [Bool.and_eq_true, Bool.not_eq_true', bne_iff_ne] at h
    exact ⟨c, label, cells, rfl, h.1.1, h.1.2, h.2⟩

/-- **A row of a label and a cell can be printed exactly if the cell is
plain.** -/
theorem printableRow_pair_iff {label : List Char} (hlabel : PlainCell label)
    (hlast : label.getLast? ≠ some '\\') (cell : List Char) :
    PrintableRow [label, cell] ↔ PlainCell cell := by
  constructor
  · intro h
    exact h.cells cell (List.mem_cons_of_mem _ List.mem_cons_self)
  · intro h
    exact ⟨List.forall_mem_cons.mpr ⟨hlabel, List.forall_mem_singleton.mpr h⟩,
      List.forall_mem_singleton.mpr hlast⟩

/-- A number is plain, and does not end with a backslash. -/
theorem plainCell_number (size : NumberText) :
    PlainCell size.1 ∧ size.1.getLast? ≠ some '\\' := by
  obtain ⟨s, -, hs⟩ := size
  have hchar : ∀ c ∈ s, isLineEnd c = false ∧ isPad c = false ∧ c ≠ '|' ∧ c ≠ '\\' := by
    intro c hc
    have hmem : c ∈ "0123456789.e+-".toList := by
      simpa using List.all_eq_true.mp hs c hc
    have hall : ("0123456789.e+-".toList.all fun c =>
        !isLineEnd c && !isPad c && c != '|' && c != '\\') = true := by decide
    have := List.all_eq_true.mp hall c hmem
    simpa [and_assoc] using this
  refine ⟨⟨fun c hc => (hchar c hc).1, trim_eq_self ?_ ?_, fun h => (hchar _ h).2.2.1 rfl⟩, ?_⟩
  · exact fun c hc => (hchar c (List.mem_of_head? hc)).2.1
  · exact fun c hc => (hchar c (List.mem_of_getLast? hc)).2.1
  · exact fun h => (hchar _ (List.mem_of_getLast? h)).2.2.2 rfl

theorem shaped_fileTable (size : NumberText) : (fileTable size).Shaped where
  columns := Nat.le_succ 2
  named := by
    show some "Content".toList ≠ some []
    decide
  lengths := List.forall_mem_singleton.mpr rfl
  labelled := List.forall_mem_cons.mpr ⟨labelled_of_head (by decide),
    List.forall_mem_singleton.mpr (labelled_of_head (by decide))⟩

theorem printable_fileTable (size : NumberText) : (fileTable size).Printable := by
  obtain ⟨hsize, hlast⟩ := plainCell_number size
  refine List.forall_mem_cons.mpr ⟨⟨?_, ?_⟩, List.forall_mem_singleton.mpr ⟨?_, ?_⟩⟩
  · exact List.forall_mem_cons.mpr ⟨by decide, List.forall_mem_cons.mpr ⟨by decide,
      List.forall_mem_singleton.mpr (by decide)⟩⟩
  · exact List.forall_mem_cons.mpr ⟨by decide, List.forall_mem_singleton.mpr (by decide)⟩
  · exact List.forall_mem_cons.mpr ⟨by decide, List.forall_mem_cons.mpr ⟨hsize,
      List.forall_mem_singleton.mpr (by decide)⟩⟩
  · exact List.forall_mem_cons.mpr ⟨by decide, List.forall_mem_singleton.mpr hlast⟩

/-- A table of labels and cells. -/
theorem shaped_machineTable (machine : Machine) {rows : List (List (List Char))}
    (hrows : ∀ row ∈ rows, row.length = 2 ∧ Labelled row) :
    (machineTable machine rows).Shaped where
  columns := le_rfl
  named := by
    show some machine.environment ≠ some []
    rw [Machine.environment, getOsType]
    exact fun h => List.cons_ne_nil _ _ (Option.some.inj h)
  lengths := List.forall_mem_cons.mpr ⟨rfl, fun row hrow => (hrows row hrow).1⟩
  labelled := List.forall_mem_cons.mpr ⟨labelled_of_head (by decide), List.forall_mem_cons.mpr
    ⟨labelled_of_head (by decide), fun row hrow => (hrows row hrow).2⟩⟩

theorem printable_machineTable_iff (machine : Machine) (rows : List (List (List Char))) :
    (machineTable machine rows).Printable ↔
      PlainCell machine.environment ∧ PlainCell machine.computer ∧
        ∀ row ∈ rows, PrintableRow row := by
  unfold PipeTable.Printable machineTable
  rw [List.forall_mem_cons, List.forall_mem_cons, printableRow_pair_iff (by decide) (by decide),
    printableRow_pair_iff (by decide) (by decide)]

/-- The name of a library, as a label. -/
theorem link_plain (a : Adapter) :
    PlainCell (link a) ∧ (link a).getLast? ≠ some '\\' ∧
      ((link a).head?.any fun c => !isPad c && c != '|' && !opensBlock [c]) = true := by
  cases a <;> exact ⟨by decide, by decide, by decide⟩

theorem shaped_libraryTable (version : Adapter → List Char) (implementations : List Adapter) :
    (libraryTable version implementations).Shaped where
  columns := le_rfl
  named := by
    show some "Version".toList ≠ some []
    decide
  lengths := by
    intro row hrow
    obtain ⟨a, -, rfl⟩ := List.mem_map.mp hrow
    rfl
  labelled := by
    refine List.forall_mem_cons.mpr ⟨labelled_of_head (by decide), fun row hrow => ?_⟩
    obtain ⟨a, -, rfl⟩ := List.mem_map.mp hrow
    exact labelled_of_head (link_plain a).2.2

theorem printable_libraryTable_iff (version : Adapter → List Char)
    (implementations : List Adapter) :
    (libraryTable version implementations).Printable ↔
      ∀ cell ∈ implementations.map version, PlainCell cell := by
  unfold PipeTable.Printable libraryTable
  rw [List.forall_mem_cons, List.forall_mem_map, List.forall_mem_map]
  constructor
  · intro h a ha
    exact (printableRow_pair_iff (link_plain a).1 (link_plain a).2.1 _).mp (h.2 a ha)
  · intro h
    exact ⟨(printableRow_pair_iff (by decide) (by decide) _).mpr (by decide),
      fun a ha => (printableRow_pair_iff (link_plain a).1 (link_plain a).2.1 _).mpr (h a ha)⟩

theorem shaped_measurementTable : measurementTable.Shaped where
  columns := by decide
  named := by decide
  lengths := fun row hrow => absurd hrow List.not_mem_nil
  labelled := List.forall_mem_singleton.mpr (labelled_of_head (by decide))

theorem printable_measurementTable : measurementTable.Printable := by
  refine List.forall_mem_singleton.mpr ⟨?_, ?_⟩
  · have hall : (measurementTable.header.all fun cell => decide (PlainCell cell)) = true := by
      decide +kernel
    exact fun cell hcell => of_decide_eq_true (List.all_eq_true.mp hall cell hcell)
  · have hall : (measurementTable.header.dropLast.all fun cell =>
        cell.getLast? != some '\\') = true := by decide +kernel
    exact fun cell hcell => bne_iff_ne.mp (List.all_eq_true.mp hall cell hcell)

/-! ## Reading the report -/

/-- The title is no table. -/
theorem readPipeTables_titleLines (cs : List Char) :
    readPipeTables (unlines titleLines ++ cs) = readPipeTables cs := by
  refine readPipeTables_unlines_append ?_ rfl cs
  have hall : (titleLines.all fun l => decide (OneLine l)) = true := by decide
  exact fun l hl => of_decide_eq_true (List.all_eq_true.mp hall l hl)

/-- **The tables of a report are read exactly if they can be printed.** -/
theorem readPipeTables_reportTables_iff {machine : Machine} (hos : machine.os ≠ .undefined)
    (size : NumberText) (version : Adapter → List Char) (implementations : List Adapter) :
    readPipeTables (printPipeTables (reportTables machine size version implementations))
        = reportTables machine size version implementations ↔
      ∀ cell ∈ toldCells machine version implementations, PlainCell cell := by
  have hsystem : ∀ cell, [("Operating system".toList), cell].length = 2 ∧
      Labelled ["Operating system".toList, cell] :=
    fun cell => ⟨rfl, labelled_of_head (by decide)⟩
  unfold reportTables toldCells
  cases hcase : machine.os with
  | returns os =>
    dsimp only
    rw [readPipeTables_print_iff (List.forall_mem_cons.mpr ⟨shaped_fileTable size,
      List.forall_mem_cons.mpr ⟨shaped_machineTable machine (List.forall_mem_cons.mpr
        ⟨hsystem os, List.forall_mem_singleton.mpr ⟨rfl, labelled_of_head (by decide)⟩⟩),
      List.forall_mem_cons.mpr ⟨shaped_libraryTable version implementations,
        List.forall_mem_singleton.mpr shaped_measurementTable⟩⟩⟩)]
    rw [List.forall_mem_cons, List.forall_mem_cons, List.forall_mem_cons,
      List.forall_mem_singleton, printable_machineTable_iff, printable_libraryTable_iff,
      List.forall_mem_cons, List.forall_mem_singleton,
      printableRow_pair_iff (by decide) (by decide),
      printableRow_pair_iff (by decide) (by decide), List.forall_mem_cons, List.forall_mem_cons,
      List.forall_mem_cons, List.forall_mem_cons]
    constructor
    · rintro ⟨-, ⟨henvironment, hcomputer, hos, hcompiler⟩, hversions, -⟩
      exact ⟨henvironment, hcomputer, hos, hcompiler, hversions⟩
    · rintro ⟨henvironment, hcomputer, hos, hcompiler, hversions⟩
      exact ⟨printable_fileTable size, ⟨henvironment, hcomputer, hos, hcompiler⟩, hversions,
        printable_measurementTable⟩
  | throws =>
    dsimp only
    rw [readPipeTables_print_iff (List.forall_mem_cons.mpr ⟨shaped_fileTable size,
      List.forall_mem_singleton.mpr (shaped_machineTable machine
        (List.forall_mem_singleton.mpr (hsystem [])))⟩)]
    rw [List.forall_mem_cons, List.forall_mem_singleton, printable_machineTable_iff,
      List.forall_mem_singleton, printableRow_pair_iff (by decide) (by decide),
      List.forall_mem_cons, List.forall_mem_singleton]
    constructor
    · rintro ⟨-, henvironment, hcomputer, -⟩
      exact ⟨henvironment, hcomputer⟩
    · rintro ⟨henvironment, hcomputer⟩
      exact ⟨printable_fileTable size, henvironment, hcomputer, by decide⟩
  | undefined => exact absurd hcase hos

theorem unlines_append (ls ls' : List (List Char)) :
    unlines (ls ++ ls') = unlines ls ++ unlines ls' :=
  List.flatMap_append

/-- No carriage return ends a text of lines. -/
theorem getLast?_unlines (ls : List (List Char)) : (unlines ls).getLast? ≠ some '\r' := by
  rcases List.eq_nil_or_concat ls with rfl | ⟨ls, l, rfl⟩
  · exact Option.some_ne_none _ ∘ Eq.symm
  · have hsplit : unlines (ls ++ [l]) = unlines ls ++ l ++ ['\n'] := by
      rw [unlines_append, List.append_assoc]
      exact congrArg (unlines ls ++ ·) (List.append_nil _)
    rw [List.concat_eq_append, hsplit, List.getLast?_concat]
    exact fun h => absurd (Option.some.inj h) (by decide)

/-- A report without the blank line at its end. -/
theorem readPipeTables_lines (ts : List PipeTable) (ls : List (List Char))
    (hls : ts.flatMap (·.lines ++ [[]]) = ls ++ [[]]) :
    readPipeTables (unlines titleLines ++ unlines ls) = readPipeTables (printPipeTables ts) ∧
      readPipeTables (unlines titleLines ++ unlines ls ++ ['\n'])
        = readPipeTables (printPipeTables ts) := by
  have hprint : printPipeTables ts = unlines ls ++ ['\n'] := by
    rw [printPipeTables, hls, unlines_append]
    rfl
  rw [List.append_assoc, readPipeTables_titleLines, readPipeTables_titleLines, hprint]
  exact ⟨(readPipeTables_newline (getLast?_unlines ls)).symm, rfl⟩

/-- **What is inserted is read as the tables**, with a newline behind it or
without. -/
theorem exists_insertAll {machine : Machine} (hos : machine.os ≠ .undefined) (size : NumberText)
    (version : Adapter → List Char) (implementations : List Adapter) :
    ∃ text, insertAll (machine.insertions size version implementations)
      = (if machine.os = .throws then .thrown text else .all text) ∧
      readPipeTables text
        = readPipeTables (printPipeTables (reportTables machine size version implementations)) ∧
      readPipeTables (text ++ ['\n'])
        = readPipeTables (printPipeTables
          (reportTables machine size version implementations)) := by
  unfold reportTables Machine.insertions
  cases hcase : machine.os with
  | returns os =>
    refine ⟨_, (insertAll_header machine size os version implementations).trans
      (if_neg (fun h => nomatch h)).symm, readPipeTables_lines _ _ ?_⟩
    simp only [List.flatMap_cons, List.flatMap_nil, List.append_assoc, List.append_nil]
  | throws =>
    obtain ⟨text, hinsert, htext⟩ := insertAll_header_throws machine size version implementations
    have hlast : (text ++ ['|']).getLast? ≠ some '\r' := by
      rw [List.getLast?_concat]
      exact fun h => absurd (Option.some.inj h) (by decide)
    have hlines := readPipeTables_lines
      [fileTable size, machineTable machine [["Operating system".toList, []]]]
      ((fileTable size).lines ++ [[]] ++ (machineTable machine
        [["Operating system".toList, []]]).lines)
      (by simp only [List.flatMap_cons, List.flatMap_nil, List.append_assoc, List.append_nil])
    have hone := readPipeTables_newline hlast
    rw [htext, hlines.1] at hone
    refine ⟨text ++ ['|'], hinsert.trans (if_pos rfl).symm, hone.symm, ?_⟩
    rw [htext, hlines.1]
  | undefined => exact absurd hcase hos

/-- **`benchmark()` comes to its end**, given time. -/
theorem exists_benchmarkReport (machine : Machine) (size : NumberText)
    (version : Adapter → List Char) (xs : List Instance) (m : Memory) :
    ∃ fuel, ∀ fuel' ≥ fuel, benchmarkReport fuel' machine testFileFname size version xs m
      = some (finishReport (benchmark xs m)
        (insertAll (machine.insertions size version (xs.map Instance.impl)))) := by
  obtain ⟨f₁, h₁⟩ := exists_cpuField "vendor_id".toList vendorName machine.cpuinfo
  obtain ⟨f₂, h₂⟩ := exists_cpuField "model name".toList id machine.cpuinfo
  obtain ⟨f₃, h₃⟩ := exists_getOs machine
  refine ⟨max f₁ (max f₂ f₃), fun fuel' hle => ?_⟩
  rw [ge_iff_le, max_le_iff, max_le_iff] at hle
  unfold benchmarkReport getCpuType getCpu
  rw [cpuField_mono _ _ h₁ hle.1, cpuField_mono _ _ h₂ hle.2.1, getOs_mono _ h₃ hle.2.2]
  rfl

/-- More time changes nothing about a run. -/
theorem benchmarkReport_mono {machine : Machine} {inputFname : String} {size : NumberText}
    {version : Adapter → List Char} {xs : List Instance} {m : Memory} {fuel fuel' : ℕ}
    {r : ReportRun} (h : benchmarkReport fuel machine inputFname size version xs m = some r)
    (hle : fuel ≤ fuel') :
    benchmarkReport fuel' machine inputFname size version xs m = some r := by
  obtain ⟨cpuType, htype, h⟩ := Option.bind_eq_some_iff.mp h
  obtain ⟨cpu, hcpu, h⟩ := Option.bind_eq_some_iff.mp h
  obtain ⟨os, hos, h⟩ := Option.bind_eq_some_iff.mp h
  unfold getCpuType at htype
  unfold getCpu at hcpu
  unfold benchmarkReport getCpuType getCpu
  rw [cpuField_mono _ _ htype hle, cpuField_mono _ _ hcpu hle, getOs_mono _ hos hle]
  exact h

/-- **The report of a run reads back exactly if what is told of the machine,
and the versions, can stand in a cell**, whatever the libraries do. -/
theorem benchmark_report_readsBack_iff (machine : Machine) (hos : machine.os ≠ .undefined)
    (size : NumberText) (version : Adapter → List Char) (xs : List Instance) (m : Memory) :
    ∃ report ok, (∃ fuel, ∀ fuel' ≥ fuel,
        benchmarkReport fuel' machine testFileFname size version xs m
          = some (.returned report ok)) ∧
      (ok = true ↔ machine.os ≠ .throws ∧ (benchmark xs m).ok = true) ∧
      (readPipeTables report = reportTables machine size version (xs.map Instance.impl) ↔
        ∀ cell ∈ toldCells machine version (xs.map Instance.impl), PlainCell cell) := by
  obtain ⟨text, hinsert, hread, hnewline⟩ :=
    exists_insertAll hos size version (xs.map Instance.impl)
  obtain ⟨fuel, hrun⟩ := exists_benchmarkReport machine size version xs m
  rw [hinsert] at hrun
  rw [← readPipeTables_reportTables_iff hos]
  by_cases hthrows : machine.os = .throws
  · rw [if_pos hthrows] at hrun
    refine ⟨text, false, ⟨fuel, hrun⟩, ?_, ?_⟩
    · exact iff_of_false Bool.false_ne_true fun h => h.1 hthrows
    · rw [hread]
  · rw [if_neg hthrows] at hrun
    refine ⟨if (benchmark xs m).ok then text ++ ['\n'] else text, (benchmark xs m).ok,
      ⟨fuel, hrun⟩, (and_iff_right hthrows).symm, ?_⟩
    split
    · rw [hnewline]
    · rw [hread]

/-- The report of a run of one library, which does not parse. -/
theorem benchmark_report_readsBack_failing :
    let machine : Machine :=
      ⟨some "vendor_id\t: GenuineIntel\nmodel name\t: Xeon\n".toList,
        some "PRETTY_NAME=\"Debian\"\n".toList, some "Acme.\n".toList, none,
        ⟨4, 1073741824, by decide⟩, true, "g++-13.2.0".toList⟩
    let size : NumberText := ⟨"1.5".toList, by decide⟩
    let xs : List Instance :=
      [⟨.yyjson, .ok (), .ok (), .ok (false, "unexpected end"), .ok (true, ""), .ok ()⟩]
    ∃ report ok, (∃ fuel, ∀ fuel' ≥ fuel,
        benchmarkReport fuel' machine testFileFname size (fun _ => "0.9.0".toList) xs
          Memory.initial = some (.returned report ok)) ∧ ok = false ∧
      readPipeTables report = reportTables machine size (fun _ => "0.9.0".toList) [.yyjson] := by
  intro machine size xs
  obtain ⟨report, ok, hreport, hok, hread⟩ := benchmark_report_readsBack_iff machine (by decide)
    size (fun _ => "0.9.0".toList) xs Memory.initial
  refine ⟨report, ok, hreport, Bool.eq_false_iff.mpr fun h => ?_, hread.mpr ?_⟩
  · exact absurd (hok.mp h).2 (by decide)
  · have hall : ((toldCells machine (fun _ => "0.9.0".toList) [.yyjson]).all fun cell =>
        decide (PlainCell cell)) = true := by decide +kernel
    exact fun cell hcell => of_decide_eq_true (List.all_eq_true.mp hall cell hcell)

end JsonBenchmarks
