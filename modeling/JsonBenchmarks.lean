import JsonBenchmarks.BlockHeap
import JsonBenchmarks.Driver
import JsonBenchmarks.Lifetime
import JsonBenchmarks.Pairing
import JsonBenchmarks.LeakAccounting
import JsonBenchmarks.AdapterOutcomes
import JsonBenchmarks.InputDevices
import JsonBenchmarks.TestSuite
import JsonBenchmarks.CountedLoop
import JsonBenchmarks.DataGenerator
import JsonBenchmarks.OutputDevices
import JsonBenchmarks.MarkupLexer
import JsonBenchmarks.MarkupTables
import JsonBenchmarks.ParsingReport
import JsonBenchmarks.GeneratedFile
import JsonBenchmarks.GeneratedValues
import JsonBenchmarks.GeneratorLoops
import JsonBenchmarks.ReportReadBack
import JsonBenchmarks.ReportTotals
import JsonBenchmarks.StdStrings
import JsonBenchmarks.ModeOption
import JsonBenchmarks.LoopRules
import JsonBenchmarks.FileStreams
import JsonBenchmarks.BoostJsonParser
import JsonBenchmarks.OsTools
import JsonBenchmarks.Rounding
import JsonBenchmarks.HumanSize
import JsonBenchmarks.StableSort
import JsonBenchmarks.FallibleRuns
import JsonBenchmarks.SuiteFiles
import JsonBenchmarks.MarkupPages
import JsonBenchmarks.SuitePage
import JsonBenchmarks.SuitePageReadBack
import JsonBenchmarks.SuitePageLinks
import JsonBenchmarks.MainReporter
import JsonBenchmarks.DriverTrace
import JsonBenchmarks.ParserPrograms
import JsonBenchmarks.PipeTablePrinting
import JsonBenchmarks.BenchmarkReport
import JsonBenchmarks.OutputCheck
import JsonBenchmarks.MainProgram
import JsonBenchmarks.EditHistory
import JsonBenchmarks.MappedOutput
import JsonBenchmarks.LibraryFailures
