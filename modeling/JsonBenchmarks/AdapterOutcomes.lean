import Mathlib.Tactic.Common

/-!
# What the adapters report

`parse()` and `print()` return a flag and an error text, and the driver
trusts the flag. Underneath, every library tells failure in its own way: an
exception, a null pointer, an error code, a validity bit, an error string, or
not at all.

A `LibOutcome` is what the library call comes to, said once for all of them;
a `Reply` is what the adapter's method makes of it. The adapters share five
ways of translating one into the other – `catching`, `coded`, `messaged`,
`worded` and `unchecked` – and each method below is one of them, or cJSON's
`print()`, which asks for the message of the last *parse*.

`Contract` is what a caller can rely on: `true` is returned exactly for a
success, a failure comes with a text, and no exception escapes and no string
is built from a null pointer. Which outcomes meet it, method by method, is
`contract_parse_iff` and `contract_print_iff`: a text that is empty is where
the flag is computed from the text, and a channel that the adapter does not
look at is where it is not computed at all.
-/

namespace JsonBenchmarks

/-- **What a call of the underlying library comes to.** -/
inductive LibOutcome
  /-- The operation succeeds and produces its whole output. -/
  | success
  /-- The call returns although the operation failed. `text` is the error
  text the library has for it, `none` where its accessor is a null pointer. -/
  | failure (text : Option String)
  /-- A `std::exception` with this `what()`. -/
  | throws (what : String)
deriving DecidableEq

/-- **What the adapter's method does.** -/
inductive Reply
  /-- It returns this pair. -/
  | returns (ok : Bool) (err : String)
  /-- It builds the error string from a null pointer. -/
  | nullString
  /-- It lets the exception through to its caller. -/
  | propagates (what : String)
deriving DecidableEq

/-! ## The ways of translating an outcome -/

/-- `err = p` for a `const char *`, and the error pair with it. -/
def errorPair : Option String → Reply
  | some t => .returns false t
  | none => .nullString

/-- The library call inside `try`, the message of the exception kept in `err`,
and `{err.empty(), err}` returned. -/
def catching : LibOutcome → Reply
  | .success | .failure _ => .returns true ""
  | .throws what => .returns (what.isEmpty) what

/-- An error code, a validity bit or a null document is looked at, and the
text is the library's `const char *` for it. -/
def coded : LibOutcome → Reply
  | .success => .returns true ""
  | .failure text => errorPair text
  | .throws what => .propagates what

/-- The same where the library hands out its text as a `std::string`, which
is empty where there is none. -/
def messaged : LibOutcome → Reply
  | .success => .returns true ""
  | .failure text => .returns false (text.getD "")
  | .throws what => .propagates what

/-- The library writes a `std::string`, and it failed if the string is not
empty. -/
def worded : LibOutcome → Reply
  | .success => .returns true ""
  | .failure text => .returns ((text.getD "").isEmpty) (text.getD "")
  | .throws what => .propagates what

/-- Nothing is looked at. -/
def unchecked : LibOutcome → Reply
  | .success | .failure _ => .returns true ""
  | .throws what => .propagates what

/-! ## The methods

`print()` of cJSON reads the error pointer of the library, which only
`cJSON_Parse…` sets; `errorPtr` is what `cJSON_GetErrorPtr()` returns when it
is called. -/

def JsonconsBenchmarks.parse : LibOutcome → Reply := catching

def JsonconsBenchmarks.print : LibOutcome → Reply := catching

def FlatjsonBenchmarks.parse : LibOutcome → Reply := coded

/-- The number of bytes that `serialize()` wrote is the new size of the
string, whatever it is. -/
def FlatjsonBenchmarks.print : LibOutcome → Reply := unchecked

def YyjsonBenchmarks.parse : LibOutcome → Reply := coded

/-- A null result is reported with a text of the adapter's own. -/
def YyjsonBenchmarks.print : LibOutcome → Reply
  | .success => .returns true ""
  | .failure _ => .returns false "write error"
  | .throws what => .propagates what

def SimdjsonBenchmarks.parse : LibOutcome → Reply := coded

def SimdjsonBenchmarks.print : LibOutcome → Reply := unchecked

def TaojsonBenchmarks.parse : LibOutcome → Reply := catching

def TaojsonBenchmarks.print : LibOutcome → Reply := catching

/-- The text of a failed parse is where `cJSON_GetErrorPtr()` points. -/
def CjsonBenchmarks.parse : LibOutcome → Reply := coded

/-- `cJSON_PrintPreallocated` fails when the buffer is full, and the error
pointer asked for is the one of the last parse. -/
def CjsonBenchmarks.print (errorPtr : Option String) : LibOutcome → Reply
  | .success => .returns true ""
  | .failure _ => errorPair errorPtr
  | .throws what => .propagates what

def JsoncppBenchmarks.parse : LibOutcome → Reply := messaged

def JsoncppBenchmarks.print : LibOutcome → Reply := catching

def Json11Benchmarks.parse : LibOutcome → Reply := worded

def Json11Benchmarks.print : LibOutcome → Reply := unchecked

/-- The adapters, instantiated by `create_benchmarks()` or not. -/
inductive Library
  | jsoncons
  | flatjson
  | yyjson
  | simdjson
  | taojson
  | cjson
  | jsoncpp
  | json11
deriving DecidableEq

namespace Library

/-- `parse()` of the adapter. -/
def parse : Library → LibOutcome → Reply
  | .jsoncons => JsonconsBenchmarks.parse
  | .flatjson => FlatjsonBenchmarks.parse
  | .yyjson => YyjsonBenchmarks.parse
  | .simdjson => SimdjsonBenchmarks.parse
  | .taojson => TaojsonBenchmarks.parse
  | .cjson => CjsonBenchmarks.parse
  | .jsoncpp => JsoncppBenchmarks.parse
  | .json11 => Json11Benchmarks.parse

/-- `print()` of the adapter. -/
def print (errorPtr : Option String) : Library → LibOutcome → Reply
  | .jsoncons => JsonconsBenchmarks.print
  | .flatjson => FlatjsonBenchmarks.print
  | .yyjson => YyjsonBenchmarks.print
  | .simdjson => SimdjsonBenchmarks.print
  | .taojson => TaojsonBenchmarks.print
  | .cjson => CjsonBenchmarks.print errorPtr
  | .jsoncpp => JsoncppBenchmarks.print
  | .json11 => Json11Benchmarks.print

end Library

/-! ## The contract -/

/-- **What the caller of an adapter relies on.** -/
def Contract (o : LibOutcome) : Reply → Prop
  | .returns true _ => o = .success
  | .returns false err => o ≠ .success ∧ err ≠ ""
  | .nullString | .propagates _ => False

/-- There is a text, and it is not empty. -/
def HasText (text : Option String) : Prop := ∃ t, text = some t ∧ t ≠ ""

/-- Where a text is at hand, the error pair made of it has one. -/
theorem contract_errorPair_iff {o : LibOutcome} (ho : o ≠ .success) (text : Option String) :
    Contract o (errorPair text) ↔ HasText text := by
  cases text with
  | none => simp [errorPair, Contract, HasText]
  | some t => simp [errorPair, Contract, HasText, ho]

/-- **The flag computed from the text**: a failure is reported exactly when
its text is not empty. -/
theorem contract_returns_isEmpty_iff {o : LibOutcome} (ho : o ≠ .success) (err : String) :
    Contract o (.returns err.isEmpty err) ↔ err ≠ "" := by
  by_cases herr : err = ""
  · rw [String.isEmpty_iff.mpr herr]
    exact iff_of_false (fun h => ho h) (fun h => h herr)
  · rw [Bool.eq_false_iff.mpr (fun h => herr (String.isEmpty_iff.mp h))]
    exact iff_of_true ⟨ho, herr⟩ herr

/-- A text that defaults to the empty one is not empty when there is one. -/
theorem getD_ne_empty_iff (text : Option String) : text.getD "" ≠ "" ↔ HasText text := by
  cases text with
  | none => simp [HasText]
  | some t => simp [HasText]

/-- **The outcomes that are reported**, where failures told by the return
value are when their text satisfies `value`, and exceptions are when
`exception` holds and they say something. -/
def Reported (value : Option String → Prop) (exception : Prop) : LibOutcome → Prop
  | .success => True
  | .failure text => value text
  | .throws what => exception ∧ what ≠ ""

/-- Only what the two conditions say matters. -/
theorem reported_congr {v v' : Option String → Prop} {e e' : Prop}
    (hv : ∀ text, v text ↔ v' text) (he : e ↔ e') (o : LibOutcome) :
    Reported v e o ↔ Reported v' e' o := by
  cases o with
  | success => exact Iff.rfl
  | failure text => exact hv text
  | throws what => exact and_congr_left' he

/-- A failure is no success, whatever its text. -/
theorem failure_ne_success (text : Option String) : LibOutcome.failure text ≠ .success :=
  fun h => LibOutcome.noConfusion h

/-- Nor is an exception. -/
theorem throws_ne_success (what : String) : LibOutcome.throws what ≠ .success :=
  fun h => LibOutcome.noConfusion h

/-- A guarded call reports its exceptions. -/
theorem contract_catching_iff (o : LibOutcome) :
    Contract o (catching o) ↔ Reported (fun _ => False) True o := by
  cases o with
  | success => exact iff_of_true rfl trivial
  | failure text => exact iff_of_false (failure_ne_success text) id
  | throws what =>
    show Contract (.throws what) (.returns what.isEmpty what) ↔ True ∧ what ≠ ""
    rw [contract_returns_isEmpty_iff (throws_ne_success what), true_and]

section Propagating

variable {call : LibOutcome → Reply} {value : Option String → Prop}

/-- **A call that lets exceptions through** reports the failures told by the
return value for which the contract holds, and no exception. -/
theorem contract_propagating_iff (hsuccess : call .success = .returns true "")
    (hthrows : ∀ what, call (.throws what) = .propagates what)
    (hfailure : ∀ text, Contract (.failure text) (call (.failure text)) ↔ value text)
    (o : LibOutcome) : Contract o (call o) ↔ Reported value False o := by
  cases o with
  | success =>
    rw [hsuccess]
    exact iff_of_true rfl trivial
  | failure text => exact hfailure text
  | throws what =>
    rw [hthrows]
    exact iff_of_false id (fun h => h.1)

end Propagating

/-- A call whose code is looked at reports the failures that have a text. -/
theorem contract_coded_iff (o : LibOutcome) :
    Contract o (coded o) ↔ Reported HasText False o := by
  refine contract_propagating_iff rfl (fun _ => rfl) (fun text => ?_) o
  exact contract_errorPair_iff (failure_ne_success text) text

/-- … and so does one whose message is a string. -/
theorem contract_messaged_iff (o : LibOutcome) :
    Contract o (messaged o) ↔ Reported HasText False o := by
  refine contract_propagating_iff rfl (fun _ => rfl) (fun text => ?_) o
  show .failure text ≠ LibOutcome.success ∧ text.getD "" ≠ "" ↔ HasText text
  rw [and_iff_right (failure_ne_success text), getD_ne_empty_iff]

/-- … and one that fails by a non-empty message. -/
theorem contract_worded_iff (o : LibOutcome) :
    Contract o (worded o) ↔ Reported HasText False o := by
  refine contract_propagating_iff rfl (fun _ => rfl) (fun text => ?_) o
  show Contract _ (.returns (text.getD "").isEmpty (text.getD "")) ↔ HasText text
  rw [contract_returns_isEmpty_iff (failure_ne_success text), getD_ne_empty_iff]

/-- An unchecked call reports no failure at all. -/
theorem contract_unchecked_iff (o : LibOutcome) :
    Contract o (unchecked o) ↔ Reported (fun _ => False) False o := by
  refine contract_propagating_iff rfl (fun _ => rfl) (fun text => ?_) o
  exact iff_of_false (failure_ne_success text) id

/-- yyjson reports every null result. -/
theorem contract_yyjson_print_iff (o : LibOutcome) :
    Contract o (YyjsonBenchmarks.print o) ↔ Reported (fun _ => True) False o := by
  refine contract_propagating_iff rfl (fun _ => rfl) (fun text => ?_) o
  -- the text is the adapter's own, whatever the library has
  exact iff_of_true ⟨failure_ne_success text, by decide⟩ trivial

/-- cJSON reports a full buffer when its error pointer is set. -/
theorem contract_cjson_print_iff (errorPtr : Option String) (o : LibOutcome) :
    Contract o (CjsonBenchmarks.print errorPtr o)
      ↔ Reported (fun _ => HasText errorPtr) False o := by
  refine contract_propagating_iff rfl (fun _ => rfl) (fun text => ?_) o
  exact contract_errorPair_iff (failure_ne_success text) errorPtr

namespace Library

/-- **What `parse()` reports**: every success; a failure told by the return
value, where the adapter looks at it and there is a text; an exception that
says something, where the adapter catches it. -/
def ParseReported (a : Library) : LibOutcome → Prop :=
  Reported (fun text => a ≠ .jsoncons ∧ a ≠ .taojson ∧ HasText text)
    (a = .jsoncons ∨ a = .taojson)

/-- **What `print()` reports**: every success; a failure told by the return
value in yyjson, and in cJSON where the error pointer is set; an exception
that says something, where the adapter catches it. -/
def PrintReported (errorPtr : Option String) (a : Library) : LibOutcome → Prop :=
  Reported (fun _ => a = .yyjson ∨ (a = .cjson ∧ HasText errorPtr))
    (a = .jsoncons ∨ a = .taojson ∨ a = .jsoncpp)

/-- `parse()` meets the contract on exactly the outcomes it reports. -/
theorem contract_parse_iff (a : Library) (o : LibOutcome) :
    Contract o (a.parse o) ↔ a.ParseReported o := by
  unfold ParseReported
  cases a with
  | jsoncons => exact (contract_catching_iff o).trans (reported_congr (by simp) (by simp) o)
  | flatjson => exact (contract_coded_iff o).trans (reported_congr (by simp) (by simp) o)
  | yyjson => exact (contract_coded_iff o).trans (reported_congr (by simp) (by simp) o)
  | simdjson => exact (contract_coded_iff o).trans (reported_congr (by simp) (by simp) o)
  | taojson => exact (contract_catching_iff o).trans (reported_congr (by simp) (by simp) o)
  | cjson => exact (contract_coded_iff o).trans (reported_congr (by simp) (by simp) o)
  | jsoncpp => exact (contract_messaged_iff o).trans (reported_congr (by simp) (by simp) o)
  | json11 => exact (contract_worded_iff o).trans (reported_congr (by simp) (by simp) o)

/-- `print()` meets the contract on exactly the outcomes it reports. -/
theorem contract_print_iff (errorPtr : Option String) (a : Library) (o : LibOutcome) :
    Contract o (a.print errorPtr o) ↔ a.PrintReported errorPtr o := by
  unfold PrintReported
  cases a with
  | jsoncons => exact (contract_catching_iff o).trans (reported_congr (by simp) (by simp) o)
  | flatjson => exact (contract_unchecked_iff o).trans (reported_congr (by simp) (by simp) o)
  | yyjson => exact (contract_yyjson_print_iff o).trans (reported_congr (by simp) (by simp) o)
  | simdjson => exact (contract_unchecked_iff o).trans (reported_congr (by simp) (by simp) o)
  | taojson => exact (contract_catching_iff o).trans (reported_congr (by simp) (by simp) o)
  | cjson =>
    exact (contract_cjson_print_iff errorPtr o).trans (reported_congr (by simp) (by simp) o)
  | jsoncpp => exact (contract_catching_iff o).trans (reported_congr (by simp) (by simp) o)
  | json11 => exact (contract_unchecked_iff o).trans (reported_congr (by simp) (by simp) o)

end Library

/-- **The adapters meet the contract exactly on the outcomes they report**,
for both methods of every adapter and whatever the library call comes to. -/
theorem adapters_contract_iff (a : Library) (errorPtr : Option String)
    (oparse oprint : LibOutcome) :
    (Contract oparse (a.parse oparse) ∧ Contract oprint (a.print errorPtr oprint))
      ↔ a.ParseReported oparse ∧ a.PrintReported errorPtr oprint :=
  and_congr (a.contract_parse_iff oparse) (a.contract_print_iff errorPtr oprint)

/-- **Two full output buffers that are not reported**: flatjson returns
success with what fitted, and cJSON, whose error pointer is null after a
parse that succeeded, builds its error string from it. -/
theorem full_buffer_not_reported :
    ¬ Contract (.failure none) (Library.print none .flatjson (.failure none))
      ∧ Library.print none .cjson (.failure none) = .nullString :=
  ⟨fun h => LibOutcome.noConfusion h, rfl⟩

end JsonBenchmarks
