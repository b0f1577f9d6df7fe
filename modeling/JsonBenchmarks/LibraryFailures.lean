import JsonBenchmarks.AdapterOutcomes
import JsonBenchmarks.BenchmarkReport
import JsonBenchmarks.DriverTrace

/-!
# Failures of the libraries

A library fails in its own way, its adapter makes a pair or an exception of it,
and the driver stops at the first of these and says so. What is said of a run of
the driver in terms of pairs and exceptions becomes, through the adapters, a
statement about the libraries: the run succeeds exactly if every failure is one
that its adapter does not look at, and if it does not succeed, then the message
is about the first failure that is looked at, and has its text
(`benchmark_trusts_iff`).

Exceptions of jsoncons are caught by its adapter, and told as if they were error
pairs; those of the others get to the driver, whose message does not say where
they come from.
-/

namespace JsonBenchmarks

/-! ## What the driver says -/

/-- The message for an error pair of `parse()`. -/
def parseMessage (a : Adapter) (err : String) : String :=
  "\nthe PARSE benchmark for \"" ++ a.name ++ "\" finished with error: " ++ err ++ "\n"

/-- The message for an error pair of `print()`. -/
def printMessage (a : Adapter) (err : String) : String :=
  "\nthe PRINT benchmark for \"" ++ a.name ++ "\" finished with error: " ++ err ++ "\n"

/-- The message for an exception. -/
def errorMessage (what : String) : String := "benchmarks error: " ++ what ++ "\n"

/-- What an iteration says if it ends the loop. -/
def Instance.message (x : Instance) : Option String :=
  match x.createIo with
  | .error what => some (errorMessage what)
  | .ok () =>
    match x.prepare with
    | .error what => some (errorMessage what)
    | .ok () =>
      match x.parse with
      | .error what => some (errorMessage what)
      | .ok (false, err) => some (parseMessage x.impl err)
      | .ok (true, _) =>
        match x.print with
        | .error what => some (errorMessage what)
        | .ok (false, err) => some (printMessage x.impl err)
        | .ok (true, _) =>
          match x.finish with
          | .error what => some (errorMessage what)
          | .ok () => none

/-- **What the loop says**: the message of the iteration that ends it. -/
def benchmarkMessage (xs : List Instance) : Option String := xs.findSome? Instance.message

/-! ## What the libraries do -/

/-- An outcome that has a text if it is a failure. The libraries of the adapters
that are instantiated have one for each of their codes. -/
abbrev ToldOutcome := {o : LibOutcome // o ≠ .failure none}

/-- The adapter, among those of all libraries. -/
def Adapter.library : Adapter → Library
  | .jsoncons => .jsoncons
  | .flatjson => .flatjson
  | .yyjson => .yyjson
  | .simdjson => .simdjson

/-- A reply, as its caller gets it. -/
def Reply.result (r : Reply) (h : r ≠ .nullString) : Except String (Bool × String) :=
  match r, h with
  | .returns ok err, _ => .ok (ok, err)
  | .propagates what, _ => .error what
  | .nullString, h => absurd rfl h

theorem parse_ne_nullString (a : Adapter) (o : ToldOutcome) :
    a.library.parse o.1 ≠ .nullString := by
  obtain ⟨o, ho⟩ := o
  rcases o with _ | (_ | text) | what
  · cases a <;> exact fun h => nomatch h
  · exact absurd rfl ho
  · cases a <;> exact fun h => nomatch h
  · cases a <;> exact fun h => nomatch h

/-- Only cJSON asks for an error pointer when it prints. -/
theorem print_ne_nullString (a : Adapter) (o : ToldOutcome) :
    a.library.print none o.1 ≠ .nullString := by
  obtain ⟨o, ho⟩ := o
  rcases o with _ | text | what <;> cases a <;> exact fun h => nomatch h

/-- **What the library of an adapter does** when the driver calls it. -/
structure LibraryCalls where
  impl : Adapter
  createIo : Except String Unit
  prepare : Except String Unit
  parse : ToldOutcome
  print : ToldOutcome
  finish : Except String Unit

namespace LibraryCalls

/-- What the driver sees of it. -/
def toInstance (c : LibraryCalls) : Instance where
  impl := c.impl
  createIo := c.createIo
  prepare := c.prepare
  parse := (c.impl.library.parse c.parse.1).result (parse_ne_nullString c.impl c.parse)
  print := (c.impl.library.print none c.print.1).result (print_ne_nullString c.impl c.print)
  finish := c.finish

/-- `parse()` returns `true`. -/
def ParsePasses (c : LibraryCalls) : Prop :=
  c.parse.1 = .success ∨
    c.impl = .jsoncons ∧ ((∃ text, c.parse.1 = .failure text) ∨ c.parse.1 = .throws "")

/-- `print()` returns `true`. -/
def PrintPasses (c : LibraryCalls) : Prop :=
  c.print.1 = .success ∨ c.impl ≠ .yyjson ∧ (∃ text, c.print.1 = .failure text) ∨
    c.impl = .jsoncons ∧ c.print.1 = .throws ""

/-- **Every failure is one that the adapter does not look at.** -/
structure Trusted (c : LibraryCalls) : Prop where
  createIo : c.createIo.isOk = true
  prepare : c.prepare.isOk = true
  parse : c.ParsePasses
  print : c.PrintPasses
  finish : c.finish.isOk = true

/-- A text of a failure: that of the library, or the one that the adapter of
yyjson has for it. -/
def FailsWith (c : LibraryCalls) (text : String) : Prop :=
  c.createIo = .error text ∨ c.prepare = .error text ∨ c.parse.1 = .failure (some text) ∨
    c.parse.1 = .throws text ∨ c.print.1 = .throws text ∨
    (c.impl = .yyjson ∧ (∃ t, c.print.1 = .failure t) ∧ text = "write error") ∨
    c.finish = .error text

/-- A message about a failure. -/
def Says (c : LibraryCalls) (msg : String) : Prop :=
  ∃ text, c.FailsWith text ∧
    (msg = errorMessage text ∨ msg = parseMessage c.impl text ∨ msg = printMessage c.impl text)

end LibraryCalls

/-! ## Through the adapters -/

/-- What the driver gets from a call that a catching adapter makes. -/
theorem returnedTrue_catching (o : ToldOutcome) (h : catching o.1 ≠ .nullString) :
    (returnedTrue ((catching o.1).result h) = true ↔
        o.1 = .success ∨ (∃ text, o.1 = .failure text) ∨ o.1 = .throws "") ∧
      ∀ msg, ((catching o.1).result h = .error msg ∨ (catching o.1).result h = .ok (false, msg)) →
        o.1 = .throws msg := by
  obtain ⟨o, ho⟩ := o
  cases o with
  | success | failure => simp [catching, Reply.result, returnedTrue]
  | throws what =>
    simp only [catching, Reply.result, reduceCtorEq, false_or, Except.ok.injEq, Prod.mk.injEq,
      LibOutcome.throws.injEq, exists_false]
    refine ⟨?_, fun msg hmsg => hmsg.2⟩
    unfold returnedTrue
    cases hempty : what.isEmpty <;> simp_all [String.isEmpty_iff]

/-- The same, of an adapter that looks at the result and lets exceptions pass. -/
theorem returnedTrue_coded (o : ToldOutcome) (h : coded o.1 ≠ .nullString) :
    (returnedTrue ((coded o.1).result h) = true ↔ o.1 = .success) ∧
      ∀ msg, ((coded o.1).result h = .error msg ∨ (coded o.1).result h = .ok (false, msg)) →
        o.1 = .failure (some msg) ∨ o.1 = .throws msg := by
  obtain ⟨o, ho⟩ := o
  rcases o with _ | (_ | text) | what
  · simp [coded, Reply.result, returnedTrue]
  · exact absurd rfl ho
  · simp [coded, errorPair, Reply.result, returnedTrue]
  · simp [coded, Reply.result, returnedTrue]

/-- The same, of an adapter that looks at nothing. -/
theorem returnedTrue_unchecked (o : ToldOutcome) (h : unchecked o.1 ≠ .nullString) :
    (returnedTrue ((unchecked o.1).result h) = true ↔
        o.1 = .success ∨ ∃ text, o.1 = .failure text) ∧
      ∀ msg, ((unchecked o.1).result h = .error msg ∨
        (unchecked o.1).result h = .ok (false, msg)) → o.1 = .throws msg := by
  obtain ⟨o, ho⟩ := o
  cases o <;> simp [unchecked, Reply.result, returnedTrue]

/-- **What the driver gets from `parse()`.** -/
theorem parse_toInstance (c : LibraryCalls) :
    (returnedTrue c.toInstance.parse = true ↔ c.ParsePasses) ∧
      ∀ msg, (c.toInstance.parse = .error msg ∨ c.toInstance.parse = .ok (false, msg)) →
        c.parse.1 = .failure (some msg) ∨ c.parse.1 = .throws msg := by
  obtain ⟨a, createIo, prepare, o, print, finish⟩ := c
  have hpasses : ∀ a' ≠ Adapter.jsoncons,
      (LibraryCalls.mk a' createIo prepare o print finish).ParsePasses ↔ o.1 = .success :=
    fun a' ha' => or_iff_left fun h => ha' h.1
  cases a with
  | jsoncons =>
    have hcatching := returnedTrue_catching o (parse_ne_nullString .jsoncons o)
    refine ⟨hcatching.1.trans ?_, fun msg hmsg => Or.inr (hcatching.2 msg hmsg)⟩
    exact or_congr_right (and_iff_right rfl).symm
  | flatjson =>
    rw [hpasses _ (by decide)]
    exact returnedTrue_coded o (parse_ne_nullString .flatjson o)
  | yyjson =>
    rw [hpasses _ (by decide)]
    exact returnedTrue_coded o (parse_ne_nullString .yyjson o)
  | simdjson =>
    rw [hpasses _ (by decide)]
    exact returnedTrue_coded o (parse_ne_nullString .simdjson o)

/-- **What the driver gets from `print()`.** -/
theorem print_toInstance (c : LibraryCalls) :
    (returnedTrue c.toInstance.print = true ↔ c.PrintPasses) ∧
      ∀ msg, (c.toInstance.print = .error msg ∨ c.toInstance.print = .ok (false, msg)) →
        c.print.1 = .throws msg ∨
          c.impl = .yyjson ∧ (∃ t, c.print.1 = .failure t) ∧ msg = "write error" := by
  obtain ⟨a, createIo, prepare, parse, o, finish⟩ := c
  have hpasses : ∀ a', a' ≠ Adapter.jsoncons → a' ≠ .yyjson →
      ((LibraryCalls.mk a' createIo prepare parse o finish).PrintPasses ↔
        o.1 = .success ∨ ∃ text, o.1 = .failure text) := by
    intro a' hjsoncons hyyjson
    refine or_congr_right ((or_iff_left fun h => hjsoncons h.1).trans ?_)
    exact and_iff_right hyyjson
  cases a with
  | jsoncons =>
    have hcatching := returnedTrue_catching o (print_ne_nullString .jsoncons o)
    refine ⟨hcatching.1.trans (or_congr_right (or_congr ?_ ?_)),
      fun msg hmsg => Or.inl (hcatching.2 msg hmsg)⟩
    · exact (and_iff_right (show Adapter.jsoncons ≠ .yyjson by decide)).symm
    · exact (and_iff_right rfl).symm
  | flatjson =>
    have hunchecked := returnedTrue_unchecked o (print_ne_nullString .flatjson o)
    rw [hpasses _ (by decide) (by decide)]
    exact ⟨hunchecked.1, fun msg hmsg => Or.inl (hunchecked.2 msg hmsg)⟩
  | simdjson =>
    have hunchecked := returnedTrue_unchecked o (print_ne_nullString .simdjson o)
    rw [hpasses _ (by decide) (by decide)]
    exact ⟨hunchecked.1, fun msg hmsg => Or.inl (hunchecked.2 msg hmsg)⟩
  | yyjson =>
    have hpasses' : (LibraryCalls.mk .yyjson createIo prepare parse o finish).PrintPasses
        ↔ o.1 = .success :=
      or_iff_left fun h => h.elim (fun h => h.1 rfl) fun h => nomatch h.1
    rw [hpasses']
    obtain ⟨o, ho⟩ := o
    cases o <;> simp [LibraryCalls.toInstance, Adapter.library, Library.print,
      YyjsonBenchmarks.print, Reply.result, returnedTrue, eq_comm]

/-- An iteration completes exactly if every failure in it is one that the
adapter does not look at. -/
theorem completes_toInstance (c : LibraryCalls) :
    c.toInstance.completes = true ↔ c.Trusted := by
  unfold Instance.completes Instance.printed Instance.parsed Instance.prepared
  rw [Bool.and_eq_true, Bool.and_eq_true, Bool.and_eq_true, Bool.and_eq_true,
    (parse_toInstance c).1, (print_toInstance c).1]
  constructor
  · rintro ⟨⟨⟨⟨hcreate, hprepare⟩, hparse⟩, hprint⟩, hfinish⟩
    exact ⟨hcreate, hprepare, hparse, hprint, hfinish⟩
  · intro h
    exact ⟨⟨⟨⟨h.createIo, h.prepare⟩, h.parse⟩, h.print⟩, h.finish⟩

/-! ## What is said -/

namespace Instance

/-- **An iteration says something exactly if it does not complete**, and then it
says what failed. -/
theorem message_spec (x : Instance) :
    (x.message = none ↔ x.completes = true) ∧ ∀ msg, x.message = some msg → ∃ text,
      (x.createIo = .error text ∨ x.prepare = .error text ∨ x.parse = .error text ∨
        x.print = .error text ∨ x.finish = .error text) ∧ msg = errorMessage text ∨
      x.parse = .ok (false, text) ∧ msg = parseMessage x.impl text ∨
      x.print = .ok (false, text) ∧ msg = printMessage x.impl text := by
  rcases x with ⟨a, rcreate, rprepare, rparse, rprint, rfinish⟩
  rcases rcreate with what | ⟨⟨⟩⟩
  · exact ⟨iff_of_false (fun h => nomatch h) (fun h => nomatch h),
      fun msg h => ⟨what, Or.inl ⟨Or.inl rfl, (Option.some.inj h).symm⟩⟩⟩
  rcases rprepare with what | ⟨⟨⟩⟩
  · exact ⟨iff_of_false (fun h => nomatch h) (fun h => nomatch h),
      fun msg h => ⟨what, Or.inl ⟨Or.inr (Or.inl rfl), (Option.some.inj h).symm⟩⟩⟩
  rcases rparse with what | ⟨_ | _, err⟩
  · exact ⟨iff_of_false (fun h => nomatch h) (fun h => nomatch h), fun msg h =>
      ⟨what, Or.inl ⟨Or.inr (Or.inr (Or.inl rfl)), (Option.some.inj h).symm⟩⟩⟩
  · exact ⟨iff_of_false (fun h => nomatch h) (fun h => nomatch h),
      fun msg h => ⟨err, Or.inr (Or.inl ⟨rfl, (Option.some.inj h).symm⟩)⟩⟩
  rcases rprint with what | ⟨_ | _, err'⟩
  · exact ⟨iff_of_false (fun h => nomatch h) (fun h => nomatch h), fun msg h =>
      ⟨what, Or.inl ⟨Or.inr (Or.inr (Or.inr (Or.inl rfl))), (Option.some.inj h).symm⟩⟩⟩
  · exact ⟨iff_of_false (fun h => nomatch h) (fun h => nomatch h),
      fun msg h => ⟨err', Or.inr (Or.inr ⟨rfl, (Option.some.inj h).symm⟩)⟩⟩
  rcases rfinish with what | ⟨⟨⟩⟩
  · exact ⟨iff_of_false (fun h => nomatch h) (fun h => nomatch h), fun msg h =>
      ⟨what, Or.inl ⟨Or.inr (Or.inr (Or.inr (Or.inr rfl))), (Option.some.inj h).symm⟩⟩⟩
  · exact ⟨iff_of_true rfl rfl, fun msg h => nomatch h⟩

end Instance

/-- The message is about a failure of the library. -/
theorem says_of_message {c : LibraryCalls} {msg : String}
    (h : c.toInstance.message = some msg) : c.Says msg := by
  obtain ⟨text, htext⟩ := (Instance.message_spec c.toInstance).2 msg h
  have hparse : (c.toInstance.parse = .error text ∨ c.toInstance.parse = .ok (false, text)) →
      c.FailsWith text := fun h => ((parse_toInstance c).2 text h).elim
    (fun h => Or.inr (Or.inr (Or.inl h))) fun h => Or.inr (Or.inr (Or.inr (Or.inl h)))
  have hprint : (c.toInstance.print = .error text ∨ c.toInstance.print = .ok (false, text)) →
      c.FailsWith text := fun h => Or.inr (Or.inr (Or.inr (Or.inr
    (((print_toInstance c).2 text h).imp_right Or.inl))))
  rcases htext with ⟨hfail, hmsg⟩ | ⟨hfail, hmsg⟩ | ⟨hfail, hmsg⟩
  · refine ⟨text, ?_, Or.inl hmsg⟩
    rcases hfail with hcreate | hprepare | herror | herror | hfinish
    · exact Or.inl hcreate
    · exact Or.inr (Or.inl hprepare)
    · exact hparse (Or.inl herror)
    · exact hprint (Or.inl herror)
    · exact Or.inr (Or.inr (Or.inr (Or.inr (Or.inr (Or.inr hfinish)))))
  · exact ⟨text, hparse (Or.inr hfail), Or.inr (Or.inl hmsg)⟩
  · exact ⟨text, hprint (Or.inr hfail), Or.inr (Or.inr hmsg)⟩

/-- **The driver trusts the adapters**: a run over any libraries succeeds exactly
if every failure is one that its adapter does not look at, and it says something
exactly if it does not succeed. What it says has the text of a failure of the
first library that is not trusted. -/
theorem benchmark_trusts_iff (cs : List LibraryCalls) (m : Memory) :
    let xs := cs.map LibraryCalls.toInstance
    ((benchmark xs m).ok = true ↔ ∀ c ∈ cs, c.Trusted) ∧
      (benchmarkMessage xs = none ↔ (benchmark xs m).ok = true) ∧
      ∀ msg, benchmarkMessage xs = some msg → ∃ pre c post, cs = pre ++ c :: post ∧
        (∀ c' ∈ pre, c'.Trusted) ∧ ¬ c.Trusted ∧ c.Says msg := by
  intro xs
  have htrusted : ∀ c : LibraryCalls, c.toInstance.message = none ↔ c.Trusted := fun c =>
    (Instance.message_spec c.toInstance).1.trans (completes_toInstance c)
  have hok : (benchmark xs m).ok = true ↔ ∀ c ∈ cs, c.Trusted := by
    refine (ok_benchmarkFrom_iff 0 xs m).trans (List.forall_mem_map.trans ?_)
    exact forall₂_congr fun c _ => completes_toInstance c
  refine ⟨hok, ?_, ?_⟩
  · rw [hok, benchmarkMessage, List.findSome?_map, List.findSome?_eq_none_iff]
    exact forall₂_congr fun c _ => htrusted c
  · intro msg hmsg
    rw [benchmarkMessage, List.findSome?_map, List.findSome?_eq_some_iff] at hmsg
    obtain ⟨pre, c, post, rfl, hc, hpre⟩ := hmsg
    refine ⟨pre, c, post, rfl, fun c' hc' => (htrusted c').mp (hpre c' hc'), ?_,
      says_of_message hc⟩
    rw [← htrusted c]
    exact fun hnone => nomatch hc.symm.trans hnone

end JsonBenchmarks
