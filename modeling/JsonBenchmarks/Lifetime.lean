import JsonBenchmarks.Driver

/-!
# The lifetime of the documents

Whether what `print()` reads and `finish()` frees is still there. A call is
`Safe` when the document behind the adapter's handle is backed in the heap
the call finds: the handle is not null, the object has not been freed, and
the storage of its data has not been released.

Within an iteration nothing is left of what earlier iterations did to the
handle: jsoncons, flatjson and simdjson make a fresh object in `prepare()`,
yyjson makes its document in `parse()`, and the driver calls `print()` only
after both. So the pointer that yyjson keeps after `finish()`, and whatever
an earlier, aborted run left behind, is overwritten before it is used
(`backed_parse_iff`), and the only document that is not backed when it is
printed is simdjson's: its storage belongs to the parser that is local to
`parse()`, and goes with it.
-/

namespace JsonBenchmarks

open Heaps

/-- **A call is safe**: what `print()` reads, or `finish()` frees, is a
document that is still backed. The other two methods neither read nor free
one. -/
def Call.Safe (c : Call) : Prop :=
  match c.method with
  | .prepare | .parse => True
  | .print | .finish => ∃ d, c.found = some d ∧ d.Backed c.heap

/-- **After a successful `parse()` the handle is backed, unless it is
simdjson's.** Nothing is assumed of the memory the iteration starts from but
that the input device is open. -/
theorem backed_parse_iff (a : Adapter) (input : Block) (err : String) (m : Memory)
    (hinput : input ∈ m.heap.live) :
    (∃ d, (parse a (.ok (true, err)) (prepare a input (.ok ()) m).mem).mem.localObj a
          = some d
        ∧ d.Backed (parse a (.ok (true, err)) (prepare a input (.ok ()) m).mem).mem.heap)
      ↔ a ≠ .simdjson := by
  cases a with
  | jsoncons =>
    simp [parse, prepare, Memory.create, Effect.none, Document.Backed]
  | flatjson =>
    simp [parse, prepare, Memory.create, Effect.none, Document.Backed, hinput]
  | yyjson =>
    simp [parse, prepare, Memory.create, Effect.none, Document.Backed]
  | simdjson =>
    simp [parse, prepare, Memory.create, Document.Backed]

/-- The same, of the handle an iteration finds when it gets to `print()`. -/
theorem Instance.backed_parses_iff (x : Instance) (m : Memory) (h : x.parsed = true) :
    (∃ d, (x.parses m).mem.localObj x.impl = some d ∧ d.Backed (x.parses m).mem.heap)
      ↔ x.impl ≠ .simdjson := by
  have hinput : m.heap.next ∈ m.openInput.heap.live :=
    (BlockHeap.mem_live_alloc _ _).mpr (Or.inl rfl)
  obtain ⟨err, herr⟩ := x.parse_of_parsed h
  unfold Instance.parses Instance.prepares
  rw [herr]
  exact backed_parse_iff x.impl m.heap.next err m.openInput hinput

/-- **One iteration**: its calls are all safe unless it is simdjson's and
gets to `print()`. -/
theorem safe_benchmarkOne_iff (i : ℕ) (x : Instance) (m : Memory) :
    (∀ c ∈ (benchmarkOne i x m).calls, c.Safe)
      ↔ ¬ (x.impl = .simdjson ∧ x.parsed = true) := by
  rcases benchmarkOne_cases i x m with ⟨h, hr⟩ | ⟨-, h, hr⟩ | ⟨-, h, hr⟩ | ⟨h, -, hr⟩ | ⟨h, hr⟩
  · rw [hr]; simp [Instance.parsed, Instance.prepared, h]
  · rw [hr]; simp [Instance.parsed, Instance.prepared, Instance.call, Call.Safe, h]
  · rw [hr]; simp [Instance.parsed, Instance.call, Call.Safe, h]
  -- `print()` is called: what it finds, and `finish()` after it, is the
  -- handle that `parse()` leaves
  · have hback := x.backed_parses_iff m h
    rw [hr]; simp [Instance.call, Call.Safe, h, hback]
  · have hparsed : x.parsed = true := (Bool.and_eq_true_iff.mp h).1
    have hback := x.backed_parses_iff m hparsed
    rw [hr]; simp [Instance.call, Call.Safe, hparsed, hback]

/-- The whole loop, from any position and any memory. -/
theorem safe_benchmarkFrom_iff (i : ℕ) (xs : List Instance) (m : Memory) :
    (∀ c ∈ (benchmarkFrom i xs m).calls, c.Safe)
      ↔ ¬ Reaches xs (fun x => x.impl = .simdjson ∧ x.parsed = true) := by
  induction xs generalizing i m with
  | nil =>
    exact iff_of_true (fun c hc => absurd hc List.not_mem_nil) (not_reaches_nil _)
  | cons x xs ih =>
    rw [benchmarkFrom_cons, reaches_cons, not_or, ← safe_benchmarkOne_iff i x m]
    by_cases hx : x.completes = true
    · rw [if_pos hx, not_and]
      simp only [List.mem_append, or_imp, forall_and, ih, hx, true_implies]
    · rw [if_neg hx]
      exact (and_iff_left (fun h => hx h.1)).symm

/-- **Every document is there when it is printed and when it is freed,
exactly when no simdjson iteration gets to `print()`.** The list of
implementations is any, and so is the memory the run starts from: the null
handles of a fresh process, or whatever earlier runs left in them. -/
theorem benchmark_safe_iff (xs : List Instance) (m : Memory) :
    (∀ c ∈ (benchmark xs m).calls, c.Safe)
      ↔ ¬ Reaches xs (fun x => x.impl = .simdjson ∧ x.parsed = true) :=
  safe_benchmarkFrom_iff 0 xs m

/-- **simdjson prints through a parser that is gone**: one iteration in which
every call succeeds is enough. -/
theorem simdjson_not_safe :
    ¬ ∀ c ∈ (benchmark [⟨.simdjson, .ok (), .ok (), .ok (true, ""), .ok (true, ""),
        .ok ()⟩] Memory.initial).calls, c.Safe := by
  intro h
  obtain ⟨d, hd, -, b, hb, hlive⟩ := h _ (List.mem_cons_of_mem _
    (List.mem_cons_of_mem _ List.mem_cons_self))
  obtain rfl := Option.some.inj hd
  obtain rfl := Option.some.inj hb
  exact absurd hlive (by decide)

end JsonBenchmarks
