import JsonBenchmarks.Driver

/-!
# What a run of the driver does and leaves behind

The driver is a protocol with the adapters: for each element of the list it
calls the four methods in order, and it ends at the first call that fails. So
the calls of a run are complete rounds, one for each element up to some
position, and behind them the beginning of a round at most
(`benchmark_rounds`).

A round releases what it allocates. A round that is cut short between the call
that makes the document and `finish()` does not, and it is the last. So a run
leaves the heap as it finds it, or it leaves the document of that round, to which
the handle of its adapter still points, and nothing else but the text of a
`print()` of yyjson that throws (`benchmark_heap`). After a run in
which nothing fails every handle that was used is null, except for that of
yyjson, which points to a document that is gone (`benchmark_handles`).
-/

namespace JsonBenchmarks

open Heaps

/-! ## The calls -/

/-- What was called: the position in the list, the adapter and the method. -/
def Call.event (c : Call) : ℕ × Adapter × Method := (c.index, c.impl, c.method)

namespace Instance

/-- **A complete round.** -/
def round (x : Instance) (i : ℕ) : List (ℕ × Adapter × Method) :=
  [(i, x.impl, .prepare), (i, x.impl, .parse), (i, x.impl, .print), (i, x.impl, .finish)]

/-- How far a round gets. -/
def depth (x : Instance) : ℕ :=
  if x.printed then 4 else if x.parsed then 3 else if x.prepared then 2
  else if x.createIo.isOk then 1 else 0

end Instance

/-- The calls of an iteration are the beginning of its round. -/
theorem events_benchmarkOne (i : ℕ) (x : Instance) (m : Memory) :
    (benchmarkOne i x m).calls.map Call.event = (x.round i).take x.depth := by
  rcases benchmarkOne_cases i x m with
    ⟨h, hr⟩ | ⟨hcreate, h, hr⟩ | ⟨hprepared, h, hr⟩ | ⟨hparsed, h, hr⟩ | ⟨h, hr⟩
  · rw [hr]
    simp [Instance.depth, Instance.printed, Instance.parsed, Instance.prepared, h]
  · rw [hr]
    simp [Instance.depth, Instance.printed, Instance.parsed, Instance.prepared, Instance.round,
      Instance.call, Call.event, h, hcreate]
  · rw [hr]
    simp [Instance.depth, Instance.printed, Instance.parsed, Instance.round, Instance.call,
      Call.event, h, hprepared]
  · rw [hr]
    simp [Instance.depth, Instance.printed, Instance.round, Instance.call, Call.event, h, hparsed]
  · rw [hr]
    simp [Instance.depth, Instance.round, Instance.call, Call.event, h]

/-- A round that completes has all of its calls. -/
theorem events_of_completes {x : Instance} (h : x.completes = true) (i : ℕ) (m : Memory) :
    (benchmarkOne i x m).calls.map Call.event = x.round i := by
  have hprinted : x.printed = true := (Bool.and_eq_true_iff.mp h).1
  rw [events_benchmarkOne, Instance.depth, if_pos hprinted]
  rfl

/-- The loop from a position on: the rounds that complete, and the one that
does not. -/
theorem benchmarkFrom_rounds (i : ℕ) (xs : List Instance) (m : Memory) :
    ∃ n part, (∀ x ∈ xs.take n, x.completes = true) ∧
      (benchmarkFrom i xs m).calls.map Call.event
        = ((xs.take n).mapIdx fun k x => x.round (i + k)).flatten ++ part ∧
      ((benchmarkFrom i xs m).ok = true ∧ n = xs.length ∧ part = [] ∨
        (benchmarkFrom i xs m).ok = false ∧ ∃ x, xs[n]? = some x ∧ x.completes = false ∧
          part = (x.round (i + n)).take x.depth) := by
  induction xs generalizing i m with
  | nil => exact ⟨0, [], fun x hx => absurd hx List.not_mem_nil, rfl, Or.inl ⟨rfl, rfl, rfl⟩⟩
  | cons x xs ih =>
    rw [benchmarkFrom_cons]
    by_cases hx : x.completes = true
    · obtain ⟨n, part, hall, hcalls, hend⟩ := ih (i + 1) (benchmarkOne i x m).mem
      rw [if_pos hx]
      refine ⟨n + 1, part, ?_, ?_, ?_⟩
      · rw [List.take_succ_cons, List.forall_mem_cons]
        exact ⟨hx, hall⟩
      · have hshift : ∀ k, i + 1 + k = i + (k + 1) := fun k => by omega
        simp only [hshift] at hcalls
        rw [List.map_append, events_of_completes hx, hcalls, List.take_succ_cons,
          List.mapIdx_cons, List.flatten_cons, List.append_assoc]
        rfl
      · rcases hend with ⟨hok, rfl, rfl⟩ | ⟨hok, y, hy, hfails, hpart⟩
        · exact Or.inl ⟨hok, rfl, rfl⟩
        · exact Or.inr ⟨hok, y, hy, hfails, by rw [hpart, Nat.add_assoc, Nat.add_comm 1]⟩
    · have hfails : x.completes = false := Bool.not_eq_true _ ▸ hx
      rw [if_neg hx]
      refine ⟨0, _, fun y hy => absurd hy List.not_mem_nil, rfl, Or.inr ⟨?_, x, rfl, hfails, ?_⟩⟩
      · rw [ok_benchmarkOne, hfails]
      · exact events_benchmarkOne i x m

/-- **The calls of a run of the loop are complete rounds, and behind them the
beginning of a round at most.** If the run succeeds there is a round for each element of the
list; otherwise the first element whose round does not complete is the last one
that is called. -/
theorem benchmark_rounds (xs : List Instance) (m : Memory) :
    ∃ n part, (∀ x ∈ xs.take n, x.completes = true) ∧
      (benchmark xs m).calls.map Call.event
        = ((xs.take n).mapIdx fun i x => x.round i).flatten ++ part ∧
      ((benchmark xs m).ok = true ∧ n = xs.length ∧ part = [] ∨
        (benchmark xs m).ok = false ∧ ∃ x, xs[n]? = some x ∧ x.completes = false ∧
          part = (x.round n).take x.depth) := by
  have hrounds := benchmarkFrom_rounds 0 xs m
  simpa only [benchmark, Nat.zero_add] using hrounds

/-- A run succeeds exactly if each of its iterations completes. -/
theorem ok_benchmarkFrom_iff (i : ℕ) (xs : List Instance) (m : Memory) :
    (benchmarkFrom i xs m).ok = true ↔ ∀ x ∈ xs, x.completes = true := by
  induction xs generalizing i m with
  | nil => exact iff_of_true rfl fun x hx => absurd hx List.not_mem_nil
  | cons x xs ih =>
    rw [benchmarkFrom_cons, List.forall_mem_cons]
    by_cases hx : x.completes = true
    · rw [if_pos hx, and_iff_right hx]
      exact ih (i + 1) _
    · rw [if_neg hx, ok_benchmarkOne]
      exact iff_of_false hx fun h => hx h.1

/-! ## The heap -/

/-- **The iteration leaves its document**: it ends between the call that makes
the document, which is `prepare()` except in yyjson, and `finish()`. -/
def Instance.Leaves (x : Instance) : Prop :=
  x.prepared = true ∧ x.printed = false ∧ (x.impl = .yyjson → x.parsed = true)

/-- A block that is allocated and freed leaves no trace. -/
theorem live_alloc_free (h : BlockHeap) : (h.alloc.free h.next).live = h.live :=
  Finset.erase_insert h.next_notMem_live

/-- What is allocated in between stays. -/
theorem live_alloc_alloc_free (h : BlockHeap) :
    (h.alloc.alloc.free h.next).live = insert (h.next + 1) h.live := by
  show ((insert (h.next + 1) (insert h.next h.live)).erase h.next) = _
  rw [Finset.erase_insert_of_ne (Nat.succ_ne_self h.next), Finset.erase_insert h.next_notMem_live]

section Iteration

variable (x : Instance) (m : Memory)

/-- The documents of the adapters are made right behind the input device. yyjson
makes its document where `parse()` succeeds. -/
theorem live_parses (h : x.impl = .yyjson → x.parsed = true) :
    ((x.parses m).mem.closeInput m.heap.next).heap.live
      = insert (m.heap.next + 1) m.heap.live := by
  unfold Instance.parses Instance.prepares
  rw [← live_alloc_alloc_free]
  cases himpl : x.impl with
  | yyjson =>
    obtain ⟨err, herr⟩ := x.parse_of_parsed (h himpl)
    rw [herr]
    rfl
  | simdjson =>
    -- the parser that is local to `parse()` leaves no trace
    exact congrArg (Finset.erase · m.heap.next) (live_alloc_free m.heap.alloc.alloc)
  | _ => rfl

/-- What the handle points to then. -/
theorem object_parses (h : x.impl = .yyjson → x.parsed = true) :
    ∃ d, (x.parses m).mem.localObj x.impl = some d ∧ d.object = m.heap.next + 1 := by
  unfold Instance.parses Instance.prepares
  cases himpl : x.impl with
  | yyjson =>
    obtain ⟨err, herr⟩ := x.parse_of_parsed (h himpl)
    rw [herr]
    simp [prepare, parse, Memory.create, Effect.none, Memory.openInput]
  | simdjson =>
    -- the element is tied to the buffers on success only
    rcases x.parse with e | ⟨_ | _, t⟩ <;>
      simp [prepare, parse, Memory.create, Memory.openInput]
  | _ => simp [prepare, parse, Memory.create, Effect.none, Memory.openInput]

/-- A `parse()` of yyjson that fails makes no document. -/
theorem live_parses_yyjson (himpl : x.impl = .yyjson) (h : returnedTrue x.parse = false) :
    ((x.parses m).mem.closeInput m.heap.next).heap.live = m.heap.live := by
  unfold Instance.parses Instance.prepares
  rw [himpl]
  rcases hparse : x.parse with e | ⟨_ | _, t⟩
  · exact live_alloc_free m.heap
  · exact live_alloc_free m.heap
  · exact absurd (hparse ▸ h) Bool.noConfusion

/-- The number of the document is not in use before. -/
theorem next_succ_notMem_live : m.heap.next + 1 ∉ m.heap.live :=
  fun h => Nat.not_succ_lt_self (m.heap.live_lt _ h)

/-- **A round that gets to `finish()` leaves the heap as it finds it.** -/
theorem live_finishes (h : x.printed = true) :
    ((x.finishes m).mem.closeInput m.heap.next).heap.live = m.heap.live := by
  have hparsed : x.parsed = true := (Bool.and_eq_true_iff.mp h).1
  obtain ⟨d, hd, hobject⟩ := object_parses x m fun _ => hparsed
  have hfinish : ((x.finishes m).mem.closeInput m.heap.next).heap.live
      = ((x.parses m).mem.heap.live.erase (m.heap.next + 1)).erase m.heap.next := by
    unfold Instance.finishes finish
    rw [hd, ← hobject]
    rfl
  have hlive : (x.parses m).mem.heap.live.erase m.heap.next
      = insert (m.heap.next + 1) m.heap.live := live_parses x m fun _ => hparsed
  rw [hfinish, Finset.erase_right_comm, hlive, Finset.erase_insert (next_succ_notMem_live m)]

/-- An iteration that does not leave its document leaves the heap as it finds
it. -/
theorem live_benchmarkOne (i : ℕ) (h : ¬ x.Leaves) :
    (benchmarkOne i x m).mem.heap.live = m.heap.live := by
  rcases benchmarkOne_cases i x m with
    ⟨-, hr⟩ | ⟨-, -, hr⟩ | ⟨hprepared, hfails, hr⟩ | ⟨hparsed, hfails, hr⟩ | ⟨hprinted, hr⟩
  · rw [hr]
  · rw [hr]
    exact live_alloc_free m.heap
  · -- only yyjson has nothing to leave here
    have hprinted : x.printed = false := by simp [Instance.printed, Instance.parsed, hfails]
    have himpl : x.impl = .yyjson := by
      by_contra hne
      exact h ⟨hprepared, hprinted, fun heq => absurd heq hne⟩
    rw [hr]
    exact live_parses_yyjson x m himpl hfails
  · have hprinted : x.printed = false := by simp [Instance.printed, hfails]
    exact absurd ⟨(Bool.and_eq_true_iff.mp hparsed).1, hprinted, fun _ => hparsed⟩ h
  · rw [hr]
    exact live_finishes x m hprinted

/-- The document that an iteration leaves is made by its own calls, and not
released by them. -/
theorem log_parses (h : x.impl = .yyjson → x.parsed = true) :
    .created (m.heap.next + 1) ∈ (x.prepares m).log ++ (x.parses m).log ∧
      .released (m.heap.next + 1) ∉ (x.prepares m).log ++ (x.parses m).log := by
  unfold Instance.parses Instance.prepares
  cases himpl : x.impl with
  | yyjson =>
    obtain ⟨err, herr⟩ := x.parse_of_parsed (h himpl)
    rw [herr]
    simp [prepare, parse, Memory.create, Effect.none, Memory.openInput]
  | _ => simp [prepare, parse, Memory.create, Effect.none, Memory.openInput]

/-- The text of `print()` is left, too. -/
def Instance.LeavesText (x : Instance) : Prop :=
  x.impl = .yyjson ∧ x.parsed = true ∧ x.print.isOk = false

/-- A `print()` that leaves no text leaves everything as it is. -/
theorem prints_eq (hparsed : x.parsed = true) (h : ¬ x.LeavesText) :
    (x.prints m).mem = (x.parses m).mem := by
  unfold Instance.prints print
  split
  · rfl
  · next hprint =>
    have himpl : x.impl ≠ .yyjson := fun himpl => h ⟨himpl, hparsed, by rw [hprint]; rfl⟩
    rw [if_neg himpl]
    rfl

/-- One that does leaves one block more, and the handle as it is. -/
theorem prints_of_leavesText (h : x.LeavesText) :
    (x.prints m).mem.localObj = (x.parses m).mem.localObj ∧
      ((x.prints m).mem.closeInput m.heap.next).heap.live
        = insert (m.heap.next + 2) (insert (m.heap.next + 1) m.heap.live) := by
  obtain ⟨himpl, hparsed, hprint⟩ := h
  obtain ⟨err, herr⟩ := x.parse_of_parsed hparsed
  have hlive := live_parses x m fun _ => hparsed
  have hnext : (x.parses m).mem.heap.next = m.heap.next + 2 := by
    unfold Instance.parses Instance.prepares
    rw [himpl, herr]
    rfl
  have hprints : (x.prints m).mem
      = { (x.parses m).mem with heap := (x.parses m).mem.heap.alloc } := by
    unfold Instance.prints print
    split
    · next hok => exact absurd (hok ▸ hprint) Bool.noConfusion
    · rw [if_pos himpl]
      rfl
  have hhandle : (x.prints m).mem.localObj = (x.parses m).mem.localObj := by rw [hprints]
  refine ⟨hhandle, ?_⟩
  rw [hprints, ← hlive, ← hnext]
  exact Finset.erase_insert_of_ne (hnext ▸ (Nat.lt_add_of_pos_right two_pos).ne')

/-- **What is left of an iteration**, between the memory `m` and `m'`, where
`log` is what the iteration creates and releases: its document `d`, to which
the handle of its adapter points, and the text of a `print()` of yyjson that
throws. -/
structure Instance.LeftBehind (x : Instance) (log : List DocOp) (m m' : Memory)
    (d : Document) : Prop where
  /-- The handle is the document's. -/
  handle : m'.localObj x.impl = some d
  /-- The iteration makes the document. -/
  created : .created d.object ∈ log
  /-- It does not release it. -/
  kept : .released d.object ∉ log
  /-- The document was not there before. -/
  fresh : d.object ∉ m.heap.live
  /-- Nothing else is left. -/
  alone : ¬ x.LeavesText → m'.heap.live = insert d.object m.heap.live
  /-- Or the text, which was not there before. -/
  text : x.LeavesText → ∃ b, b ≠ d.object ∧ b ∉ m.heap.live ∧
    m'.heap.live = insert b (insert d.object m.heap.live)

/-- **An iteration that leaves its document.** -/
theorem leftBehind_benchmarkOne (i : ℕ) (h : x.Leaves) :
    ∃ d, x.LeftBehind (benchmarkOne i x m).log m (benchmarkOne i x m).mem d := by
  obtain ⟨hprepared, hprinted, hyyjson⟩ := h
  have hlive := live_parses x m hyyjson
  obtain ⟨d, hd, hobject⟩ := object_parses x m hyyjson
  obtain ⟨hcreated, hkept⟩ := log_parses x m hyyjson
  have hfresh := next_succ_notMem_live m
  rw [← hobject] at hlive hcreated hkept hfresh
  rcases benchmarkOne_cases i x m with
    ⟨hfails, -⟩ | ⟨-, hfails, -⟩ | ⟨-, hfails, hr⟩ | ⟨hparsed, -, hr⟩ | ⟨hprinted', -⟩
  · exact absurd hprepared (by simp [Instance.prepared, hfails])
  · exact absurd hprepared (by simp [Instance.prepared, hfails])
  · -- `print()` is not called, so there is no text
    have hparsed : x.parsed ≠ true := by simp [Instance.parsed, hfails]
    rw [hr]
    exact ⟨d, hd, hcreated, hkept, hfresh, fun _ => hlive, fun htext => absurd htext.2.1 hparsed⟩
  · rw [hr]
    by_cases htext : x.LeavesText
    · obtain ⟨hhandle, hboth⟩ := prints_of_leavesText x m htext
      have hnew : m.heap.next + 2 ∉ m.heap.live := fun hb =>
        absurd (m.heap.live_lt _ hb) (Nat.le_add_right _ 2).not_gt
      have hne : m.heap.next + 2 ≠ d.object := hobject ▸ Nat.succ_ne_self _
      rw [← hobject] at hboth
      exact ⟨d, (congrFun hhandle x.impl).trans hd, hcreated, hkept, hfresh, absurd htext,
        fun _ => ⟨m.heap.next + 2, hne, hnew, hboth⟩⟩
    · have hprints := prints_eq x m hparsed htext
      rw [← hprints] at hd hlive
      exact ⟨d, hd, hcreated, hkept, hfresh, fun _ => hlive, fun h => absurd h htext⟩
  · exact absurd hprinted' (by rw [hprinted]; exact Bool.false_ne_true)

end Iteration

/-- A round that completes does not leave its document. -/
theorem Instance.not_leaves_of_completes {x : Instance} (h : x.completes = true) : ¬ x.Leaves := by
  intro hleaves
  have hprinted : x.printed = true := (Bool.and_eq_true_iff.mp h).1
  exact Bool.noConfusion (hprinted.symm.trans hleaves.2.1)

/-- A run that reaches no such iteration leaves the heap as it finds it. -/
theorem live_benchmarkFrom (i : ℕ) (xs : List Instance) (m : Memory)
    (h : ¬ Reaches xs Instance.Leaves) :
    (benchmarkFrom i xs m).mem.heap.live = m.heap.live := by
  induction xs generalizing i m with
  | nil => rfl
  | cons x xs ih =>
    rw [reaches_cons, not_or] at h
    have hlive := live_benchmarkOne x m i h.1
    rw [benchmarkFrom_cons]
    by_cases hx : x.completes = true
    · rw [if_pos hx]
      exact (ih (i + 1) (benchmarkOne i x m).mem fun hreach => h.2 ⟨hx, hreach⟩).trans hlive
    · rw [if_neg hx]
      exact hlive

/-- The loop, split behind iterations that complete, where the next does not. -/
theorem mem_benchmarkFrom_append (i : ℕ) (pre : List Instance) {x : Instance}
    (post : List Instance) (m : Memory) (hpre : ∀ y ∈ pre, y.completes = true)
    (hx : x.completes ≠ true) :
    (benchmarkFrom i (pre ++ x :: post) m).mem
      = (benchmarkOne (i + pre.length) x (benchmarkFrom i pre m).mem).mem := by
  induction pre generalizing i m with
  | nil =>
    rw [List.nil_append, benchmarkFrom_cons, if_neg hx]
    rfl
  | cons y pre ih =>
    obtain ⟨hy, hpre⟩ := List.forall_mem_cons.mp hpre
    rw [List.cons_append, benchmarkFrom_cons, benchmarkFrom_cons, if_pos hy, if_pos hy,
      List.length_cons, ← Nat.add_assoc, Nat.add_right_comm]
    exact ih (i + 1) _ hpre

/-- **The first iteration that leaves its document is all that is left of a
run.** -/
theorem leftBehind_benchmark {xs pre post : List Instance} {x : Instance} (m : Memory)
    (heq : xs = pre ++ x :: post) (hpre : ∀ y ∈ pre, y.completes = true) (hx : x.Leaves) :
    ∃ d, x.LeftBehind (benchmarkOne pre.length x (benchmark pre m).mem).log m
      (benchmark xs m).mem d := by
  have hnot : ¬ Reaches pre Instance.Leaves := by
    rintro ⟨pre', y, post', rfl, -, hy⟩
    have hcompletes := hpre y (List.mem_append_right pre' List.mem_cons_self)
    exact Instance.not_leaves_of_completes hcompletes hy
  have hlive : (benchmark pre m).mem.heap.live = m.heap.live := live_benchmarkFrom 0 pre m hnot
  have hmem : (benchmark xs m).mem = (benchmarkOne pre.length x (benchmark pre m).mem).mem := by
    rw [heq, ← Nat.zero_add pre.length]
    exact mem_benchmarkFrom_append 0 pre post m hpre
      fun hcompletes => Instance.not_leaves_of_completes hcompletes hx
  obtain ⟨d, hleft⟩ := leftBehind_benchmarkOne x (benchmark pre m).mem pre.length hx
  refine ⟨d, hmem ▸ hleft.handle, hleft.created, hleft.kept, hlive ▸ hleft.fresh, ?_, ?_⟩
  · rw [← hlive, hmem]
    exact hleft.alone
  · rw [← hlive, hmem]
    exact hleft.text

/-- **A run leaves the heap as it finds it exactly if no iteration is reached
that leaves its document**; and if one is, then that document is left, to which
the handle of that adapter still points, and nothing else but the text of a
`print()` of yyjson that throws. -/
theorem benchmark_heap (xs : List Instance) (m : Memory) :
    ((benchmark xs m).mem.heap.live = m.heap.live ↔ ¬ Reaches xs Instance.Leaves) ∧
      ∀ pre x post, xs = pre ++ x :: post → (∀ y ∈ pre, y.completes = true) → x.Leaves →
        ∃ d, x.LeftBehind (benchmarkOne pre.length x (benchmark pre m).mem).log m
          (benchmark xs m).mem d := by
  refine ⟨⟨?_, live_benchmarkFrom 0 xs m⟩, fun pre x post => leftBehind_benchmark m⟩
  rintro hsame ⟨pre, x, post, heq, hpre, hx⟩
  obtain ⟨d, hleft⟩ := leftBehind_benchmark m heq hpre hx
  refine hleft.fresh (hsame ▸ ?_)
  by_cases htext : x.LeavesText
  · obtain ⟨b, -, -, hlive⟩ := hleft.text htext
    rw [hlive]
    exact Finset.mem_insert_of_mem (Finset.mem_insert_self _ _)
  · rw [hleft.alone htext]
    exact Finset.mem_insert_self _ _

/-! ## The handles -/

/-- **What a complete round does to the handles**: it sets its own to null, and
in yyjson to the document that it released. -/
theorem localObj_benchmarkOne (i : ℕ) {x : Instance} (m : Memory) (h : x.completes = true) :
    ∃ d : Document, d.object = m.heap.next + 1 ∧ (benchmarkOne i x m).mem.localObj
      = Function.update m.localObj x.impl (if x.impl = .yyjson then some d else none) := by
  obtain ⟨hprinted, hfinish⟩ := Bool.and_eq_true_iff.mp h
  obtain ⟨err, herr⟩ := x.parse_of_parsed (Bool.and_eq_true_iff.mp hprinted).1
  have hok : x.finish = .ok () := by
    cases hx : x.finish with
    | ok u => rfl
    | error e =>
      rw [hx] at hfinish
      exact absurd hfinish Bool.false_ne_true
  refine ⟨⟨m.heap.next + 1, some (m.heap.next + 1)⟩, rfl, ?_⟩
  rw [benchmarkOne_of_printed i x m hprinted]
  show (x.finishes m).mem.localObj = _
  unfold Instance.finishes Instance.parses Instance.prepares
  rw [herr, hok]
  cases x.impl <;>
    simp [prepare, parse, finish, Memory.create, Effect.none, Memory.openInput]

/-- The list has an element of the adapter. -/
def Uses (xs : List Instance) (a : Adapter) : Prop := ∃ x ∈ xs, x.impl = a

theorem uses_cons (x : Instance) (xs : List Instance) (a : Adapter) :
    Uses (x :: xs) a ↔ x.impl = a ∨ Uses xs a := by
  simp [Uses]

/-- The state of a handle after a run in which every round completes. -/
structure HandleAfter (xs : List Instance) (m m' : Memory) (a : Adapter) : Prop where
  /-- An adapter that is not used keeps it. -/
  unused : ¬ Uses xs a → m'.localObj a = m.localObj a
  /-- One that is used has null. -/
  null : Uses xs a → a ≠ .yyjson → m'.localObj a = none
  /-- yyjson has a document that is gone. -/
  dangling : Uses xs a → a = .yyjson →
    ∃ d, m'.localObj a = some d ∧ d.object ∉ m'.heap.live

/-- A complete round in front of others. -/
theorem HandleAfter.cons {xs : List Instance} {m m' : Memory} {a : Adapter} (i : ℕ) {x : Instance}
    (hx : x.completes = true) (hlive : m'.heap.live = m.heap.live)
    (h : HandleAfter xs (benchmarkOne i x m).mem m' a) : HandleAfter (x :: xs) m m' a := by
  obtain ⟨d, hobject, hhandles⟩ := localObj_benchmarkOne i m hx
  by_cases hlater : Uses xs a
  · have huses : Uses (x :: xs) a := (uses_cons x xs a).mpr (Or.inr hlater)
    exact ⟨fun hnot => absurd huses hnot, fun _ => h.null hlater, fun _ => h.dangling hlater⟩
  · -- the handle is that of the round itself
    have hthis := h.unused hlater
    rw [hhandles] at hthis
    have huses : Uses (x :: xs) a ↔ x.impl = a := (uses_cons x xs a).trans (or_iff_left hlater)
    refine ⟨fun hne => ?_, fun hused hne => ?_, fun hused hyyjson => ⟨d, ?_, ?_⟩⟩
    · rwa [Function.update_of_ne (Ne.symm (mt huses.mpr hne))] at hthis
    · rwa [huses.mp hused, Function.update_self, if_neg hne] at hthis
    · rwa [huses.mp hused, Function.update_self, if_pos hyyjson] at hthis
    · rw [hlive, hobject]
      exact next_succ_notMem_live m

theorem benchmarkFrom_handles (i : ℕ) (xs : List Instance) (m : Memory) (a : Adapter)
    (h : (benchmarkFrom i xs m).ok = true) :
    (benchmarkFrom i xs m).mem.heap.live = m.heap.live ∧
      HandleAfter xs m (benchmarkFrom i xs m).mem a := by
  induction xs generalizing i m with
  | nil =>
    have hnone : ¬ Uses [] a := fun ⟨x, hx, _⟩ => absurd hx List.not_mem_nil
    exact ⟨rfl, fun _ => rfl, fun hused => absurd hused hnone, fun hused => absurd hused hnone⟩
  | cons x xs ih =>
    rw [benchmarkFrom_cons] at h ⊢
    by_cases hx : x.completes = true
    · rw [if_pos hx] at h ⊢
      obtain ⟨hlive, hafter⟩ := ih (i + 1) (benchmarkOne i x m).mem h
      have hone := live_benchmarkOne x m i (Instance.not_leaves_of_completes hx)
      exact ⟨hlive.trans hone, hafter.cons i hx (hlive.trans hone)⟩
    · rw [if_neg hx, ok_benchmarkOne] at h
      exact absurd h hx

/-- **After a run that succeeds** the heap is what it was, and every handle that
was used is null, except for that of yyjson, which points to a document that is
gone. -/
theorem benchmark_handles (xs : List Instance) (m : Memory) (h : (benchmark xs m).ok = true) :
    (benchmark xs m).mem.heap.live = m.heap.live ∧
      ∀ a, HandleAfter xs m (benchmark xs m).mem a :=
  ⟨(benchmarkFrom_handles 0 xs m .jsoncons h).1, fun a => (benchmarkFrom_handles 0 xs m a h).2⟩

/-- A run of two adapters, of which one keeps its pointer. -/
theorem benchmark_handles_yyjson :
    let xs : List Instance :=
      [⟨.jsoncons, .ok (), .ok (), .ok (true, ""), .ok (true, ""), .ok ()⟩,
        ⟨.yyjson, .ok (), .ok (), .ok (true, ""), .ok (true, ""), .ok ()⟩]
    (benchmark xs Memory.initial).mem.heap.live = Memory.initial.heap.live ∧
      ∀ a, HandleAfter xs Memory.initial (benchmark xs Memory.initial).mem a :=
  benchmark_handles _ Memory.initial rfl

end JsonBenchmarks
