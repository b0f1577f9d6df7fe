import JsonBenchmarks.BlockHeap
import Mathlib.Logic.Function.Basic

/-!
# The benchmark driver

The loop of `benchmark()` walks a list of adapters and, for each of them, opens
the devices and calls `prepare`, `parse`, `print` and `finish` in that order.
The adapters keep the parsed document in a static of their own source file,
which every instance of an adapter shares and which outlives the loop: the
driver never sees it, and only the adapter's `finish()` releases it.

What is modelled is that hidden state. A `Document` is what a handle points
at: the object that `finish()` frees, and the storage the document's data
lives in, which is the object itself for jsoncons and yyjson, the input
device for flatjson – its parser borrows the text – and the buffers of a
`simdjson::dom::parser` for simdjson, whose `dom::element` is a view. A call
of a virtual method is recorded with the handle and the heap it finds, so
that what a `print()` reads or a `finish()` frees can be judged afterwards,
over the whole run.

The outcome of every call is an input: a pair as the adapter returns it, or
the `what()` of an exception, which leaves the loop for the handler around
it. `false` in a pair leaves it too, by an early `return`.
-/

namespace JsonBenchmarks

open Heaps

/-- The adapters that `create_benchmarks()` instantiates. -/
inductive Adapter
  | jsoncons
  | flatjson
  | yyjson
  | simdjson
deriving DecidableEq

/-- The list `create_benchmarks()` returns. -/
def createBenchmarks : List Adapter :=
  [.jsoncons, .flatjson, .flatjson, .yyjson, .yyjson, .simdjson, .simdjson]

/-- The virtual methods the driver calls. -/
inductive Method
  | prepare
  | parse
  | print
  | finish
deriving DecidableEq

/-! ## Documents and handles -/

/-- **What a handle points at.** -/
structure Document where
  /-- The object `finish()` frees. -/
  object : Block
  /-- Where the document's data lives; nothing before there is a document. -/
  storage : Option Block
deriving DecidableEq

/-- The document can be read and released: its object and the storage its
data lives in are both live. -/
def Document.Backed (h : BlockHeap) (d : Document) : Prop :=
  d.object ∈ h.live ∧ ∃ b, d.storage = some b ∧ b ∈ h.live

/-- A document comes into being, or is released. -/
inductive DocOp
  | created (b : Block)
  | released (b : Block)
deriving DecidableEq

/-- The memory the adapters share: the heap, and the static `local_obj` of
each adapter's source file, `none` being the null pointer. -/
structure Memory where
  /-- The blocks of the process. -/
  heap : BlockHeap
  /-- The static handle of each adapter. -/
  localObj : Adapter → Option Document

/-- What a call does: the memory it leaves, and the documents it creates and
releases on the way. -/
structure Effect where
  /-- The memory after the call. -/
  mem : Memory
  /-- The documents created and released, in order. -/
  log : List DocOp

/-- A call that touches nothing. -/
def Effect.none (m : Memory) : Effect := ⟨m, []⟩

/-- `local_obj = new …`: a fresh object behind the adapter's handle, its data
in `storage` of the block the object got. -/
def Memory.create (m : Memory) (a : Adapter) (storage : Block → Option Block) :
    Effect where
  mem :=
    { heap := m.heap.alloc
      localObj := Function.update m.localObj a
        (some ⟨m.heap.next, storage m.heap.next⟩) }
  log := [.created m.heap.next]

/-! ## The methods of the adapters -/

/-- `prepare()`. The only statement with an effect is the one that makes the
object, so an exception comes from the allocation and leaves the handle as it
was. `input` is the block of the input device. -/
def prepare (a : Adapter) (input : Block) (r : Except String Unit) (m : Memory) :
    Effect :=
  match r with
  | .error _ => Effect.none m
  | .ok () =>
    match a with
    | .jsoncons => m.create a some
    | .flatjson => m.create a (fun _ => some input)
    | .yyjson => Effect.none m
    | .simdjson => m.create a (fun _ => none)

/-- `parse()`. jsoncons assigns into the object that `prepare()` made and
flatjson fills the tokens of its parser; yyjson makes the document here, and
has the null pointer where it fails; simdjson parses with a local
`dom::parser`, to whose buffers the element is tied on success and which are
released when the method is left. -/
def parse (a : Adapter) (r : Except String (Bool × String)) (m : Memory) : Effect :=
  match a with
  | .jsoncons => Effect.none m
  | .flatjson => Effect.none m
  | .yyjson =>
    match r with
    | .ok (true, _) => m.create a some
    | _ => Effect.none { m with localObj := Function.update m.localObj a none }
  | .simdjson =>
    { mem :=
        { heap := m.heap.alloc.free m.heap.next
          localObj :=
            match r with
            | .ok (true, _) => Function.update m.localObj a
                ((m.localObj a).map (fun d => { d with storage := some m.heap.next }))
            | _ => m.localObj }
      log := [.created m.heap.next, .released m.heap.next] }

/-- `print()` reads the document and changes no handle. yyjson frees its text
behind the assignment that takes it to the device, so the text is left where the
assignment throws. -/
def print (a : Adapter) (r : Except String (Bool × String)) (m : Memory) : Effect :=
  match r with
  | .ok _ => Effect.none m
  | .error _ => Effect.none (if a = .yyjson then { m with heap := m.heap.alloc } else m)

/-- `finish()` frees the object – a null handle is left alone – and resets
the handle, except in yyjson, which keeps the pointer. A `delete` whose
destructor throws has released the object all the same, and skips the
reset. -/
def finish (a : Adapter) (r : Except String Unit) (m : Memory) : Effect :=
  match m.localObj a with
  | none => Effect.none m
  | some d =>
    { mem :=
        { heap := m.heap.free d.object
          localObj :=
            match a, r with
            | .yyjson, _ => m.localObj
            | _, .error _ => m.localObj
            | _, .ok () => Function.update m.localObj a none }
      log := [.released d.object] }

/-! ## The driver -/

/-- **One element of the list of implementations**, with the outcome of every
call the driver makes for it. -/
structure Instance where
  /-- The adapter. -/
  impl : Adapter
  /-- `create_io()` and the `reserve()` on the output device. -/
  createIo : Except String Unit
  /-- `prepare()`, which returns nothing. -/
  prepare : Except String Unit
  /-- `parse()`. -/
  parse : Except String (Bool × String)
  /-- `print()`. -/
  print : Except String (Bool × String)
  /-- `finish()`, which returns nothing. -/
  finish : Except String Unit

/-- A record of a call: which element of the list it was made for, whether it
came back rather than throw, and the handle and the heap it found. -/
structure Call where
  /-- The position in the list of implementations. -/
  index : ℕ
  /-- The adapter. -/
  impl : Adapter
  /-- The method. -/
  method : Method
  /-- Whether the call returned. -/
  completed : Bool
  /-- The adapter's handle when the call is made. -/
  found : Option Document
  /-- The heap when the call is made. -/
  heap : BlockHeap

/-- The outcome of a run: the memory it leaves, the calls made, the documents
created and released, and whether `benchmark()` returns true. -/
structure Run where
  /-- The memory at the end. -/
  mem : Memory
  /-- The calls, in order. -/
  calls : List Call
  /-- The documents created and released, in order. -/
  log : List DocOp
  /-- The value returned. -/
  ok : Bool

/-- The record of a call of `x`'s method made in the memory `m`. -/
def Instance.call {α : Type} (x : Instance) (i : ℕ) (meth : Method)
    (r : Except String α) (m : Memory) : Call :=
  ⟨i, x.impl, meth, r.isOk, m.localObj x.impl, m.heap⟩

/-- The devices of an iteration are opened: the input device's storage is
allocated. -/
def Memory.openInput (m : Memory) : Memory := { m with heap := m.heap.alloc }

/-- The devices go out of scope, however the iteration is left. -/
def Memory.closeInput (m : Memory) (input : Block) : Memory :=
  { m with heap := m.heap.free input }

/-- **One iteration of the loop.** -/
def benchmarkOne (i : ℕ) (x : Instance) (m : Memory) : Run :=
  match x.createIo with
  | .error _ => ⟨m, [], [], false⟩
  | .ok () =>
    let input := m.heap.next
    let m₀ := m.openInput
    let e₁ := prepare x.impl input x.prepare m₀
    let c₁ := x.call i .prepare x.prepare m₀
    match x.prepare with
    | .error _ => ⟨e₁.mem.closeInput input, [c₁], e₁.log, false⟩
    | .ok () =>
      let e₂ := parse x.impl x.parse e₁.mem
      let c₂ := x.call i .parse x.parse e₁.mem
      match x.parse with
      -- an exception, and the early return on an error pair
      | .error _ | .ok (false, _) =>
        ⟨e₂.mem.closeInput input, [c₁, c₂], e₁.log ++ e₂.log, false⟩
      | .ok (true, _) =>
        let e₃ := print x.impl x.print e₂.mem
        let c₃ := x.call i .print x.print e₂.mem
        match x.print with
        | .error _ | .ok (false, _) =>
          ⟨e₃.mem.closeInput input, [c₁, c₂, c₃], e₁.log ++ e₂.log ++ e₃.log, false⟩
        | .ok (true, _) =>
          let e₄ := finish x.impl x.finish e₃.mem
          let c₄ := x.call i .finish x.finish e₃.mem
          ⟨e₄.mem.closeInput input, [c₁, c₂, c₃, c₄],
            e₁.log ++ e₂.log ++ e₃.log ++ e₄.log, x.finish.isOk⟩

/-- **The loop of `benchmark()`**, from the element with position `i` on: the
first iteration that is left early, or thrown out of, is the last. -/
def benchmarkFrom : ℕ → List Instance → Memory → Run
  | _, [], m => ⟨m, [], [], true⟩
  | i, x :: xs, m =>
    let r := benchmarkOne i x m
    if r.ok then
      let r' := benchmarkFrom (i + 1) xs r.mem
      ⟨r'.mem, r.calls ++ r'.calls, r.log ++ r'.log, r'.ok⟩
    else r

/-- The loop of `benchmark()`, entered with the memory `m`. What the function
writes to its report is left to `benchmarkReport`; it comes before the loop, and
the name of the system that it tells may throw. -/
def benchmark (xs : List Instance) (m : Memory) : Run := benchmarkFrom 0 xs m

/-- The memory of a process that has not run an adapter yet: every static
handle is null. -/
def Memory.initial : Memory := ⟨BlockHeap.empty, fun _ => none⟩

/-! ## How far an iteration gets -/

/-- The pair an adapter returns for success. -/
def returnedTrue : Except String (Bool × String) → Bool
  | .ok (true, _) => true
  | _ => false

namespace Instance

/-- The iteration gets past `prepare()`. -/
def prepared (x : Instance) : Bool := x.createIo.isOk && x.prepare.isOk

/-- The iteration gets past `parse()`, so that `print()` is called. -/
def parsed (x : Instance) : Bool := x.prepared && returnedTrue x.parse

/-- The iteration gets past `print()`, so that `finish()` is called. -/
def printed (x : Instance) : Bool := x.parsed && returnedTrue x.print

/-- The iteration runs to its end, so that the next one is entered. -/
def completes (x : Instance) : Bool := x.printed && x.finish.isOk

end Instance

/-- **The iteration `p` is reached**: every iteration before it runs to its
end. -/
def Reaches (xs : List Instance) (p : Instance → Prop) : Prop :=
  ∃ pre x post, xs = pre ++ x :: post ∧ (∀ y ∈ pre, y.completes = true) ∧ p x

/-- Reaching is decided from the front: the first iteration is the one, or it
completes and the rest reaches it. -/
theorem reaches_cons (x : Instance) (xs : List Instance) (p : Instance → Prop) :
    Reaches (x :: xs) p ↔ p x ∨ (x.completes = true ∧ Reaches xs p) := by
  constructor
  · rintro ⟨pre, y, post, heq, hpre, hy⟩
    cases pre with
    | nil =>
      obtain ⟨rfl, -⟩ := List.cons.inj heq
      exact Or.inl hy
    | cons z pre =>
      obtain ⟨rfl, rfl⟩ := List.cons.inj heq
      exact Or.inr ⟨hpre x List.mem_cons_self, pre, y, post, rfl,
        fun w hw => hpre w (List.mem_cons_of_mem _ hw), hy⟩
  · rintro (hx | ⟨hx, pre, y, post, rfl, hpre, hy⟩)
    · exact ⟨[], x, xs, rfl, fun y hy => absurd hy List.not_mem_nil, hx⟩
    · refine ⟨x :: pre, y, post, rfl, fun w hw => ?_, hy⟩
      rcases List.mem_cons.mp hw with rfl | hw
      · exact hx
      · exact hpre w hw

/-- Nothing is reached in an empty list. -/
theorem not_reaches_nil (p : Instance → Prop) : ¬ Reaches [] p := by
  rintro ⟨pre, x, post, heq, -⟩
  exact List.cons_ne_nil _ _ (List.append_eq_nil_iff.mp heq.symm).2

/-! ## What an iteration does -/

namespace Instance

/-- What a `prepare()` that returns does, in an iteration entered with `m`. -/
def prepares (x : Instance) (m : Memory) : Effect :=
  JsonBenchmarks.prepare x.impl m.heap.next (.ok ()) m.openInput

/-- What the `parse()` after it does. -/
def parses (x : Instance) (m : Memory) : Effect :=
  JsonBenchmarks.parse x.impl x.parse (x.prepares m).mem

/-- What the `print()` after them does. -/
def prints (x : Instance) (m : Memory) : Effect :=
  JsonBenchmarks.print x.impl x.print (x.parses m).mem

/-- What the `finish()` does that comes after a `print()` that returns. -/
def finishes (x : Instance) (m : Memory) : Effect :=
  JsonBenchmarks.finish x.impl x.finish (x.parses m).mem

/-- An iteration that gets past `parse()` got a pair from it. -/
theorem parse_of_parsed (x : Instance) (h : x.parsed = true) :
    ∃ err, x.parse = .ok (true, err) := by
  have hret := (Bool.and_eq_true_iff.mp h).2
  unfold returnedTrue at hret
  split at hret
  · exact ⟨_, ‹_›⟩
  · cases hret

end Instance

/-- **The five ways an iteration can go**: it ends where the devices are
opened, in `prepare()`, in `parse()` or in `print()`, or it calls all four
methods. -/
theorem benchmarkOne_cases (i : ℕ) (x : Instance) (m : Memory) :
    (x.createIo.isOk = false ∧ benchmarkOne i x m = ⟨m, [], [], false⟩)
    ∨ (x.createIo.isOk = true ∧ x.prepare.isOk = false ∧ benchmarkOne i x m
        = ⟨m.openInput.closeInput m.heap.next,
          [x.call i .prepare x.prepare m.openInput], [], false⟩)
    ∨ (x.prepared = true ∧ returnedTrue x.parse = false ∧ benchmarkOne i x m
        = ⟨(x.parses m).mem.closeInput m.heap.next,
          [x.call i .prepare x.prepare m.openInput,
            x.call i .parse x.parse (x.prepares m).mem],
          (x.prepares m).log ++ (x.parses m).log, false⟩)
    ∨ (x.parsed = true ∧ returnedTrue x.print = false ∧ benchmarkOne i x m
        = ⟨(x.prints m).mem.closeInput m.heap.next,
          [x.call i .prepare x.prepare m.openInput,
            x.call i .parse x.parse (x.prepares m).mem,
            x.call i .print x.print (x.parses m).mem],
          (x.prepares m).log ++ (x.parses m).log, false⟩)
    ∨ (x.printed = true ∧ benchmarkOne i x m
        = ⟨(x.finishes m).mem.closeInput m.heap.next,
          [x.call i .prepare x.prepare m.openInput,
            x.call i .parse x.parse (x.prepares m).mem,
            x.call i .print x.print (x.parses m).mem,
            x.call i .finish x.finish (x.parses m).mem],
          (x.prepares m).log ++ (x.parses m).log ++ (x.finishes m).log,
          x.finish.isOk⟩) := by
  rcases x with ⟨a, rcreate, rprepare, rparse, rprint, rfinish⟩
  rcases rcreate with e | ⟨⟨⟩⟩
  · exact Or.inl ⟨rfl, rfl⟩
  rcases rprepare with e | ⟨⟨⟩⟩
  · exact Or.inr (Or.inl ⟨rfl, rfl, rfl⟩)
  rcases rparse with e | ⟨_ | _, t⟩
  · exact Or.inr (Or.inr (Or.inl ⟨rfl, rfl, rfl⟩))
  · exact Or.inr (Or.inr (Or.inl ⟨rfl, rfl, rfl⟩))
  have hlog : ∀ l : List DocOp, l ++ [] = l := List.append_nil
  rcases rprint with e | ⟨_ | _, t'⟩
  · exact Or.inr (Or.inr (Or.inr (Or.inl ⟨rfl, rfl, congrArg (Run.mk _ _ · _) (hlog _)⟩)))
  · exact Or.inr (Or.inr (Or.inr (Or.inl ⟨rfl, rfl, congrArg (Run.mk _ _ · _) (hlog _)⟩)))
  · refine Or.inr (Or.inr (Or.inr (Or.inr ⟨rfl, ?_⟩)))
    exact congrArg (fun l => Run.mk _ _ (l ++ _) _) (hlog _)

/-- An iteration that gets past `print()` calls all four methods. -/
theorem benchmarkOne_of_printed (i : ℕ) (x : Instance) (m : Memory)
    (h : x.printed = true) :
    benchmarkOne i x m
      = ⟨(x.finishes m).mem.closeInput m.heap.next,
        [x.call i .prepare x.prepare m.openInput,
          x.call i .parse x.parse (x.prepares m).mem,
          x.call i .print x.print (x.parses m).mem,
          x.call i .finish x.finish (x.parses m).mem],
        (x.prepares m).log ++ (x.parses m).log ++ (x.finishes m).log,
        x.finish.isOk⟩ := by
  simp only [Instance.printed, Instance.parsed, Instance.prepared, Bool.and_eq_true] at h
  obtain ⟨⟨⟨hcreate, hprepare⟩, hparse⟩, hprint⟩ := h
  rcases benchmarkOne_cases i x m with ⟨h', -⟩ | ⟨-, h', -⟩ | ⟨-, h', -⟩ | ⟨-, h', -⟩ | ⟨-, hr⟩
  · exact absurd (hcreate.symm.trans h') Bool.noConfusion
  · exact absurd (hprepare.symm.trans h') Bool.noConfusion
  · exact absurd (hparse.symm.trans h') Bool.noConfusion
  · exact absurd (hprint.symm.trans h') Bool.noConfusion
  · exact hr

/-- The loop goes on exactly when the iteration completes. -/
theorem ok_benchmarkOne (i : ℕ) (x : Instance) (m : Memory) :
    (benchmarkOne i x m).ok = x.completes := by
  unfold Instance.completes
  rcases benchmarkOne_cases i x m with ⟨h, hr⟩ | ⟨-, h, hr⟩ | ⟨-, h, hr⟩ | ⟨-, h, hr⟩ | ⟨h, hr⟩
  · rw [hr]; simp [Instance.printed, Instance.parsed, Instance.prepared, h]
  · rw [hr]; simp [Instance.printed, Instance.parsed, Instance.prepared, h]
  · rw [hr]; simp [Instance.printed, Instance.parsed, h]
  · rw [hr]; simp [Instance.printed, h]
  · rw [hr, h, Bool.true_and]

/-- The loop, unfolded at its first iteration. -/
theorem benchmarkFrom_cons (i : ℕ) (x : Instance) (xs : List Instance) (m : Memory) :
    benchmarkFrom i (x :: xs) m
      = if x.completes then
          ⟨(benchmarkFrom (i + 1) xs (benchmarkOne i x m).mem).mem,
            (benchmarkOne i x m).calls
              ++ (benchmarkFrom (i + 1) xs (benchmarkOne i x m).mem).calls,
            (benchmarkOne i x m).log
              ++ (benchmarkFrom (i + 1) xs (benchmarkOne i x m).mem).log,
            (benchmarkFrom (i + 1) xs (benchmarkOne i x m).mem).ok⟩
        else benchmarkOne i x m := by
  rw [benchmarkFrom, ok_benchmarkOne]

end JsonBenchmarks
