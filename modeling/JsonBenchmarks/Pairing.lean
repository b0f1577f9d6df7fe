import JsonBenchmarks.Driver

/-!
# Pairing `prepare()` with `finish()`

The document outlives the loop that makes it – it hangs off a static – so
nothing but an explicit `finish()` releases it. A trace of calls is `Paired`
when every `prepare()` that came back is followed by exactly one `finish()`
for the same element of the list, before the next `prepare()` and before the
trace ends, and a log is `ReleasedOnce` when every document created in it is
released in it exactly once.

Both hold of an iteration that gets to `finish()`, and both hold trivially of
one that ends before `prepare()` comes back. In between lie the two early
returns and the exceptions of `parse()` and `print()`, and there the pairing
is lost: the loop is left with the document of that iteration still behind
its handle (`benchmark_paired_iff`).
-/

namespace JsonBenchmarks

open Heaps

/-- How many calls of `finish()` are made for the element `i` before the next
`prepare()`, or before the trace ends. -/
def finishesFor (i : ℕ) (cs : List Call) : ℕ :=
  (cs.takeWhile (fun c => c.method ≠ .prepare)).countP
    (fun c => c.method = .finish ∧ c.index = i)

/-- **Every `prepare()` that came back has its one `finish()`.** -/
def Paired : List Call → Prop
  | [] => True
  | c :: cs =>
    (c.method = .prepare → c.completed = true → finishesFor c.index cs = 1) ∧ Paired cs

/-- **Every document created is released exactly once.** -/
def ReleasedOnce (log : List DocOp) : Prop :=
  ∀ b, .created b ∈ log → log.count (.released b) = 1

/-- The iteration ends between `prepare()` and `finish()`: by the early
return on an error pair of `parse()` or `print()`, or by an exception of
either. -/
def Instance.Abandoned (x : Instance) : Prop := x.prepared = true ∧ x.printed = false

/-! ## The calls -/

/-- An iteration makes no call, or its first call is `prepare()`. -/
theorem calls_benchmarkOne (i : ℕ) (x : Instance) (m : Memory) :
    (benchmarkOne i x m).calls = []
      ∨ ∃ c cs, (benchmarkOne i x m).calls = c :: cs ∧ c.method = .prepare := by
  rcases benchmarkOne_cases i x m with ⟨-, hr⟩ | ⟨-, -, hr⟩ | ⟨-, -, hr⟩ | ⟨-, -, hr⟩ | ⟨-, hr⟩
  · exact Or.inl (congrArg Run.calls hr)
  all_goals exact Or.inr ⟨_, _, congrArg Run.calls hr, rfl⟩

/-- The count goes on to the next `prepare()`. -/
theorem finishesFor_cons (i : ℕ) (c : Call) (cs : List Call) :
    finishesFor i (c :: cs)
      = if c.method = .prepare then 0
        else finishesFor i cs + if c.method = .finish ∧ c.index = i then 1 else 0 := by
  unfold finishesFor
  by_cases hc : c.method = .prepare
  · rw [if_pos hc, List.takeWhile_cons_of_neg (by simp [hc])]
    rfl
  · rw [if_neg hc, List.takeWhile_cons_of_pos (by simp [hc]), List.countP_cons]
    simp only [decide_eq_true_eq]

/-- A list of calls that is empty or opens with `prepare()` finishes nothing
that came before it. -/
theorem finishesFor_eq_zero {cs : List Call} (i : ℕ)
    (h : cs = [] ∨ ∃ c cs', cs = c :: cs' ∧ c.method = .prepare) :
    finishesFor i cs = 0 := by
  rcases h with rfl | ⟨c, cs', rfl, hc⟩
  · rfl
  · rw [finishesFor_cons, if_pos hc]

/-- The calls of the loop are such a list. -/
theorem calls_benchmarkFrom (i : ℕ) (xs : List Instance) (m : Memory) :
    (benchmarkFrom i xs m).calls = []
      ∨ ∃ c cs, (benchmarkFrom i xs m).calls = c :: cs ∧ c.method = .prepare := by
  cases xs with
  | nil => exact Or.inl rfl
  | cons x xs =>
    rw [benchmarkFrom_cons]
    split
    · next hx =>
      -- an iteration that completes has called `prepare()` first
      rcases calls_benchmarkOne i x m with hnil | ⟨c, cs, hcs, hc⟩
      · rcases calls_benchmarkFrom (i + 1) xs (benchmarkOne i x m).mem with h | ⟨c, cs, h, hc⟩
        · exact Or.inl (by simp only [hnil, h, List.append_nil])
        · exact Or.inr ⟨c, cs, by simp only [hnil, h, List.nil_append], hc⟩
      · refine Or.inr ⟨c, cs ++ (benchmarkFrom (i + 1) xs (benchmarkOne i x m).mem).calls, ?_, hc⟩
        simp only [hcs, List.cons_append]
    · exact calls_benchmarkOne i x m

/-- **One iteration**: its calls are paired unless it is abandoned. -/
theorem paired_benchmarkOne_iff (i : ℕ) (x : Instance) (m : Memory) :
    Paired (benchmarkOne i x m).calls ↔ ¬ x.Abandoned := by
  unfold Instance.Abandoned
  rcases benchmarkOne_cases i x m with
    ⟨h, hr⟩ | ⟨-, h, hr⟩ | ⟨hp, h, hr⟩ | ⟨hp, h, hr⟩ | ⟨h, hr⟩
  · rw [hr]; simp [Paired, Instance.prepared, h]
  · rw [hr]; simp [Paired, Instance.prepared, Instance.call, h]
  · have hprep : x.prepare.isOk = true := (Bool.and_eq_true_iff.mp hp).2
    rw [hr]
    simp [Paired, finishesFor, Instance.call, Instance.printed, Instance.parsed, hp, h,
      hprep]
  · have hprepared : x.prepared = true := (Bool.and_eq_true_iff.mp hp).1
    have hprep : x.prepare.isOk = true := (Bool.and_eq_true_iff.mp hprepared).2
    rw [hr]
    simp [Paired, finishesFor, Instance.call, Instance.printed, hprepared, h, hprep]
  · rw [hr]; simp [Paired, finishesFor, Instance.call, h]

/-- Behind an iteration that completes, the pairing of the rest decides. -/
theorem paired_append_iff (i : ℕ) (x : Instance) (m : Memory) (hx : x.completes = true)
    {cs : List Call} (hcs : cs = [] ∨ ∃ c cs', cs = c :: cs' ∧ c.method = .prepare) :
    Paired ((benchmarkOne i x m).calls ++ cs) ↔ Paired cs := by
  have hprinted : x.printed = true := (Bool.and_eq_true_iff.mp hx).1
  rw [benchmarkOne_of_printed i x m hprinted]
  -- the one `finish()` is in the iteration itself, and `cs` adds none to it
  simp [Paired, finishesFor_cons, Instance.call, finishesFor_eq_zero i hcs]

/-- The whole loop, from any position and any memory. -/
theorem paired_benchmarkFrom_iff (i : ℕ) (xs : List Instance) (m : Memory) :
    Paired (benchmarkFrom i xs m).calls ↔ ¬ Reaches xs Instance.Abandoned := by
  induction xs generalizing i m with
  | nil => exact iff_of_true trivial (not_reaches_nil _)
  | cons x xs ih =>
    rw [benchmarkFrom_cons, reaches_cons, not_or, ← paired_benchmarkOne_iff i x m]
    by_cases hx : x.completes = true
    · have hone : Paired (benchmarkOne i x m).calls := by
        rw [paired_benchmarkOne_iff]
        have hprinted : x.printed = true := (Bool.and_eq_true_iff.mp hx).1
        exact fun h => Bool.noConfusion (hprinted.symm.trans h.2)
      rw [if_pos hx, paired_append_iff i x m hx (calls_benchmarkFrom _ _ _), ih]
      simp only [hone, hx, true_and]
    · rw [if_neg hx]
      exact (and_iff_left (fun h => hx h.1)).symm

/-! ## The documents -/

/-- The block an entry of the log is about. -/
def DocOp.block : DocOp → Block
  | .created b => b
  | .released b => b

@[simp] theorem DocOp.block_created (b : Block) : (DocOp.created b).block = b := rfl

@[simp] theorem DocOp.block_released (b : Block) : (DocOp.released b).block = b := rfl

/-- **Two logs about different blocks**: if each releases once what it
creates, so does the one after the other. -/
theorem ReleasedOnce.append {k : Block} {l₁ l₂ : List DocOp}
    (h₁ : ReleasedOnce l₁) (h₂ : ReleasedOnce l₂)
    (hlt : ∀ o ∈ l₁, o.block < k) (hge : ∀ o ∈ l₂, k ≤ o.block) :
    ReleasedOnce (l₁ ++ l₂) := by
  intro b hb
  rw [List.count_append]
  rcases List.mem_append.mp hb with hb | hb
  · have hnot : DocOp.released b ∉ l₂ :=
      fun h => absurd (hlt (.created b) hb) (not_lt.mpr (hge (.released b) h))
    rw [h₁ b hb, List.count_eq_zero_of_not_mem hnot]
  · have hnot : DocOp.released b ∉ l₁ :=
      fun h => absurd (hlt (.released b) h) (not_lt.mpr (hge (.created b) hb))
    rw [h₂ b hb, List.count_eq_zero_of_not_mem hnot]

/-- **What an iteration logs that calls all four methods**: simdjson's parser
is created and released in `parse()`, inside the life of the element; the
other adapters have one document. The number before theirs is the input
device's. -/
theorem log_of_printed (x : Instance) (m : Memory) (h : x.printed = true) :
    (x.prepares m).log ++ (x.parses m).log ++ (x.finishes m).log
      = match x.impl with
        | .simdjson => [.created (m.heap.next + 1), .created (m.heap.next + 2),
            .released (m.heap.next + 2), .released (m.heap.next + 1)]
        | _ => [.created (m.heap.next + 1), .released (m.heap.next + 1)] := by
  obtain ⟨err, herr⟩ := x.parse_of_parsed (Bool.and_eq_true_iff.mp h).1
  unfold Instance.finishes Instance.parses Instance.prepares
  rw [herr]
  cases x.impl <;>
    simp [prepare, parse, finish, Memory.create, Effect.none, Memory.openInput]

/-- … and the number the next block gets after it. -/
theorem next_of_printed (x : Instance) (m : Memory) (h : x.printed = true) :
    (x.finishes m).mem.heap.next
      = match x.impl with
        | .simdjson => m.heap.next + 3
        | _ => m.heap.next + 2 := by
  obtain ⟨err, herr⟩ := x.parse_of_parsed (Bool.and_eq_true_iff.mp h).1
  unfold Instance.finishes Instance.parses Instance.prepares
  rw [herr]
  cases x.impl <;>
    simp [prepare, parse, finish, Memory.create, Effect.none, Memory.openInput]

/-- Numbers are handed out upwards, from one iteration to the next. -/
theorem next_le_of_completes (i : ℕ) (x : Instance) (m : Memory)
    (hx : x.completes = true) :
    m.heap.next ≤ (benchmarkOne i x m).mem.heap.next := by
  have hp : x.printed = true := (Bool.and_eq_true_iff.mp hx).1
  rw [benchmarkOne_of_printed i x m hp]
  simp only [Memory.closeInput, BlockHeap.next_free, next_of_printed x m hp]
  cases x.impl <;> simp

/-- An iteration that is not abandoned calls all four methods or logs
nothing. -/
theorem log_of_not_abandoned (i : ℕ) (x : Instance) (m : Memory) (h : ¬ x.Abandoned) :
    x.printed = true ∨ (benchmarkOne i x m).log = [] := by
  rcases benchmarkOne_cases i x m with ⟨-, hr⟩ | ⟨-, -, hr⟩ | ⟨hp, hf, -⟩ | ⟨hp, hf, -⟩ | ⟨hp, -⟩
  · exact Or.inr (congrArg Run.log hr)
  · exact Or.inr (congrArg Run.log hr)
  · exact absurd ⟨hp, by simp [Instance.printed, Instance.parsed, hf]⟩ h
  · exact absurd ⟨(Bool.and_eq_true_iff.mp hp).1, by simp [Instance.printed, hf]⟩ h
  · exact Or.inl hp

/-- What such an iteration logs is about blocks handed out in it. -/
theorem block_of_mem_log (i : ℕ) (x : Instance) (m : Memory) (h : ¬ x.Abandoned) :
    ∀ o ∈ (benchmarkOne i x m).log,
      m.heap.next ≤ o.block ∧ o.block < (benchmarkOne i x m).mem.heap.next := by
  rcases log_of_not_abandoned i x m h with hp | hnil
  · rw [benchmarkOne_of_printed i x m hp]
    simp only [log_of_printed x m hp, Memory.closeInput, BlockHeap.next_free,
      next_of_printed x m hp]
    cases x.impl <;> simp
  · rw [hnil]
    exact fun o ho => absurd ho List.not_mem_nil

/-- **One iteration** releases once what it creates, unless it is
abandoned. -/
theorem releasedOnce_benchmarkOne (i : ℕ) (x : Instance) (m : Memory)
    (h : ¬ x.Abandoned) : ReleasedOnce (benchmarkOne i x m).log := by
  rcases log_of_not_abandoned i x m h with hp | hnil
  · rw [benchmarkOne_of_printed i x m hp]
    simp only [log_of_printed x m hp, ReleasedOnce]
    cases x.impl <;> simp
  · rw [hnil]
    exact fun b hb => absurd hb List.not_mem_nil

/-- The whole loop: what is created is released once, and is about blocks
handed out in the loop. -/
theorem releasedOnce_benchmarkFrom (i : ℕ) (xs : List Instance) (m : Memory)
    (h : ¬ Reaches xs Instance.Abandoned) :
    ReleasedOnce (benchmarkFrom i xs m).log
      ∧ ∀ o ∈ (benchmarkFrom i xs m).log, m.heap.next ≤ o.block := by
  induction xs generalizing i m with
  | nil => exact ⟨fun b hb => absurd hb List.not_mem_nil, fun o ho => absurd ho List.not_mem_nil⟩
  | cons x xs ih =>
    rw [reaches_cons, not_or, not_and] at h
    have hone := releasedOnce_benchmarkOne i x m h.1
    have hblock := block_of_mem_log i x m h.1
    rw [benchmarkFrom_cons]
    by_cases hx : x.completes = true
    · obtain ⟨hrest, hge⟩ := ih (i + 1) (benchmarkOne i x m).mem (h.2 hx)
      have hnext := next_le_of_completes i x m hx
      rw [if_pos hx]
      refine ⟨hone.append hrest (fun o ho => (hblock o ho).2) hge, fun o ho => ?_⟩
      rcases List.mem_append.mp ho with ho | ho
      · exact (hblock o ho).1
      · exact hnext.trans (hge o ho)
    · rw [if_neg hx]
      exact ⟨hone, fun o ho => (hblock o ho).1⟩

/-- **Every completed `prepare()` has its one `finish()`, and every document
is released once, exactly when no iteration is abandoned between the two.**
The list of implementations is any, and so is the memory the run starts
from. -/
theorem benchmark_paired_iff (xs : List Instance) (m : Memory) :
    (Paired (benchmark xs m).calls ∧ ReleasedOnce (benchmark xs m).log)
      ↔ ¬ Reaches xs Instance.Abandoned := by
  unfold benchmark
  rw [paired_benchmarkFrom_iff]
  exact and_iff_left_of_imp (fun h => (releasedOnce_benchmarkFrom 0 xs m h).1)

/-- **A failed `parse()` leaves the document behind**: one jsoncons iteration
whose input is malformed is enough. -/
theorem jsoncons_not_paired :
    ¬ (Paired (benchmark [⟨.jsoncons, .ok (), .ok (), .ok (false, "syntax error"),
          .ok (true, ""), .ok ()⟩] Memory.initial).calls
      ∧ ReleasedOnce (benchmark [⟨.jsoncons, .ok (), .ok (), .ok (false, "syntax error"),
          .ok (true, ""), .ok ()⟩] Memory.initial).log) := by
  rintro ⟨⟨hpair, -⟩, -⟩
  exact absurd (hpair rfl rfl) (by decide)

end JsonBenchmarks
