import Mathlib.Algebra.BigOperators.Group.Finset.Basic
import Mathlib.Data.Finset.Card
import Mathlib.Tactic

/-!
# Heaps of blocks

What an allocator promises, and nothing about how it keeps the promise: it
hands out blocks, takes them back, and never has two live blocks at one
address. Blocks are numbered here in the order in which they are handed
out, so a number names one block for good – an address that malloc reuses is
a new number – and "this block was freed earlier" can be said at all.

`BlockHeap.run` replays a history of allocations and releases, and is
undefined at the first release of a block that is not live.

The one quantitative fact is the balance of a run (`sum_live_add_released`):
what is live afterwards and what was released weigh together what was live
before and what was allocated, for any weight on blocks. Weight one counts
blocks and the size of a block counts bytes, so the two books an accountant
of leaks keeps are two instances of one lemma. `sum_born_add_released` splits
the balance at the start of the run: the blocks born in it and still live
against those that existed before and are gone.
-/

namespace Heaps

/-- A block, by its number in the order of allocation. -/
abbrev Block := ℕ

/-- **A heap**: the blocks that are live, and the number of the next one. -/
structure BlockHeap where
  /-- The number the next block handed out will get. -/
  next : Block
  /-- The blocks handed out and not yet released. -/
  live : Finset Block
  /-- Only blocks that were handed out are live. -/
  live_lt : ∀ b ∈ live, b < next
deriving DecidableEq

namespace BlockHeap

/-- The heap before any allocation. -/
def empty : BlockHeap := ⟨0, ∅, fun _ h => absurd h (Finset.notMem_empty _)⟩

/-- Handing out the block `h.next`. -/
def alloc (h : BlockHeap) : BlockHeap where
  next := h.next + 1
  live := insert h.next h.live
  live_lt := fun b hb => by
    rcases Finset.mem_insert.mp hb with rfl | hb
    · exact Nat.lt_succ_self _
    · exact Nat.lt_succ_of_lt (h.live_lt b hb)

/-- Taking the block `b` back. -/
def free (h : BlockHeap) (b : Block) : BlockHeap where
  next := h.next
  live := h.live.erase b
  live_lt := fun c hc => h.live_lt c (Finset.mem_of_mem_erase hc)

@[simp] theorem next_alloc (h : BlockHeap) : h.alloc.next = h.next + 1 := rfl

@[simp] theorem next_free (h : BlockHeap) (b : Block) : (h.free b).next = h.next := rfl

@[simp] theorem mem_live_alloc (h : BlockHeap) (b : Block) :
    b ∈ h.alloc.live ↔ b = h.next ∨ b ∈ h.live := Finset.mem_insert

@[simp] theorem mem_live_free (h : BlockHeap) (b c : Block) :
    c ∈ (h.free b).live ↔ c ≠ b ∧ c ∈ h.live := Finset.mem_erase

/-- The next block is not live yet. -/
theorem next_notMem_live (h : BlockHeap) : h.next ∉ h.live :=
  fun hb => lt_irrefl _ (h.live_lt _ hb)

/-! ## Histories -/

/-- What a program asks of its allocator. -/
inductive Op
  /-- A block is handed out. -/
  | alloc
  /-- The block `b` is given back. -/
  | free (b : Block)
deriving DecidableEq

/-- One request; giving back a block that is not live has no meaning. -/
def step (h : BlockHeap) : Op → Option BlockHeap
  | .alloc => some h.alloc
  | .free b => if b ∈ h.live then some (h.free b) else none

/-- A history of requests, in order. -/
def run : BlockHeap → List Op → Option BlockHeap
  | h, [] => some h
  | h, o :: os => (h.step o).bind (fun h' => h'.run os)

/-- **What one request can do**: hand out the next block, or take back a
live one. -/
theorem step_cases {h h' : BlockHeap} {o : Op} (hs : h.step o = some h') :
    (o = .alloc ∧ h' = h.alloc) ∨ (∃ b ∈ h.live, o = .free b ∧ h' = h.free b) := by
  cases o with
  | alloc => exact Or.inl ⟨rfl, (Option.some.inj hs).symm⟩
  | free b =>
    rw [step] at hs
    split at hs
    · next hb => exact Or.inr ⟨b, hb, rfl, (Option.some.inj hs).symm⟩
    · cases hs

/-- The first request of a run succeeds and the others run from there. -/
theorem run_cons {h h' : BlockHeap} {o : Op} {os : List Op} :
    h.run (o :: os) = some h' ↔ ∃ h₁, h.step o = some h₁ ∧ h₁.run os = some h' :=
  Option.bind_eq_some_iff

/-- **Run induction.** A relation between the two ends of a run that is
reflexive and survives one more request in front holds of every run. -/
theorem run_induction {P : BlockHeap → List Op → BlockHeap → Prop}
    (nil : ∀ h, P h [] h)
    (alloc : ∀ h os h', h.alloc.run os = some h' → P h.alloc os h' →
      P h (.alloc :: os) h')
    (free : ∀ h b os h', b ∈ h.live → (h.free b).run os = some h' →
      P (h.free b) os h' → P h (.free b :: os) h')
    {h h' : BlockHeap} {os : List Op} (hr : h.run os = some h') : P h os h' := by
  induction os generalizing h with
  | nil =>
    obtain rfl := Option.some.inj hr
    exact nil h
  | cons o os ih =>
    obtain ⟨h₁, hs, hr₁⟩ := run_cons.mp hr
    rcases step_cases hs with ⟨rfl, rfl⟩ | ⟨b, hb, rfl, rfl⟩
    · exact alloc h os h' hr₁ (ih hr₁)
    · exact free h b os h' hb hr₁ (ih hr₁)

/-- **An old block is live afterwards only if it was live before**: no run
revives a number that was already handed out. -/
theorem mem_live_of_run {h h' : BlockHeap} {os : List Op} (hr : h.run os = some h')
    {b : Block} (hb : b < h.next) (hl : b ∈ h'.live) : b ∈ h.live := by
  revert hb hl
  refine run_induction (P := fun h _ h' => b < h.next → b ∈ h'.live → b ∈ h.live)
    (fun _ _ hl => hl) ?_ ?_ hr
  · intro h os h' _ ih hb hl
    rcases (mem_live_alloc h b).mp (ih (Nat.lt_succ_of_lt hb) hl) with rfl | hm
    · exact absurd hb (lt_irrefl _)
    · exact hm
  · intro h c os h' _ _ ih hb hl
    exact ((mem_live_free h c b).mp (ih hb hl)).2

/-- **A block is live after a run exactly if the run does not release it.** -/
theorem mem_live_iff_of_run {h h' : BlockHeap} {os : List Op} (hr : h.run os = some h')
    {b : Block} (hb : b ∈ h.live) : b ∈ h'.live ↔ .free b ∉ os := by
  revert hb
  refine run_induction (P := fun h os h' => b ∈ h.live → (b ∈ h'.live ↔ .free b ∉ os))
    (fun _ hb => iff_of_true hb List.not_mem_nil) ?_ ?_ hr
  · intro h os h' _ ih hb
    rw [ih ((mem_live_alloc h b).mpr (Or.inr hb))]
    simp
  · intro h c os h' _ hr' ih hb
    by_cases hbc : b = c
    · -- a released number is not handed out again
      subst hbc
      refine iff_of_false (fun hl => ?_) (fun hnot => hnot List.mem_cons_self)
      have hlive := mem_live_of_run hr' (h.live_lt b hb) hl
      exact ((mem_live_free h b b).mp hlive).1 rfl
    · rw [ih ((mem_live_free h c b).mpr ⟨hbc, hb⟩)]
      simp [hbc]

/-! ## The balance of a run -/

section Balance

variable (w : Block → ℕ)

/-- The weight of what a history allocates, the first block getting the
number `n`. -/
def allocatedFrom : Block → List Op → ℕ
  | _, [] => 0
  | n, .alloc :: os => w n + allocatedFrom (n + 1) os
  | n, .free _ :: os => allocatedFrom n os

/-- The weight of what a history releases. -/
def released : List Op → ℕ
  | [] => 0
  | .alloc :: os => released os
  | .free b :: os => w b + released os

/-- The number the next block gets after a history. -/
def nextAfter : Block → List Op → Block
  | n, [] => n
  | n, .alloc :: os => nextAfter (n + 1) os
  | n, .free _ :: os => nextAfter n os

/-- Allocations of consecutive histories add up. -/
theorem allocatedFrom_append (n : Block) (os os' : List Op) :
    allocatedFrom w n (os ++ os')
      = allocatedFrom w n os + allocatedFrom w (nextAfter n os) os' := by
  induction os generalizing n with
  | nil => exact (Nat.zero_add _).symm
  | cons o os ih =>
    cases o with
    | alloc =>
      rw [List.cons_append, allocatedFrom, allocatedFrom, ih, nextAfter, add_assoc]
    | free b => exact ih n

/-- Releases of consecutive histories add up. -/
theorem released_append (os os' : List Op) :
    released w (os ++ os') = released w os + released w os' := by
  induction os with
  | nil => exact (Nat.zero_add _).symm
  | cons o os ih =>
    cases o with
    | alloc => exact ih
    | free b => rw [List.cons_append, released, released, ih, add_assoc]

/-- **The balance of a run**: what is live afterwards and what was released
weigh together what was live before and what was allocated. -/
theorem sum_live_add_released {h h' : BlockHeap} {os : List Op}
    (hr : h.run os = some h') :
    ∑ b ∈ h'.live, w b + released w os
      = ∑ b ∈ h.live, w b + allocatedFrom w h.next os := by
  refine run_induction (P := fun h os h' => ∑ b ∈ h'.live, w b + released w os
      = ∑ b ∈ h.live, w b + allocatedFrom w h.next os) (fun _ => rfl) ?_ ?_ hr
  · intro h os h' _ ih
    have hsum : ∑ b ∈ h.alloc.live, w b = w h.next + ∑ b ∈ h.live, w b :=
      Finset.sum_insert h.next_notMem_live
    rw [next_alloc, hsum] at ih
    rw [released, allocatedFrom]
    omega
  · intro h b os h' hb _ ih
    have hsum : w b + ∑ c ∈ (h.free b).live, w c = ∑ c ∈ h.live, w c :=
      Finset.add_sum_erase h.live w hb
    rw [next_free] at ih
    rw [released, allocatedFrom]
    omega

/-- The blocks handed out since the heap `h` that are still live in `h'`. -/
def born (h h' : BlockHeap) : Finset Block := h'.live.filter (fun b => h.next ≤ b)

/-- The blocks live in `h` that are gone in `h'`. -/
def gone (h h' : BlockHeap) : Finset Block := h.live \ h'.live

/-- What is live after a run: what was born in it, and what was live before
and is not gone. -/
theorem sum_live_eq_born_add {h h' : BlockHeap} {os : List Op}
    (hr : h.run os = some h') :
    ∑ b ∈ h'.live, w b + ∑ b ∈ gone h h', w b
      = ∑ b ∈ born h h', w b + ∑ b ∈ h.live, w b := by
  -- what is live and was not born in the run was live before it
  have hold : h'.live.filter (fun b => ¬ h.next ≤ b) = h.live ∩ h'.live := by
    ext b
    rw [Finset.mem_filter, Finset.mem_inter, not_le]
    constructor
    · rintro ⟨hl, hb⟩
      exact ⟨mem_live_of_run hr hb hl, hl⟩
    · rintro ⟨hb, hl⟩
      exact ⟨hl, h.live_lt b hb⟩
  have hlive := Finset.sum_filter_add_sum_filter_not h'.live (fun b => h.next ≤ b) w
  have hbefore := Finset.sum_inter_add_sum_sdiff h.live h'.live w
  rw [hold] at hlive
  rw [born, gone, ← hlive, ← hbefore, add_assoc]

/-- **The balance, split at the start of the run**: the releases exceed the
allocations by what was live before and is gone, less what was born and is
still live. -/
theorem sum_born_add_released {h h' : BlockHeap} {os : List Op}
    (hr : h.run os = some h') :
    ∑ b ∈ born h h', w b + released w os
      = allocatedFrom w h.next os + ∑ b ∈ gone h h', w b := by
  have hbal := sum_live_add_released w hr
  have hsplit := sum_live_eq_born_add w hr
  omega

end Balance

/-- Nothing is gone exactly if nothing is released of what was live before. -/
theorem gone_eq_empty_iff {h h' : BlockHeap} {os : List Op} (hr : h.run os = some h') :
    gone h h' = ∅ ↔ ∀ b ∈ h.live, .free b ∉ os := by
  rw [gone, Finset.sdiff_eq_empty_iff_subset]
  exact forall₂_congr (fun b hb => mem_live_iff_of_run hr hb)

end BlockHeap

end Heaps
