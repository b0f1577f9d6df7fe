import JsonBenchmarks.BlockHeap

/-!
# The leak account of the driver

`benchmark()` resets the counters of malloc-stat before each of `prepare`,
`parse`, `print` and `finish`, reads them afterwards, and reports as leaked
the difference of two sums: what was allocated in the four windows, less what
was released in them.

A `MeasuredRun` is the history behind the counters: any sequence of
allocations and releases in each window, starting from any heap – the output
buffer that `reserve()` made just before `prepare()` is one of its blocks.
What the report means to say is the set `leaked` of blocks allocated in a
window and live at the end of the last one. The releases counted in a window,
however, are not only of such blocks. `LeaksReported` holds exactly when no
block from before the first window is released in one
(`leaksReported_iff`): such a release is subtracted without its allocation
having been added, which hides a leak of the same size, or takes the
difference below zero.
-/

namespace JsonBenchmarks

open Heaps BlockHeap

/-- `size_t`. -/
abbrev SizeT := BitVec 64

/-- The counters of malloc-stat that the driver reads. -/
structure MallocStatVars where
  /-- How many blocks were allocated. -/
  allocations : SizeT
  /-- How many blocks were released. -/
  deallocations : SizeT
  /-- How many bytes were allocated. -/
  allocated : SizeT
  /-- How many bytes were released. -/
  deallocated : SizeT

/-- **What the counters read after a reset and the history `os`**, the next
block being `n`. -/
def MallocStatVars.getStat (size : Block → ℕ) (n : Block) (os : List Op) :
    MallocStatVars where
  allocations := BitVec.ofNat 64 (allocatedFrom (fun _ => 1) n os)
  deallocations := BitVec.ofNat 64 (released (fun _ => 1) os)
  allocated := BitVec.ofNat 64 (allocatedFrom size n os)
  deallocated := BitVec.ofNat 64 (released size os)

/-- The fields of `measurements` that are filled from the counters. -/
structure Measurements where
  prepareAllocated : SizeT
  prepareAllocations : SizeT
  prepareDeallocations : SizeT
  parseAllocated : SizeT
  parseAllocations : SizeT
  parseDeallocations : SizeT
  printAllocated : SizeT
  printAllocations : SizeT
  printDeallocations : SizeT
  freeDeallocated : SizeT
  freeDeallocations : SizeT
  freeLeakedBytes : SizeT
  freeLeakedAllocations : SizeT

/-- **The account**, in the unsigned arithmetic of `size_t`. -/
def Measurements.ofStats (prepareStat parseStat printStat freeStat : MallocStatVars) :
    Measurements :=
  let summOfAllocs := prepareStat.allocations + parseStat.allocations
    + printStat.allocations + freeStat.allocations
  let summOfAllocated := prepareStat.allocated + parseStat.allocated
    + printStat.allocated + freeStat.allocated
  let summOfDeallocs := prepareStat.deallocations + parseStat.deallocations
    + printStat.deallocations + freeStat.deallocations
  let summOfDeallocated := prepareStat.deallocated + parseStat.deallocated
    + printStat.deallocated + freeStat.deallocated
  { prepareAllocated := prepareStat.allocated
    prepareAllocations := prepareStat.allocations
    prepareDeallocations := prepareStat.deallocations
    parseAllocated := parseStat.allocated
    parseAllocations := parseStat.allocations
    parseDeallocations := parseStat.deallocations
    printAllocated := printStat.allocated
    printAllocations := printStat.allocations
    printDeallocations := printStat.deallocations
    freeDeallocated := freeStat.deallocated
    freeDeallocations := freeStat.deallocations
    freeLeakedBytes := summOfAllocated - summOfDeallocated
    freeLeakedAllocations := summOfAllocs - summOfDeallocs }

/-- Whether the "leaked memory suspicion" is printed. -/
def leakedMemorySuspicion (allowedLeaks : SizeT × SizeT) (stat : Measurements) : Bool :=
  allowedLeaks.1 != stat.freeLeakedBytes || allowedLeaks.2 != stat.freeLeakedAllocations

/-! ## The history behind the counters -/

/-- **The allocator's history over the four windows of an iteration.** -/
structure MeasuredRun where
  /-- The size of every block. -/
  size : Block → ℕ
  /-- The heap when `prepare`'s window opens. -/
  before : BlockHeap
  /-- What happens in the window of `prepare`. -/
  prepare : List Op
  /-- What happens in the window of `parse`. -/
  parse : List Op
  /-- What happens in the window of `print`. -/
  print : List Op
  /-- What happens in the window of `finish`. -/
  free : List Op
  /-- The heap when the last window closes. -/
  after : BlockHeap
  /-- The history is one an allocator can have: only live blocks are
  released. -/
  runs : before.run (prepare ++ parse ++ print ++ free) = some after

namespace MeasuredRun

/-- The history of all four windows. -/
def ops (r : MeasuredRun) : List Op := r.prepare ++ r.parse ++ r.print ++ r.free

/-- The report of `benchmark()`. -/
def stat (r : MeasuredRun) : Measurements :=
  let n₁ := nextAfter r.before.next r.prepare
  let n₂ := nextAfter r.before.next (r.prepare ++ r.parse)
  let n₃ := nextAfter r.before.next (r.prepare ++ r.parse ++ r.print)
  Measurements.ofStats (MallocStatVars.getStat r.size r.before.next r.prepare)
    (MallocStatVars.getStat r.size n₁ r.parse)
    (MallocStatVars.getStat r.size n₂ r.print)
    (MallocStatVars.getStat r.size n₃ r.free)

/-- **What leaked**: the blocks allocated in a window and live at the end of
the last one. -/
def leaked (r : MeasuredRun) : Finset Block := born r.before r.after

/-- **The report tells the leak**: its two numbers are those of the blocks
that leaked, neither difference goes below zero, and the warning is printed
exactly when the leak is not the allowed one. -/
structure LeaksReported (r : MeasuredRun) (allowedLeaks : SizeT × SizeT) : Prop where
  /-- The bytes reported are those of the blocks that leaked. -/
  bytes : r.stat.freeLeakedBytes.toNat = ∑ b ∈ r.leaked, r.size b
  /-- The number reported is that of the blocks that leaked. -/
  allocations : r.stat.freeLeakedAllocations.toNat = r.leaked.card
  /-- No more bytes are released than allocated. -/
  bytes_le : released r.size r.ops ≤ allocatedFrom r.size r.before.next r.ops
  /-- No more blocks are released than allocated. -/
  allocations_le : released (fun _ => 1) r.ops
    ≤ allocatedFrom (fun _ => 1) r.before.next r.ops
  /-- The warning is about the leak. -/
  suspicion : leakedMemorySuspicion allowedLeaks r.stat = true
    ↔ (allowedLeaks.1.toNat, allowedLeaks.2.toNat)
      ≠ (∑ b ∈ r.leaked, r.size b, r.leaked.card)

/-- The bytes reported: the sums run over the whole history. -/
theorem freeLeakedBytes_eq (r : MeasuredRun) :
    r.stat.freeLeakedBytes
      = BitVec.ofNat 64 (allocatedFrom r.size r.before.next r.ops)
        - BitVec.ofNat 64 (released r.size r.ops) := by
  unfold stat Measurements.ofStats MallocStatVars.getStat ops
  simp only [allocatedFrom_append, released_append, BitVec.ofNat_add]

/-- The number reported, likewise. -/
theorem freeLeakedAllocations_eq (r : MeasuredRun) :
    r.stat.freeLeakedAllocations
      = BitVec.ofNat 64 (allocatedFrom (fun _ => 1) r.before.next r.ops)
        - BitVec.ofNat 64 (released (fun _ => 1) r.ops) := by
  unfold stat Measurements.ofStats MallocStatVars.getStat ops
  simp only [allocatedFrom_append, released_append, BitVec.ofNat_add]

end MeasuredRun

/-- **When a difference of sums tells a balance.** With `leaked + freed =
allocated + gone`, the wrapping difference of what was allocated and what was
freed is what leaked, and is not negative, exactly when nothing is gone and
the leak fits the word. -/
theorem toNat_ofNat_sub_ofNat_iff {leaked freed allocated gone : ℕ}
    (h : leaked + freed = allocated + gone) :
    ((BitVec.ofNat 64 allocated - BitVec.ofNat 64 freed).toNat = leaked
        ∧ freed ≤ allocated)
      ↔ gone = 0 ∧ leaked < 2 ^ 64 := by
  rw [BitVec.toNat_sub, BitVec.toNat_ofNat, BitVec.toNat_ofNat]
  constructor
  · rintro ⟨hl, hle⟩
    constructor <;> omega
  · rintro ⟨rfl, hl⟩
    constructor <;> omega

/-- The warning compares the report; where the report is right, it compares
the leak. -/
theorem MeasuredRun.leakedMemorySuspicion_iff {r : MeasuredRun}
    (hb : r.stat.freeLeakedBytes.toNat = ∑ b ∈ r.leaked, r.size b)
    (hc : r.stat.freeLeakedAllocations.toNat = r.leaked.card)
    (allowedLeaks : SizeT × SizeT) :
    leakedMemorySuspicion allowedLeaks r.stat = true
      ↔ (allowedLeaks.1.toNat, allowedLeaks.2.toNat)
        ≠ (∑ b ∈ r.leaked, r.size b, r.leaked.card) := by
  unfold leakedMemorySuspicion
  rw [← hb, ← hc, ne_eq, Prod.mk.injEq, BitVec.toNat_inj, BitVec.toNat_inj, not_and_or,
    Bool.or_eq_true, bne_iff_ne, bne_iff_ne]

/-- **The leak is reported exactly when no block from before `prepare` is
released in a window**, the leak itself fitting `size_t`. -/
theorem leaksReported_iff (r : MeasuredRun) (allowedLeaks : SizeT × SizeT) :
    r.LeaksReported allowedLeaks
      ↔ (∀ b ∈ r.before.live, .free b ∉ r.ops)
        ∧ ∑ b ∈ r.leaked, r.size b < 2 ^ 64 ∧ r.leaked.card < 2 ^ 64 := by
  have hbytes := toNat_ofNat_sub_ofNat_iff (sum_born_add_released r.size r.runs)
  have hcount := toNat_ofNat_sub_ofNat_iff (sum_born_add_released (fun _ => 1) r.runs)
  rw [← Finset.card_eq_sum_ones, ← Finset.card_eq_sum_ones, Finset.card_eq_zero,
    gone_eq_empty_iff r.runs] at hcount
  constructor
  · intro h
    -- a block that is gone may have no bytes, so it is their number that tells
    obtain ⟨-, hfit⟩ := hbytes.mp ⟨r.freeLeakedBytes_eq ▸ h.bytes, h.bytes_le⟩
    obtain ⟨hkept, hfit'⟩ :=
      hcount.mp ⟨r.freeLeakedAllocations_eq ▸ h.allocations, h.allocations_le⟩
    exact ⟨hkept, hfit, hfit'⟩
  · rintro ⟨hkept, hfit, hfit'⟩
    have hgone : ∑ b ∈ gone r.before r.after, r.size b = 0 := by
      rw [(gone_eq_empty_iff r.runs).mpr hkept, Finset.sum_empty]
    obtain ⟨hb, hble⟩ := hbytes.mpr ⟨hgone, hfit⟩
    obtain ⟨hc, hcle⟩ := hcount.mpr ⟨hkept, hfit'⟩
    replace hb := (congrArg BitVec.toNat r.freeLeakedBytes_eq).trans hb
    replace hc := (congrArg BitVec.toNat r.freeLeakedAllocations_eq).trans hc
    exact ⟨hb, hc, hble, hcle, MeasuredRun.leakedMemorySuspicion_iff hb hc allowedLeaks⟩

/-- An iteration whose `print` outgrows the output buffer reserved before
`prepare`: a block of 200 bytes is allocated, and the 100 reserved ones are
released. -/
def outgrownReserve : MeasuredRun where
  size := fun b => if b = 0 then 100 else 200
  before := BlockHeap.empty.alloc
  prepare := []
  parse := []
  print := [.alloc, .free 0]
  free := []
  after := (BlockHeap.empty.alloc.alloc).free 0
  runs := by decide

/-- **A reallocated output buffer cancels the leak**: one block of 200 bytes is
live at the end, and 100 bytes in no block are reported. -/
theorem outgrownReserve_not_reported : ¬ outgrownReserve.LeaksReported (0, 0) := by
  intro h
  exact absurd h.allocations (by decide)

end JsonBenchmarks
