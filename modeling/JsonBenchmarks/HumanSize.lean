import JsonBenchmarks.Rounding

/-!
# Sizes for human readers

`human_size` prints a number of bytes in the largest of five units that it
reaches, with two decimals. It divides by 1024 as long as something is left,
and keeps the last quotient before it was cut to an integer. So the mantissa
misses less than one of the unit below (`humanUnit_of_lt`).

Two things go wrong. The loop is only entered beyond 1024 bytes, so exactly
1024 are no kilobyte. And the unit is chosen before the mantissa is rounded, so
what is just below the next unit is printed as 1024.00 of its own
(`humanSize_canonical_iff`).
-/

namespace JsonBenchmarks

open Rounding

/-- `suffix`. -/
def sizeSuffix : List String := ["B", "KB", "MB", "GB", "TB"]

/-- The loop of `human_size`, for as many rounds as there are suffixes left.
A quotient in floating point is the exact quotient. -/
def humanLoop : ℕ → ℕ → BitVec 64 → ℚ → ℕ × ℚ
  | 0, i, _, dblBytes => (i, dblBytes)
  | room + 1, i, bytes, dblBytes =>
    if bytes / 1024 > 0 then humanLoop room (i + 1) (bytes / 1024) (bytes.toNat / 1024)
    else (i, dblBytes)

/-- The index of the unit, and the mantissa. -/
def humanUnit (bytes : BitVec 64) : ℕ × ℚ :=
  if bytes > 1024 then humanLoop (sizeSuffix.length - 1) 0 bytes bytes.toNat
  else (0, bytes.toNat)

/-- The hundredths that `%.02lf` prints. -/
def hundredths (x : ℚ) : ℕ := (roundHalfEven (100 * x)).toNat

/-- `%.02lf`. -/
def twoDecimals (x : ℚ) : String :=
  Nat.repr (hundredths x / 100) ++ "." ++ (if hundredths x % 100 < 10 then "0" else "")
    ++ Nat.repr (hundredths x % 100)

/-- **`human_size`**. It has no result if it reads a suffix that is not there. -/
def humanSize (bytes : BitVec 64) : Option String := do
  let suffix ← sizeSuffix[(humanUnit bytes).1]?
  return twoDecimals (humanUnit bytes).2 ++ " " ++ suffix

/-- **The largest unit that a size reaches**, or else the first. -/
structure IsLargestUnit (b i : ℕ) : Prop where
  le_four : i ≤ 4
  reached : i = 0 ∨ 1024 ^ i ≤ b
  largest : ∀ j ≤ 4, 1024 ^ j ≤ b → j ≤ i

/-- **A size is printed canonically**: in the largest unit that it reaches,
with a mantissa that looks smaller than the next, and that misses less than one
of the unit below. -/
structure Canonical (bytes : BitVec 64) (i : ℕ) (m : ℚ) : Prop where
  printed : ∃ suffix, sizeSuffix[i]? = some suffix ∧
    humanSize bytes = some (twoDecimals m ++ " " ++ suffix)
  unit : IsLargestUnit bytes.toNat i
  below : i < 4 → hundredths m < 1024 * 100
  exact : i = 0 → m = bytes.toNat
  truncated : 1 ≤ i → m * 1024 ^ i ≤ bytes.toNat ∧
    (bytes.toNat : ℚ) < m * 1024 ^ i + 1024 ^ (i - 1)

/-! ## The unit -/

/-- How many rounds the loop takes if there is room. -/
def humanRounds (room b : ℕ) : ℕ := min room (Nat.log 1024 b)

theorem humanRounds_of_lt (room : ℕ) {b : ℕ} (h : b < 1024) : humanRounds room b = 0 := by
  unfold humanRounds
  rw [Nat.log_of_lt h, Nat.min_zero]

theorem humanRounds_succ (room : ℕ) {b : ℕ} (h : 1024 ≤ b) :
    humanRounds (room + 1) b = humanRounds room (b / 1024) + 1 := by
  unfold humanRounds
  rw [Nat.log_of_one_lt_of_le (by decide) h]
  exact Nat.succ_min_succ room _

/-- **The rounds reach the largest unit.** -/
theorem isLargestUnit_humanRounds (b : ℕ) : IsLargestUnit b (humanRounds 4 b) := by
  refine ⟨min_le_left _ _, ?_, fun j hj hpow =>
    le_min hj (Nat.le_log_of_pow_le (by decide) hpow)⟩
  by_cases hb : b = 0
  · subst hb
    exact Or.inl (humanRounds_of_lt 4 (by decide))
  · exact Or.inr (Nat.pow_le_of_le_log hb (min_le_right _ _))

/-- The test of the loop. -/
theorem div_1024_pos_iff (bytes : BitVec 64) : bytes / 1024 > 0 ↔ 1024 ≤ bytes.toNat := by
  show 0 < bytes.toNat / 1024 ↔ _
  exact Nat.div_pos_iff.trans (and_iff_right (by decide))

/-- **What the loop does**: it divides by 1024 once each round, as integers
but for the last. -/
theorem humanLoop_eq (room i : ℕ) (bytes : BitVec 64) (dblBytes : ℚ) :
    humanLoop room i bytes dblBytes =
      (i + humanRounds room bytes.toNat,
        if humanRounds room bytes.toNat = 0 then dblBytes
        else ((bytes.toNat / 1024 ^ (humanRounds room bytes.toNat - 1) : ℕ) : ℚ) / 1024) := by
  induction room generalizing i bytes dblBytes with
  | zero =>
    have hzero : humanRounds 0 bytes.toNat = 0 := Nat.zero_min _
    rw [hzero, if_pos rfl]
    rfl
  | succ room ih =>
    rw [humanLoop]
    by_cases hle : 1024 ≤ bytes.toNat
    · have hquot : (bytes / 1024).toNat = bytes.toNat / 1024 := rfl
      rw [if_pos ((div_1024_pos_iff bytes).mpr hle), ih, hquot, humanRounds_succ room hle,
        if_neg (Nat.succ_ne_zero _), Nat.add_sub_cancel]
      generalize humanRounds room (bytes.toNat / 1024) = k
      cases k with
      | zero => rw [if_pos rfl, Nat.pow_zero, Nat.div_one]
      | succ k =>
        rw [if_neg (Nat.succ_ne_zero k), Nat.succ_sub_one, Nat.div_div_eq_div_mul,
          ← Nat.pow_succ', Nat.add_assoc, Nat.add_comm 1]
    · rw [if_neg (mt (div_1024_pos_iff bytes).mp hle),
        humanRounds_of_lt _ (Nat.lt_of_not_le hle), if_pos rfl]
      rfl

/-- Up to 1024 bytes are bytes. -/
theorem humanUnit_of_le {bytes : BitVec 64} (h : bytes.toNat ≤ 1024) :
    humanUnit bytes = (0, (bytes.toNat : ℚ)) :=
  if_neg (Nat.not_lt_of_le h)

/-- **More than that are given in the largest unit**, cut to a 1024th of it. -/
theorem humanUnit_of_lt {bytes : BitVec 64} (h : 1024 < bytes.toNat) :
    humanUnit bytes =
      (humanRounds 4 bytes.toNat,
        ((bytes.toNat / 1024 ^ (humanRounds 4 bytes.toNat - 1) : ℕ) : ℚ) / 1024) := by
  have hunit : humanUnit bytes = humanLoop 4 0 bytes bytes.toNat := if_pos h
  have hrounds : humanRounds 4 bytes.toNat ≠ 0 := by
    rw [humanRounds_succ 3 h.le]
    exact Nat.succ_ne_zero _
  rw [hunit, humanLoop_eq, if_neg hrounds, Nat.zero_add]

/-! ## The mantissa -/

/-- Cutting a size to a 1024th of its unit loses less than that. -/
theorem cut_mantissa (b i : ℕ) :
    ((b / 1024 ^ i : ℕ) : ℚ) / 1024 * 1024 ^ (i + 1) ≤ b ∧
      (b : ℚ) < ((b / 1024 ^ i : ℕ) : ℚ) / 1024 * 1024 ^ (i + 1) + 1024 ^ i := by
  have hmul : ((b / 1024 ^ i : ℕ) : ℚ) / 1024 * 1024 ^ (i + 1)
      = ((b / 1024 ^ i * 1024 ^ i : ℕ) : ℚ) := by
    push_cast
    ring
  rw [hmul]
  constructor
  · exact Nat.cast_le.mpr (Nat.div_mul_le_self b (1024 ^ i))
  · have hlt : b < b / 1024 ^ i * 1024 ^ i + 1024 ^ i := Nat.lt_div_mul_add (by positivity)
    exact_mod_cast hlt

/-- What looks smaller than the next unit: the tie is rounded up to it. -/
theorem hundredths_div_lt_iff (n : ℕ) :
    hundredths ((n : ℚ) / 1024) < 1024 * 100 ↔ n < 1048571 := by
  have htie : Even ((1024 * 100 : ℕ) : ℤ) := by decide
  unfold hundredths
  rw [Int.toNat_lt' (by decide), ← not_le, ← not_le, not_iff_not, le_roundHalfEven_iff,
    and_iff_left htie, ← le_iff_lt_or_eq]
  push_cast
  constructor
  · intro h
    by_contra hn
    have hcast : (n : ℚ) ≤ 1048570 := by exact_mod_cast Nat.le_of_lt_succ (Nat.lt_of_not_le hn)
    linarith
  · intro h
    have hcast : (1048571 : ℚ) ≤ n := by exact_mod_cast h
    linarith

/-- Whole bytes look like what they are. -/
theorem hundredths_natCast (b : ℕ) : hundredths (b : ℚ) = 100 * b := by
  have hcast : (100 * (b : ℚ)) = ((100 * b : ℕ) : ℤ) := by push_cast; ring
  unfold hundredths
  rw [hcast, roundHalfEven_intCast, Int.toNat_natCast]

/-! ## When a size is canonical -/

/-- **Just below a megabyte, a gigabyte or a terabyte**: at least 1023.995 of
the unit below. -/
def JustBelowUnit (b : ℕ) : Prop := ∃ k < 3, 1048571 * 1024 ^ k ≤ b ∧ b < 1024 ^ (k + 2)

/-- Every unit has a suffix. -/
theorem printed_humanUnit (bytes : BitVec 64) (h : (humanUnit bytes).1 ≤ 4) :
    ∃ suffix, sizeSuffix[(humanUnit bytes).1]? = some suffix ∧
      humanSize bytes = some (twoDecimals (humanUnit bytes).2 ++ " " ++ suffix) := by
  have hlt : (humanUnit bytes).1 < sizeSuffix.length := Nat.lt_succ_of_le h
  have hsuffix : sizeSuffix[(humanUnit bytes).1]? = some sizeSuffix[(humanUnit bytes).1] :=
    List.getElem?_eq_getElem hlt
  exact ⟨_, hsuffix, by rw [humanSize, hsuffix]; rfl⟩

/-- Less than 1024 bytes are canonical. -/
theorem canonical_of_lt {bytes : BitVec 64} (h : bytes.toNat < 1024) :
    Canonical bytes (humanUnit bytes).1 (humanUnit bytes).2 := by
  have hunit := humanUnit_of_le h.le
  have hprinted := printed_humanUnit bytes (by rw [hunit]; exact Nat.zero_le 4)
  rw [hunit] at hprinted ⊢
  refine ⟨hprinted, ?_, fun _ => ?_, fun _ => rfl, fun h => absurd h (Nat.not_succ_le_zero 0)⟩
  · have hrounds := isLargestUnit_humanRounds bytes.toNat
    rw [humanRounds_of_lt 4 h] at hrounds
    exact hrounds
  · rw [hundredths_natCast, Nat.mul_comm]
    exact Nat.mul_lt_mul_of_pos_right h (by decide)

/-- More than 1024 bytes are canonical exactly if they do not look like the
next unit. -/
theorem canonical_of_gt_iff {bytes : BitVec 64} (h : 1024 < bytes.toNat) :
    Canonical bytes (humanUnit bytes).1 (humanUnit bytes).2 ↔
      (Nat.log 1024 bytes.toNat < 4 →
        bytes.toNat < 1048571 * 1024 ^ (Nat.log 1024 bytes.toNat - 1)) := by
  have hunit := humanUnit_of_lt h
  have hlooks : hundredths (((bytes.toNat / 1024 ^ (humanRounds 4 bytes.toNat - 1) : ℕ) : ℚ)
        / 1024) < 1024 * 100 ↔
      bytes.toNat < 1048571 * 1024 ^ (humanRounds 4 bytes.toNat - 1) := by
    rw [hundredths_div_lt_iff, Nat.div_lt_iff_lt_mul (by positivity)]
  have hrounds : Nat.log 1024 bytes.toNat < 4 →
      humanRounds 4 bytes.toNat = Nat.log 1024 bytes.toNat := fun hfour => min_eq_right hfour.le
  constructor
  · intro hcanonical hfour
    have hbelow := hcanonical.below
    rw [hunit, hlooks, hrounds hfour] at hbelow
    exact hbelow hfour
  · intro hbelow
    have hprinted := printed_humanUnit bytes (by rw [hunit]; exact min_le_left _ _)
    rw [hunit] at hprinted ⊢
    refine ⟨hprinted, isLargestUnit_humanRounds bytes.toNat, fun hfour => ?_, fun hzero => ?_,
      fun _ => ?_⟩
    · have hlt : Nat.log 1024 bytes.toNat < 4 := (min_lt_iff.mp hfour).resolve_left (lt_irrefl 4)
      rw [hlooks, hrounds hlt]
      exact hbelow hlt
    · rw [humanRounds_succ 3 h.le] at hzero
      exact absurd hzero (Nat.succ_ne_zero _)
    · rw [humanRounds_succ 3 h.le, Nat.add_sub_cancel]
      exact cut_mantissa bytes.toNat _

/-- **A size is printed canonically exactly if it is not 1024 bytes and not
just below a unit**, for every size. -/
theorem humanSize_canonical_iff (bytes : BitVec 64) :
    Canonical bytes (humanUnit bytes).1 (humanUnit bytes).2 ↔
      bytes.toNat ≠ 1024 ∧ ¬ JustBelowUnit bytes.toNat := by
  rcases lt_trichotomy bytes.toNat 1024 with hlt | heq | hgt
  · refine iff_of_true (canonical_of_lt hlt) ⟨hlt.ne, ?_⟩
    rintro ⟨k, -, hlo, -⟩
    have hpow : 0 < 1024 ^ k := Nat.pow_pos (by decide)
    omega
  · -- 1024 bytes are a kilobyte, and printed as bytes
    refine iff_of_false (fun hcanonical => ?_) fun h => h.1 heq
    have hunit := hcanonical.unit.largest 1 (by decide) (by rw [heq, Nat.pow_one])
    rw [humanUnit_of_le heq.le] at hunit
    exact Nat.not_succ_le_zero 0 hunit
  · rw [canonical_of_gt_iff hgt]
    constructor
    · intro hbelow
      refine ⟨hgt.ne', ?_⟩
      rintro ⟨k, hk, hlo, hhi⟩
      have hpow : 1024 ^ (k + 1) ≤ bytes.toNat := by
        rw [Nat.pow_succ]
        omega
      have hlog : Nat.log 1024 bytes.toNat = k + 1 := Nat.log_eq_of_pow_le_of_lt_pow hpow hhi
      rw [hlog, Nat.add_sub_cancel] at hbelow
      exact Nat.not_lt_of_le hlo (hbelow (Nat.succ_lt_succ hk))
    · rintro ⟨-, hunit⟩ hfour
      have hlog : 1 ≤ Nat.log 1024 bytes.toNat := Nat.log_pos (by decide) hgt.le
      by_contra hge
      refine hunit ⟨Nat.log 1024 bytes.toNat - 1, by omega, Nat.le_of_not_lt hge, ?_⟩
      rw [show Nat.log 1024 bytes.toNat - 1 + 2 = (Nat.log 1024 bytes.toNat).succ by omega]
      exact Nat.lt_pow_succ_log_self (by decide) bytes.toNat

/-- **1024 bytes are printed as bytes**, and a byte less than a megabyte as
1024 kilobytes. -/
theorem kilobyte_not_canonical :
    humanSize 1024 = some "1024.00 B" ∧ humanSize 1048575 = some "1024.00 KB" ∧
      ¬ Canonical 1024 (humanUnit 1024).1 (humanUnit 1024).2 := by
  refine ⟨by decide +kernel, by decide +kernel, fun hcanonical => ?_⟩
  exact absurd (hcanonical.unit.largest 1 (by decide) (by decide)) (by decide)

end JsonBenchmarks
