import Mathlib.Tactic

/-!
# Rounding to even

`printf` rounds to the nearest decimal, and a value between two of them to the
even one. So a value is rounded to at least `n` exactly if it is above the
middle between `n - 1` and `n`, or is that middle and `n` is even
(`le_roundHalfEven_iff`): all that is needed to compare a printed number with a
bound.
-/

namespace Rounding

variable {K : Type*} [Field K] [LinearOrder K] [IsStrictOrderedRing K] [FloorRing K]

/-- **The nearest integer**, of two the even one. -/
def roundHalfEven (q : K) : ℤ :=
  if q - ⌊q⌋ < 1 / 2 then ⌊q⌋
  else if 1 / 2 < q - ⌊q⌋ then ⌊q⌋ + 1
  else if Even ⌊q⌋ then ⌊q⌋ else ⌊q⌋ + 1

omit [IsStrictOrderedRing K] in
/-- A value is rounded up exactly from above the middle, or from the middle if
what is below is odd. -/
theorem roundHalfEven_eq (q : K) :
    roundHalfEven q =
      if 1 / 2 < q - ⌊q⌋ ∨ q - ⌊q⌋ = 1 / 2 ∧ ¬ Even ⌊q⌋ then ⌊q⌋ + 1 else ⌊q⌋ := by
  unfold roundHalfEven
  rcases lt_trichotomy (q - ⌊q⌋) (1 / 2) with hlt | heq | hgt
  · rw [if_pos hlt, if_neg]
    exact not_or.mpr ⟨hlt.le.not_gt, fun h => hlt.ne h.1⟩
  · rw [if_neg heq.not_lt, if_neg heq.not_gt]
    by_cases heven : Even ⌊q⌋
    · rw [if_pos heven, if_neg]
      exact not_or.mpr ⟨heq.not_gt, fun h => h.2 heven⟩
    · rw [if_neg heven, if_pos (Or.inr ⟨heq, heven⟩)]
  · rw [if_neg hgt.le.not_gt, if_pos hgt, if_pos (Or.inl hgt)]

/-- **When a value is rounded to at least an integer.** -/
theorem le_roundHalfEven_iff (n : ℤ) (q : K) :
    n ≤ roundHalfEven q ↔ (n : K) - 1 / 2 < q ∨ (n : K) - 1 / 2 = q ∧ Even n := by
  have hfloor := Int.floor_le q
  have hceil := Int.lt_floor_add_one q
  rw [roundHalfEven_eq]
  generalize ⌊q⌋ = f at hfloor hceil ⊢
  rcases lt_trichotomy n (f + 1) with hlt | rfl | hgt
  · -- below, both sides hold
    have hle : n ≤ f := Int.lt_add_one_iff.mp hlt
    have hcast : (n : K) ≤ f := Int.cast_le.mpr hle
    refine iff_of_true ?_ (Or.inl (by linarith))
    split
    · exact hle.trans (Int.le_add_one le_rfl)
    · exact hle
  · -- what is above is reached exactly by rounding up
    have hmid : ((f + 1 : ℤ) : K) - 1 / 2 = f + 1 / 2 := by
      push_cast
      ring
    have hup : (1 / 2 < q - f ∨ q - f = 1 / 2 ∧ ¬ Even f)
        ↔ (f + 1 / 2 < q ∨ f + 1 / 2 = q ∧ ¬ Even f) :=
      or_congr lt_sub_iff_add_lt' (and_congr_left' (by rw [sub_eq_iff_eq_add', eq_comm]))
    rw [hmid, Int.even_add_one, ← hup]
    split
    · rename_i h
      exact iff_of_true le_rfl h
    · rename_i h
      exact iff_of_false (not_le_of_gt (Int.lt_add_one_iff.mpr le_rfl)) h
  · -- above that, neither does
    have hle : f + 2 ≤ n := by omega
    have hcast : (f : K) + 2 ≤ n := by exact_mod_cast hle
    refine iff_of_false ?_ ?_
    · split <;> omega
    · rintro (h | ⟨h, -⟩) <;> linarith

/-- An integer stays as it is. -/
theorem roundHalfEven_intCast (n : ℤ) : roundHalfEven (n : K) = n := by
  have hzero : (n : K) - ⌊(n : K)⌋ < 1 / 2 := by
    rw [Int.floor_intCast, sub_self]
    exact one_half_pos
  rw [roundHalfEven, if_pos hzero, Int.floor_intCast]

end Rounding
