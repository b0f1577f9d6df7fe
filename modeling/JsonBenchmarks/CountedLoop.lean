import Mathlib.Tactic

/-!
# Counted loops with a machine counter

The loop `for (auto i = 0u; i < bound; i += step) body`, where the counter has
a fixed width and wraps around while the bound need not fit into it.

When the step divides the range of the counter, there are two cases only. If
some multiple of the step within the range reaches the bound, the counter never
wraps, and the body runs as often as the step fits into the bound, rounded up.
Otherwise the counter comes back to where it was and the loop never ends. So
whether a loop ends, and what it then has computed, is a closed statement
(`countedLoop_eq_some_iff`).
-/

namespace CountedLoop

variable {σ : Type} {w : ℕ}

/-- **The loop**, from a counter value on, for at most `fuel` tests of its
condition. -/
def countedLoop (step : BitVec w) (bound : ℕ) (body : σ → σ) :
    ℕ → BitVec w → σ → Option σ
  | 0, _, _ => none
  | fuel + 1, i, s =>
    if i.toNat < bound then countedLoop step bound body fuel (i + step) (body s) else some s

/-- How often a loop that ends runs its body. -/
def iterations (step : BitVec w) (bound : ℕ) : ℕ := (bound + step.toNat - 1) / step.toNat

/-- The step, taken `iterations` times, reaches the bound and stays less than a
step above it. -/
theorem le_iterations_mul {step : BitVec w} (hpos : 0 < step.toNat) (bound : ℕ) :
    bound ≤ iterations step bound * step.toNat ∧
      iterations step bound * step.toNat < bound + step.toNat := by
  have hdiv := Nat.div_add_mod' (bound + step.toNat - 1) step.toNat
  have hmod := Nat.mod_lt (bound + step.toNat - 1) hpos
  unfold iterations
  omega

/-- Taken fewer times it does not reach the bound. -/
theorem mul_lt_of_lt_iterations {step : BitVec w} (hpos : 0 < step.toNat) {bound m : ℕ}
    (hm : m < iterations step bound) : m * step.toNat < bound := by
  have hle : (m + 1) * step.toNat ≤ iterations step bound * step.toNat :=
    Nat.mul_le_mul_right _ hm
  have hlt := (le_iterations_mul hpos bound).2
  rw [Nat.succ_mul] at hle
  omega

/-- A loop runs its body at all exactly when its bound is positive. -/
theorem iterations_eq_zero_iff {step : BitVec w} (hpos : 0 < step.toNat) (bound : ℕ) :
    iterations step bound = 0 ↔ bound = 0 := by
  constructor
  · intro h
    have hle := (le_iterations_mul hpos bound).1
    rw [h] at hle
    omega
  · rintro rfl
    exact Nat.div_eq_of_lt (by omega)

/-- A step of one is taken as often as the bound says. -/
theorem iterations_one {step : BitVec w} (hstep : step.toNat = 1) (bound : ℕ) :
    iterations step bound = bound := by
  rw [iterations, hstep, Nat.div_one, Nat.add_sub_cancel]

/-- A loop whose counter reaches the bound after `n` steps, and not before,
without leaving its range. -/
theorem countedLoop_of_reaches (step : BitVec w) (bound : ℕ) (body : σ → σ) (n fuel : ℕ)
    (i : BitVec w) (s : σ) (hbelow : ∀ m < n, i.toNat + m * step.toNat < bound)
    (hreach : bound ≤ i.toNat + n * step.toNat) (hfit : i.toNat + n * step.toNat < 2 ^ w) :
    countedLoop step bound body fuel i s = if n < fuel then some (body^[n] s) else none := by
  induction n generalizing fuel i s with
  | zero =>
    cases fuel with
    | zero => rfl
    | succ fuel =>
      have hnot : ¬ i.toNat < bound := by omega
      rw [countedLoop, if_neg hnot, if_pos (Nat.succ_pos fuel)]
      rfl
  | succ n ih =>
    cases fuel with
    | zero => rfl
    | succ fuel =>
      have hstep : (n + 1) * step.toNat = n * step.toNat + step.toNat := Nat.succ_mul _ _
      -- the next value is within the range, too, so the counter does not wrap
      have hnext : (i + step).toNat = i.toNat + step.toNat := by
        rw [BitVec.toNat_add, Nat.mod_eq_of_lt]
        have hle : 0 ≤ n * step.toNat := Nat.zero_le _
        omega
      have hbelow' : ∀ m < n, (i + step).toNat + m * step.toNat < bound := by
        intro m hm
        have h := hbelow (m + 1) (Nat.succ_lt_succ hm)
        rw [Nat.succ_mul] at h
        rw [hnext]
        omega
      have hlt : i.toNat < bound := by simpa using hbelow 0 (Nat.succ_pos n)
      rw [countedLoop, if_pos hlt,
        ih fuel (i + step) (body s) hbelow' (by rw [hnext]; omega) (by rw [hnext]; omega),
        Function.iterate_succ_apply]
      simp only [Nat.succ_lt_succ_iff]

/-- A loop whose counter takes no value that reaches the bound never ends. -/
theorem countedLoop_eq_none (step : BitVec w) (bound : ℕ) (body : σ → σ) (fuel : ℕ)
    (i : BitVec w) (s : σ) (hstep : step.toNat ∣ 2 ^ w) (hi : step.toNat ∣ i.toNat)
    (hbound : ∀ v < 2 ^ w, step.toNat ∣ v → v < bound) :
    countedLoop step bound body fuel i s = none := by
  induction fuel generalizing i s with
  | zero => rfl
  | succ fuel ih =>
    rw [countedLoop, if_pos (hbound i.toNat i.isLt hi)]
    refine ih (i + step) (body s) ?_
    rw [BitVec.toNat_add]
    exact (Nat.dvd_mod_iff hstep).mpr (dvd_add hi dvd_rfl)

/-- **When a loop ends, and with what**: the bound must not exceed the last
multiple of the step, the condition must be tested often enough, and the body
is run `iterations` times. -/
theorem countedLoop_eq_some_iff {step : BitVec w} (hpos : 0 < step.toNat)
    (hstep : step.toNat ∣ 2 ^ w) (bound : ℕ) (body : σ → σ) (fuel : ℕ) (s r : σ) :
    countedLoop step bound body fuel 0 s = some r
      ↔ bound + step.toNat ≤ 2 ^ w ∧ iterations step bound < fuel ∧
        body^[iterations step bound] s = r := by
  by_cases hbound : bound + step.toNat ≤ 2 ^ w
  · have hzero : (0 : BitVec w).toNat = 0 := by simp
    have hreach := le_iterations_mul hpos bound
    rw [countedLoop_of_reaches step bound body (iterations step bound) fuel 0 s
      (fun m hm => by rw [hzero, Nat.zero_add]; exact mul_lt_of_lt_iterations hpos hm)
      (by omega) (by omega)]
    by_cases hfuel : iterations step bound < fuel
    · simp [hbound, hfuel]
    · simp [hfuel]
  · refine iff_of_false (fun h => ?_) (fun h => hbound h.1)
    rw [countedLoop_eq_none step bound body fuel 0 s hstep (by simp)] at h
    · exact absurd h (by simp)
    · -- the multiple after `v` is still within the range
      rintro v hv ⟨a, rfl⟩
      obtain ⟨b, hb⟩ := hstep
      rw [hb] at hv hbound
      have hle : step.toNat * (a + 1) ≤ step.toNat * b :=
        Nat.mul_le_mul_left _ (Nat.lt_of_mul_lt_mul_left hv)
      rw [Nat.mul_succ] at hle
      omega

end CountedLoop
