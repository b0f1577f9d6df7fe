import Mathlib.Tactic

/-!
# Loops that may not end

A loop is given by what one round of it does: it ends with a result, or it
leaves a state for the next round. `loop` runs a number of rounds, and `Ends`
says that some number is enough. The result does not depend on the number
(`Ends.unique`).

A loop is run symbolically round by round (`ends_inl_iff`, `Ends.of_inr`), along
an induction that follows its input. It does not end if some property of the
state keeps it going and is kept (`not_ends_of_invariant`).
-/

namespace LoopRules

variable {σ ρ τ : Type*}

/-- **The loop**, for at most `fuel` rounds. -/
def loop (step : σ → σ ⊕ ρ) : ℕ → σ → Option ρ
  | 0, _ => none
  | fuel + 1, s =>
    match step s with
    | .inl s' => loop step fuel s'
    | .inr r => some r

/-- **The loop ends**, with this result. -/
def Ends (step : σ → σ ⊕ ρ) (s : σ) (r : ρ) : Prop := ∃ fuel, loop step fuel s = some r

section Rounds

variable {step : σ → σ ⊕ ρ}

/-- A round that goes on. -/
theorem loop_of_inl {s s' : σ} (h : step s = .inl s') (fuel : ℕ) :
    loop step (fuel + 1) s = loop step fuel s' := by
  rw [loop, h]

/-- The last round. -/
theorem loop_of_inr {s : σ} {r : ρ} (h : step s = .inr r) (fuel : ℕ) :
    loop step (fuel + 1) s = some r := by
  rw [loop, h]

/-- **More rounds change nothing** about a loop that has ended. -/
theorem loop_mono {fuel fuel' : ℕ} {s : σ} {r : ρ} (h : loop step fuel s = some r)
    (hle : fuel ≤ fuel') : loop step fuel' s = some r := by
  induction fuel generalizing fuel' s with
  | zero => exact absurd h (Option.some_ne_none r).symm
  | succ fuel ih =>
    obtain ⟨n, rfl⟩ : ∃ n, fuel' = n + 1 := Nat.exists_eq_add_of_le' (Nat.one_le_of_lt hle)
    have hle' : fuel ≤ n := Nat.le_of_succ_le_succ hle
    cases hstep : step s with
    | inl s' =>
      rw [loop_of_inl hstep] at h ⊢
      exact ih h hle'
    | inr r' =>
      rw [loop_of_inr hstep] at h ⊢
      exact h

/-- A loop ends with its last round. -/
theorem Ends.of_inr {s : σ} {r : ρ} (h : step s = .inr r) : Ends step s r :=
  ⟨1, loop_of_inr h 0⟩

/-- A round that goes on does not change where the loop ends. -/
theorem ends_inl_iff {s s' : σ} (h : step s = .inl s') (r : ρ) :
    Ends step s r ↔ Ends step s' r := by
  constructor
  · rintro ⟨fuel, hr⟩
    exact ⟨fuel, by rw [← loop_of_inl h]; exact loop_mono hr (Nat.le_succ fuel)⟩
  · rintro ⟨fuel, hr⟩
    exact ⟨fuel + 1, by rw [loop_of_inl h]; exact hr⟩

/-- **A loop ends in one way only.** -/
theorem Ends.unique {s : σ} {r r' : ρ} (h : Ends step s r) (h' : Ends step s r') : r = r' := by
  obtain ⟨fuel, hr⟩ := h
  obtain ⟨fuel', hr'⟩ := h'
  have hmax := loop_mono hr (le_max_left fuel fuel')
  rw [loop_mono hr' (le_max_right fuel fuel')] at hmax
  exact (Option.some.inj hmax).symm

/-- **A loop that a property of the state keeps going**, and that keeps the
property, does not end. -/
theorem not_ends_of_invariant {I : σ → Prop} (h : ∀ s, I s → ∃ s', step s = .inl s' ∧ I s')
    {s : σ} (hs : I s) (r : ρ) : ¬ Ends step s r := by
  rintro ⟨fuel, hr⟩
  induction fuel generalizing s with
  | zero => exact absurd hr (Option.some_ne_none r).symm
  | succ fuel ih =>
    obtain ⟨s', hstep, hs'⟩ := h s hs
    rw [loop_of_inl hstep] at hr
    exact ih hs' hr

/-! ## What follows a loop -/

/-- A loop that ends, followed by something. -/
theorem Ends.exists_map_iff {s : σ} {r : ρ} (h : Ends step s r) (f : ρ → τ) (o : τ) :
    (∃ fuel, (loop step fuel s).map f = some o) ↔ f r = o := by
  constructor
  · rintro ⟨fuel, ho⟩
    obtain ⟨r', hr', rfl⟩ := Option.map_eq_some_iff.mp ho
    exact congrArg f (h.unique ⟨fuel, hr'⟩)
  · rintro rfl
    obtain ⟨fuel, hr⟩ := h
    exact ⟨fuel, by rw [hr]; rfl⟩

/-- A loop that ends, followed by something that may itself take rounds. -/
theorem Ends.exists_bind_iff {s : σ} {r : ρ} (h : Ends step s r) {f : ℕ → ρ → Option τ}
    (hf : ∀ fuel fuel' o, f fuel r = some o → fuel ≤ fuel' → f fuel' r = some o) (o : τ) :
    (∃ fuel, (loop step fuel s).bind (f fuel) = some o) ↔ ∃ fuel, f fuel r = some o := by
  constructor
  · rintro ⟨fuel, ho⟩
    obtain ⟨r', hr', ho⟩ := Option.bind_eq_some_iff.mp ho
    obtain rfl := h.unique ⟨fuel, hr'⟩
    exact ⟨fuel, ho⟩
  · rintro ⟨fuel', ho⟩
    obtain ⟨fuel, hr⟩ := h
    refine ⟨max fuel fuel', ?_⟩
    rw [loop_mono hr (le_max_left fuel fuel'), Option.bind_some]
    exact hf fuel' (max fuel fuel') o ho (le_max_right fuel fuel')

end Rounds

end LoopRules
