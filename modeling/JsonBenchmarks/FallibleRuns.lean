import Mathlib.Data.List.Forall2
import Mathlib.Tactic.Common

/-!
# Runs that may throw

A computation that may throw is followed step by step: what comes out of a
sequence of two comes out of its parts (`bind_eq_ok_iff`). A run of a program
may also not end. Then there are three outcomes, and the same is said of a
sequence for a result (`run_bind_eq_ok_iff`) and for an exception, which the
first part throws, or the second behind a first that has a result
(`run_bind_eq_error_iff`).
-/

namespace FallibleRuns

variable {ε α β : Type}

/-! ## Throwing -/

/-- A computation that throws nothing throws nothing in its parts. -/
theorem bind_eq_ok_iff {x : Except ε α} {f : α → Except ε β} {b : β} :
    x.bind f = .ok b ↔ ∃ a, x = .ok a ∧ f a = .ok b := by
  cases x with
  | error e => exact iff_of_false (fun h => nomatch h) fun ⟨a, ha, _⟩ => nomatch ha
  | ok a => exact ⟨fun h => ⟨a, rfl, h⟩, fun ⟨a', ha, h⟩ => Except.ok.inj ha ▸ h⟩

/-- A loop that throws nothing, round by round. -/
theorem mapM_eq_ok_iff {f : α → Except ε β} {as : List α} {bs : List β} :
    as.mapM f = .ok bs ↔ List.Forall₂ (fun a b => f a = .ok b) as bs := by
  induction as generalizing bs with
  | nil =>
    rw [List.mapM_nil, List.forall₂_nil_left_iff]
    exact ⟨fun h => (Except.ok.inj h).symm, fun h => congrArg Except.ok h.symm⟩
  | cons a as ih =>
    rw [List.mapM_cons, List.forall₂_cons_left_iff]
    show (f a).bind (fun b => (as.mapM f).bind fun bs => .ok (b :: bs)) = _ ↔ _
    rw [bind_eq_ok_iff]
    constructor
    · rintro ⟨b, hb, hrest⟩
      obtain ⟨bs', hbs', hcons⟩ := bind_eq_ok_iff.mp hrest
      exact ⟨b, bs', hb, ih.mp hbs', (Except.ok.inj hcons).symm⟩
    · rintro ⟨b, bs', hb, hbs', rfl⟩
      exact ⟨b, hb, bind_eq_ok_iff.mpr ⟨bs', ih.mpr hbs', rfl⟩⟩

/-! ## Throwing and not ending -/

section Run

variable {x : ExceptT ε Option α} {f : α → ExceptT ε Option β}

/-- **When a sequence has a result.** -/
theorem run_bind_eq_ok_iff {b : β} :
    (x >>= f).run = some (.ok b) ↔ ∃ a, x.run = some (.ok a) ∧ (f a).run = some (.ok b) := by
  rw [ExceptT.run_bind]
  rcases x.run with _ | (e | a)
  · exact iff_of_false (fun h => nomatch h) fun ⟨a, ha, _⟩ => nomatch ha
  · exact iff_of_false (fun h => nomatch h) fun ⟨a, ha, _⟩ => nomatch ha
  · exact ⟨fun h => ⟨a, rfl, h⟩, fun ⟨a', ha, h⟩ => by
      obtain rfl : a = a' := Except.ok.inj (Option.some.inj ha)
      exact h⟩

/-- **When it throws.** -/
theorem run_bind_eq_error_iff {e : ε} :
    (x >>= f).run = some (.error e) ↔ x.run = some (.error e) ∨
      ∃ a, x.run = some (.ok a) ∧ (f a).run = some (.error e) := by
  rw [ExceptT.run_bind]
  rcases x.run with _ | (e' | a)
  · exact iff_of_false (fun h => nomatch h) fun h => h.elim (fun h => nomatch h)
      fun ⟨a, ha, _⟩ => nomatch ha
  · refine Iff.trans ?_ (or_iff_left fun ⟨a, ha, _⟩ => nomatch ha).symm
    exact ⟨fun h => congrArg (some ∘ Except.error) (Except.error.inj (Option.some.inj h)),
      fun h => congrArg (some ∘ Except.error) (Except.error.inj (Option.some.inj h))⟩
  · refine Iff.trans ?_ (or_iff_right fun h => nomatch h).symm
    exact ⟨fun h => ⟨a, rfl, h⟩, fun ⟨a', ha, h⟩ => by
      obtain rfl : a = a' := Except.ok.inj (Option.some.inj ha)
      exact h⟩

/-- A part that throws nothing. -/
theorem run_lift_eq_ok_iff {y : Option α} {a : α} :
    (ExceptT.lift y : ExceptT ε Option α).run = some (.ok a) ↔ y = some a := by
  rw [ExceptT.run_lift]
  cases y with
  | none => exact iff_of_false (fun h => nomatch h) fun h => nomatch h
  | some a' =>
    exact ⟨fun h => congrArg some (Except.ok.inj (Option.some.inj h)),
      fun h => congrArg (some ∘ Except.ok) (Option.some.inj h)⟩

theorem run_lift_ne_error {y : Option α} {e : ε} :
    (ExceptT.lift y : ExceptT ε Option α).run ≠ some (.error e) := by
  rw [ExceptT.run_lift]
  cases y with
  | none => exact fun h => nomatch h
  | some a => exact fun h => nomatch h

/-- A part that ends. -/
theorem run_ofExcept (y : Except ε α) : (ofExcept y : ExceptT ε Option α).run = some y := by
  cases y <;> rfl

end Run

end FallibleRuns
