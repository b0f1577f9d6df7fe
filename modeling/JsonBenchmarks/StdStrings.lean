import Mathlib.Tactic

/-!
# Functions on C and C++ strings

A string is the list of its characters. A C string has a NUL behind it that is
not one of them, and `strncmp` sees it: comparing a name with as many
characters as an argument has tells whether the argument is an *initial part*
of the name, not whether it is the name (`strncmp_length_eq_zero_iff`).

The functions of `std::string` that can go wrong say so. `substr` is undefined
where it throws, beyond the end of the string; `front` and `back` are those of
lists, undefined on an empty string, where C++ has no result either.
-/

namespace StdStrings

/-! ## Comparing -/

/-- `strncmp`: the difference of the first two characters that differ, among
the first `n` and up to a NUL. -/
def strncmp : List Char → List Char → ℕ → ℤ
  | _, _, 0 => 0
  | [], [], _ + 1 => 0
  | [], b :: _, _ + 1 => 0 - b.toNat
  | a :: _, [], _ + 1 => a.toNat - 0
  | a :: as, b :: bs, n + 1 =>
    if a ≠ b then a.toNat - b.toNat else if a = '\x00' then 0 else strncmp as bs n

/-- The two strings have a first part in common that ends with the second, or
with the NUL behind the first. -/
def Comparable (name s : List Char) : Prop :=
  s <+: name ++ ['\x00'] ∨ name ++ ['\x00'] <+: s

/-- Two characters differ exactly if their codes do. -/
theorem toNat_sub_toNat_eq_zero_iff (a b : Char) : (a.toNat : ℤ) - b.toNat = 0 ↔ a = b := by
  rw [sub_eq_zero, Nat.cast_inj]
  exact Char.toNat_inj

/-- **Comparing as many characters as the second string has** tells whether it
is an initial part of the first. -/
theorem strncmp_length_eq_zero_iff {name : List Char} (hname : '\x00' ∉ name) (s : List Char) :
    strncmp name s s.length = 0 ↔ Comparable name s := by
  unfold Comparable
  induction name generalizing s with
  | nil =>
    cases s with
    | nil => simp [strncmp]
    | cons b bs =>
      show (('\x00'.toNat : ℤ) - b.toNat = 0) ↔ _
      rw [toNat_sub_toNat_eq_zero_iff]
      simp only [List.nil_append, List.cons_prefix_cons, List.nil_prefix, and_true]
      exact ⟨fun h => Or.inr h, fun h => h.elim (fun h => h.1.symm) id⟩
  | cons a as ih =>
    rw [List.mem_cons, not_or] at hname
    cases s with
    | nil => simp [strncmp]
    | cons b bs =>
      rw [List.length_cons, strncmp]
      by_cases hab : a = b
      · -- the first characters agree, and the rest decides
        subst hab
        rw [if_neg (not_not_intro rfl), if_neg (Ne.symm hname.1), ih hname.2]
        simp only [List.cons_append, List.cons_prefix_cons, true_and]
      · rw [if_pos hab, toNat_sub_toNat_eq_zero_iff]
        simp only [List.cons_append, List.cons_prefix_cons, hab, Ne.symm hab, false_and, or_self]

/-! ## Searching -/

/-- `find` for a string: the first position at which it stands. -/
def findStr (key : List Char) : List Char → Option ℕ
  | [] => if key = [] then some 0 else none
  | c :: cs => if key <+: c :: cs then some 0 else (findStr key cs).map (· + 1)

/-- A string is found exactly if it stands somewhere. -/
theorem isSome_findStr_iff (key s : List Char) : (findStr key s).isSome = true ↔ key <:+: s := by
  induction s with
  | nil =>
    rw [findStr, List.infix_nil]
    split <;> simp_all
  | cons c cs ih =>
    rw [findStr, List.infix_cons_iff]
    by_cases hkey : key <+: c :: cs
    · rw [if_pos hkey]
      exact iff_of_true rfl (Or.inl hkey)
    · rw [if_neg hkey, Option.isSome_map, ih]
      exact (or_iff_right hkey).symm

/-- The first occurrence of a character. -/
theorem findStr_singleton_append {c : Char} {l : List Char} (hl : c ∉ l) (s : List Char) :
    findStr [c] (l ++ c :: s) = some l.length := by
  induction l with
  | nil => exact if_pos ⟨s, rfl⟩
  | cons b l ih =>
    rw [List.mem_cons, not_or] at hl
    have hne : ¬ [c] <+: b :: (l ++ c :: s) := fun h => hl.1 (List.cons_prefix_cons.mp h).1
    rw [List.cons_append, findStr, if_neg hne, ih hl.2, Option.map_some, List.length_cons]

theorem findStr_singleton_of_notMem {c : Char} {s : List Char} (hs : c ∉ s) :
    findStr [c] s = none := by
  rw [← Option.not_isSome_iff_eq_none, isSome_findStr_iff, List.singleton_infix_iff]
  exact hs

/-- `substr` from a position on; it throws beyond the end. -/
def substr (s : List Char) (pos : ℕ) : Option (List Char) :=
  if pos ≤ s.length then some (s.drop pos) else none

end StdStrings
