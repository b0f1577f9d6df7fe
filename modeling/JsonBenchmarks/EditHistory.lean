import Mathlib.Data.List.Basic
import Mathlib.Tactic

/-!
# Sequences that are cut, filled up and overwritten

A file that is resized and written into at offsets is edited in place, and an
edit says what becomes of it all at once. Asked for a single position, one
would rather look back: at the last edit that has anything to do with the
position. `lastWritten` reads a history of edits in this way, the latest first,
and `getElem?_applyAll` says that it finds what the edits have made of the
sequence, if none of them writes beyond the end that it finds.

The proviso is needed. What is written beyond the end is lost, and the history
does not know it.
-/

namespace EditHistory

variable {α : Type}

/-- **An edit.** -/
inductive Edit (α : Type)
  | overwrite (offset : ℕ) (values : List α)
  | resize (size : ℕ)

/-- What an edit writes to a position. -/
def writtenAt (offset : ℕ) (values : List α) (i : ℕ) : Option α :=
  if offset ≤ i then values[i - offset]? else none

namespace Edit

/-- What an edit makes of a sequence. -/
def apply (zero : α) (s : List α) : Edit α → List α
  | overwrite offset values => s.mapIdx fun i x => (writtenAt offset values i).getD x
  | resize size => s.take size ++ List.replicate (size - s.length) zero

/-- Edits in order. -/
def applyAll (zero : α) (s : List α) (es : List (Edit α)) : List α :=
  es.foldl (apply zero) s

/-- The length behind an edit. -/
def sizeAfter (n : ℕ) : Edit α → ℕ
  | overwrite _ _ => n
  | resize size => size

/-- An edit writes within a sequence of some length. -/
def Within (n : ℕ) : Edit α → Prop
  | overwrite offset values => offset + values.length ≤ n
  | resize _ => True

instance (n : ℕ) (e : Edit α) : Decidable (e.Within n) :=
  match e with
  | overwrite offset values => inferInstanceAs (Decidable (offset + values.length ≤ n))
  | resize _ => inferInstanceAs (Decidable True)

/-- **Every edit writes within what it finds.** -/
def AllWithin : ℕ → List (Edit α) → Prop
  | _, [] => True
  | n, e :: es => e.Within n ∧ AllWithin (e.sizeAfter n) es

/-- **What a position holds**, looking back through the edits. -/
def lastWritten (zero : α) (s : List α) : List (Edit α) → ℕ → α
  | [], i => s[i]?.getD zero
  | overwrite offset values :: earlier, i =>
    (writtenAt offset values i).getD (lastWritten zero s earlier i)
  | resize size :: earlier, i => if i < size then lastWritten zero s earlier i else zero

variable (zero : α) (s : List α)

@[simp] theorem length_apply (e : Edit α) : (e.apply zero s).length = e.sizeAfter s.length := by
  cases e with
  | overwrite offset values => exact List.length_mapIdx
  | resize size =>
    show (s.take size ++ List.replicate (size - s.length) zero).length = size
    rw [List.length_append, List.length_take, List.length_replicate]
    omega

/-- The length behind some edits. -/
theorem length_applyAll (es : List (Edit α)) :
    (applyAll zero s es).length = es.foldl sizeAfter s.length := by
  induction es generalizing s with
  | nil => rfl
  | cons e es ih =>
    show (applyAll zero (e.apply zero s) es).length = _
    rw [ih, length_apply]
    rfl

theorem allWithin_append (n : ℕ) (es es' : List (Edit α)) :
    AllWithin n (es ++ es') ↔ AllWithin n es ∧ AllWithin (es.foldl sizeAfter n) es' := by
  induction es generalizing n with
  | nil => exact (and_iff_right trivial).symm
  | cons e es ih =>
    show e.Within n ∧ AllWithin (e.sizeAfter n) (es ++ es') ↔ _
    rw [ih, ← and_assoc]
    rfl

theorem allWithin_append_singleton (n : ℕ) (es : List (Edit α)) (e : Edit α) :
    AllWithin n (es ++ [e]) ↔ AllWithin n es ∧ e.Within (es.foldl sizeAfter n) := by
  rw [allWithin_append]
  exact and_congr_right fun _ => and_iff_left trivial

/-- Overwriting what stands behind a part of the sequence. -/
theorem apply_overwrite_append (t : List α) {w : List α} (h : w.length ≤ t.length) :
    (overwrite s.length w).apply zero (s ++ t) = s ++ w ++ t.drop w.length := by
  refine List.ext_getElem? fun i => ?_
  show ((s ++ t).mapIdx _)[i]? = _
  rw [List.getElem?_mapIdx, List.append_assoc]
  unfold writtenAt
  rcases Nat.lt_or_ge i s.length with hi | hi
  · rw [List.getElem?_append_left hi, List.getElem?_append_left hi, if_neg (not_le.mpr hi)]
    exact congrFun Option.map_id _
  · rw [List.getElem?_append_right hi, List.getElem?_append_right hi, if_pos hi]
    rcases Nat.lt_or_ge (i - s.length) w.length with hw | hw
    · rw [List.getElem?_append_left hw, List.getElem?_eq_getElem hw,
        List.getElem?_eq_getElem (hw.trans_le h)]
      rfl
    · rw [List.getElem?_append_right hw, List.getElem?_eq_none hw, List.getElem?_drop,
        Nat.add_sub_cancel' hw]
      exact congrFun Option.map_id _

/-- What is looked for in a history is the value at every position, which is
`zero` behind the end. -/
theorem getD_applyAll (es : List (Edit α)) (h : AllWithin s.length es) (i : ℕ) :
    (applyAll zero s es)[i]?.getD zero = lastWritten zero s es.reverse i := by
  induction es using List.reverseRecOn with
  | nil => rfl
  | append_singleton es e ih =>
    obtain ⟨hes, he⟩ := (allWithin_append_singleton s.length es e).mp h
    have hlast : applyAll zero s (es ++ [e]) = e.apply zero (applyAll zero s es) := by
      rw [applyAll, List.foldl_append]
      rfl
    rw [hlast, List.reverse_append, ← length_applyAll zero s es] at *
    cases e with
    | overwrite offset values =>
      show ((applyAll zero s es).mapIdx _)[i]?.getD zero
        = (writtenAt offset values i).getD (lastWritten zero s es.reverse i)
      rw [← ih hes, List.getElem?_mapIdx]
      by_cases hi : i < (applyAll zero s es).length
      · rw [List.getElem?_eq_getElem hi]
        rfl
      · -- nothing is written where there is nothing
        have hnone : writtenAt offset values i = none := by
          unfold writtenAt
          split
          · have hle : offset + values.length ≤ (applyAll zero s es).length := he
            exact List.getElem?_eq_none (by omega)
          · rfl
        rw [hnone, List.getElem?_eq_none (not_lt.mp hi)]
        rfl
    | resize size =>
      show ((applyAll zero s es).take size ++ _)[i]?.getD zero
        = if i < size then lastWritten zero s es.reverse i else zero
      rw [← ih hes]
      by_cases hi : i < size
      · rw [if_pos hi]
        by_cases hlen : i < (applyAll zero s es).length
        · rw [List.getElem?_append_left (by rw [List.length_take]; omega), List.getElem?_take,
            if_pos hi]
        · rw [List.getElem?_append_right (by rw [List.length_take]; omega),
            List.getElem?_eq_none (not_lt.mp hlen), List.getElem?_replicate]
          split <;> rfl
      · rw [if_neg hi, List.getElem?_eq_none]
        · rfl
        · rw [List.length_append, List.length_take, List.length_replicate]
          omega

/-- **The sequence behind some edits**, position by position: up to its length
it holds what was written last. -/
theorem getElem?_applyAll (es : List (Edit α)) (h : AllWithin s.length es) (i : ℕ) :
    (applyAll zero s es)[i]? = if i < es.foldl sizeAfter s.length then
      some (lastWritten zero s es.reverse i) else none := by
  rw [← getD_applyAll zero s es h, ← length_applyAll zero s es]
  split
  · rw [List.getElem?_eq_getElem ‹_›]
    rfl
  · exact List.getElem?_eq_none (not_lt.mp ‹_›)

end Edit

end EditHistory
