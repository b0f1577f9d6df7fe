import Mathlib.Data.List.Pairwise
import Mathlib.Order.Basic
import Mathlib.Tactic

/-!
# Sorting by a key, stably

A stable sort orders a list by a key and leaves the elements of each key in the
order in which they stand. That determines the result (`StablySorted.unique`):
what has the smallest key must come first, and among those it is the first of
them in the list.

So where the keys are known beforehand, a stable sort is the same as picking
out the elements key by key (`stableSort_eq_flatMap`).
-/

namespace StableSort

variable {α κ : Type*}

/-- **`std::stable_sort`** with a comparison that tells what comes before. -/
def stableSort (lt : α → α → Bool) (l : List α) : List α := l.mergeSort fun a b => !lt b a

variable [LinearOrder κ]

/-- The elements of a key, in order. -/
def classOf (key : α → κ) (k : κ) (l : List α) : List α := l.filter fun a => key a = k

section ClassOf

variable {key : α → κ} {k : κ} {a : α}

theorem mem_classOf {l : List α} : a ∈ classOf key k l ↔ a ∈ l ∧ key a = k := by
  rw [classOf, List.mem_filter, decide_eq_true_eq]

theorem classOf_cons_of_eq (h : key a = k) (l : List α) :
    classOf key k (a :: l) = a :: classOf key k l :=
  List.filter_cons_of_pos (decide_eq_true h)

theorem classOf_cons_of_ne (h : key a ≠ k) (l : List α) :
    classOf key k (a :: l) = classOf key k l :=
  List.filter_cons_of_neg fun hk => h (of_decide_eq_true hk)

theorem classOf_append (l l' : List α) :
    classOf key k (l ++ l') = classOf key k l ++ classOf key k l' :=
  List.filter_append _ _

/-- A class within a class. -/
theorem classOf_classOf (k' : κ) (l : List α) :
    classOf key k (classOf key k' l) = if k' = k then classOf key k l else [] := by
  by_cases hk : k' = k
  · subst hk
    rw [if_pos rfl]
    exact List.filter_eq_self.mpr fun a ha => decide_eq_true (mem_classOf.mp ha).2
  · rw [if_neg hk]
    refine List.filter_eq_nil_iff.mpr fun a ha => ?_
    rw [decide_eq_true_eq, (mem_classOf.mp ha).2]
    exact hk

end ClassOf

/-- **A list is another one, stably sorted by a key.** -/
structure StablySorted (key : α → κ) (l sorted : List α) : Prop where
  pairwise : sorted.Pairwise fun a b => key a ≤ key b
  stable : ∀ k, classOf key k sorted = classOf key k l

namespace StablySorted

variable {key : α → κ} {l sorted sorted' : List α}

/-- Lists that agree key by key have the same elements. -/
theorem mem_iff_of_classOf (h : ∀ k, classOf key k sorted = classOf key k l) (a : α) :
    a ∈ sorted ↔ a ∈ l := by
  have hclass := congrArg (a ∈ ·) (h (key a))
  simp only [mem_classOf, and_true, eq_iff_iff] at hclass
  exact hclass

/-- The first element of a sorted list has the smallest key. -/
theorem key_head_le {a x : α} {s : List α} (hs : (a :: s).Pairwise fun a b => key a ≤ key b)
    (hx : x ∈ a :: s) : key a ≤ key x := by
  rcases List.mem_cons.mp hx with rfl | hx
  · exact le_rfl
  · exact List.rel_of_pairwise_cons hs hx

/-- Two sorted lists that agree key by key begin with the same element. -/
theorem head_eq {a b : α} {s t : List α} (ha : (a :: s).Pairwise fun a b => key a ≤ key b)
    (hb : (b :: t).Pairwise fun a b => key a ≤ key b)
    (h : ∀ k, classOf key k (a :: s) = classOf key k (b :: t)) : a = b := by
  have hmem := mem_iff_of_classOf h
  have hkey : key b = key a :=
    le_antisymm (key_head_le hb ((hmem a).mp List.mem_cons_self))
      (key_head_le ha ((hmem b).mpr List.mem_cons_self))
  have hhead := h (key a)
  rw [classOf_cons_of_eq rfl, classOf_cons_of_eq hkey] at hhead
  exact (List.cons.inj hhead).1

/-- **There is only one way to sort stably.** -/
theorem unique (h : StablySorted key l sorted) (h' : StablySorted key l sorted') :
    sorted = sorted' := by
  have hagree : ∀ k, classOf key k sorted = classOf key k sorted' :=
    fun k => (h.stable k).trans (h'.stable k).symm
  have hs := h.pairwise
  have hs' := h'.pairwise
  clear h h'
  induction sorted generalizing sorted' with
  | nil =>
    cases sorted' with
    | nil => rfl
    | cons b t =>
      have hmem := mem_iff_of_classOf hagree b
      exact absurd (hmem.mpr List.mem_cons_self) List.not_mem_nil
  | cons a s ih =>
    cases sorted' with
    | nil =>
      have hmem := mem_iff_of_classOf hagree a
      exact absurd (hmem.mp List.mem_cons_self) List.not_mem_nil
    | cons b t =>
      obtain rfl := head_eq hs hs' hagree
      refine congrArg (a :: ·) (ih (fun k => ?_) hs.of_cons hs'.of_cons)
      have hk := hagree k
      by_cases hak : key a = k
      · rw [classOf_cons_of_eq hak, classOf_cons_of_eq hak] at hk
        exact (List.cons.inj hk).2
      · rw [classOf_cons_of_ne hak, classOf_cons_of_ne hak] at hk
        exact hk

end StablySorted

section StableSort

variable {lt : α → α → Bool} {key : α → κ}

/-- **Comparing by a key sorts stably by the key.** -/
theorem stablySorted_stableSort (hlt : ∀ a b, lt a b = true ↔ key a < key b) (l : List α) :
    StablySorted key l (stableSort lt l) := by
  have hle : ∀ a b, (!lt b a) = true ↔ key a ≤ key b := by
    intro a b
    rw [Bool.not_eq_true', ← Bool.not_eq_true, hlt, not_lt]
  have htrans : ∀ a b c, (!lt b a) = true → (!lt c b) = true → (!lt c a) = true := by
    intro a b c
    simp only [hle]
    exact le_trans
  have htotal : ∀ a b, ((!lt b a) || !lt a b) = true := by
    intro a b
    rw [Bool.or_eq_true, hle, hle]
    exact le_total _ _
  refine ⟨(List.pairwise_mergeSort htrans htotal l).imp fun h => (hle _ _).mp h, fun k => ?_⟩
  have hclass : (classOf key k l).Pairwise fun a b => (!lt b a) = true := by
    refine List.pairwise_of_forall_mem_list fun a ha b hb => ?_
    rw [hle, (mem_classOf.mp ha).2, (mem_classOf.mp hb).2]
  -- the elements of a key are a sorted part of the list, so they stay in order
  have hsub : List.Sublist (classOf key k l) (stableSort lt l) :=
    List.sublist_mergeSort htrans htotal hclass List.filter_sublist
  have hsub' := hsub.filter fun a => key a = k
  rw [show (classOf key k l).filter (fun a => key a = k) = classOf key k l from
    (classOf_classOf k l).trans (if_pos rfl)] at hsub'
  have hperm : (stableSort lt l).Perm l := List.mergeSort_perm _ _
  exact (hsub'.eq_of_length (hperm.filter _).length_eq.symm).symm

/-- Picking out the elements key by key sorts stably, if all keys are listed in
order. -/
theorem stablySorted_flatMap {ks : List κ} (hks : ks.Pairwise (· < ·)) {l : List α}
    (hmem : ∀ a ∈ l, key a ∈ ks) : StablySorted key l (ks.flatMap fun k => classOf key k l) := by
  constructor
  · clear hmem
    induction ks with
    | nil => exact List.Pairwise.nil
    | cons k ks ih =>
      rw [List.flatMap_cons, List.pairwise_append]
      refine ⟨List.pairwise_of_forall_mem_list fun a ha b hb => ?_, ih hks.of_cons, ?_⟩
      · rw [(mem_classOf.mp ha).2, (mem_classOf.mp hb).2]
      · intro a ha b hb
        obtain ⟨k', hk', hb⟩ := List.mem_flatMap.mp hb
        rw [(mem_classOf.mp ha).2, (mem_classOf.mp hb).2]
        exact (List.rel_of_pairwise_cons hks hk').le
  · intro k
    have hsplit : ∀ ks : List κ, ks.Pairwise (· < ·) →
        classOf key k (ks.flatMap fun k => classOf key k l)
          = if k ∈ ks then classOf key k l else [] := by
      intro ks hks
      induction ks with
      | nil => rfl
      | cons k' ks ih =>
        rw [List.flatMap_cons, classOf_append, classOf_classOf, ih hks.of_cons]
        by_cases hk : k' = k
        · subst hk
          have hnot : k' ∉ ks := fun h => lt_irrefl _ (List.rel_of_pairwise_cons hks h)
          rw [if_pos rfl, if_neg hnot, if_pos List.mem_cons_self, List.append_nil]
        · rw [if_neg hk, List.nil_append]
          simp only [List.mem_cons, Ne.symm hk, false_or]
    rw [hsplit ks hks]
    by_cases hk : k ∈ ks
    · exact if_pos hk
    · rw [if_neg hk]
      refine (List.filter_eq_nil_iff.mpr fun a ha => ?_).symm
      rw [decide_eq_true_eq]
      exact fun h => hk (h ▸ hmem a ha)

/-- **A stable sort picks out the elements key by key.** -/
theorem stableSort_eq_flatMap (hlt : ∀ a b, lt a b = true ↔ key a < key b) {ks : List κ}
    (hks : ks.Pairwise (· < ·)) {l : List α} (hmem : ∀ a ∈ l, key a ∈ ks) :
    stableSort lt l = ks.flatMap fun k => classOf key k l :=
  (stablySorted_stableSort hlt l).unique (stablySorted_flatMap hks hmem)

end StableSort

end StableSort
