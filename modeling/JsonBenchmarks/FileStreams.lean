import Mathlib.Data.List.TakeWhile
import Mathlib.Tactic

/-!
# Files that are read as streams

`std::ifstream` has three bits of state besides its position: the end of the
file has been met, an operation has failed, and reading is broken. Blocks are
read with `read`, lines with `std::getline`.

A stream delivers its characters up to its end or up to an error. The two are
told apart by one bit only: where reading is broken the end of the file is not
met, then or ever.
-/

namespace FileStreams

variable {α : Type*}

/-- **An input file stream.** -/
structure IFileStream (α : Type*) where
  /-- What is still to be read. -/
  rest : List α
  /-- Whether reading behind it is an error, and not the end of the file. -/
  broken : Bool
  eof : Bool
  fail : Bool
  bad : Bool

namespace IFileStream

/-- A stream that has just been opened. -/
def opened (content : List α) (broken : Bool) : IFileStream α :=
  ⟨content, broken, false, false, false⟩

def good (is : IFileStream α) : Bool := !is.eof && !is.fail && !is.bad

/-- `operator bool`. -/
def toBool (is : IFileStream α) : Bool := !is.fail && !is.bad

/-- `read`: the characters that `gcount` counts, and the stream. -/
def read (n : ℕ) (is : IFileStream α) : List α × IFileStream α :=
  if is.good then
    if n ≤ is.rest.length then (is.rest.take n, { is with rest := is.rest.drop n })
    else if is.broken then ([], { is with rest := [], bad := true })
    else (is.rest, { is with rest := [], eof := true, fail := true })
  else ([], { is with fail := true })

/-- `std::getline`: the line, and the stream. On a stream that is not good the
line is left as it is. -/
def getline (line : List Char) (is : IFileStream Char) : List Char × IFileStream Char :=
  if is.good then
    match is.rest.dropWhile (· ≠ '\n') with
    | _ :: rest => (is.rest.takeWhile (· ≠ '\n'), { is with rest := rest })
    | [] =>
      (is.rest, { is with
        rest := [], eof := !is.broken, bad := is.broken, fail := is.rest.isEmpty })
  else (line, { is with fail := true })

/-! ## Reading blocks -/

/-- A whole block is delivered without the end being met, even if it is the
last. -/
theorem read_opened_append {n : ℕ} {block : List α} (hblock : block.length = n) (rest : List α)
    (broken : Bool) : (opened (block ++ rest) broken).read n = (block, opened rest broken) := by
  have hle : n ≤ (block ++ rest).length := by
    rw [List.length_append, hblock]
    exact Nat.le_add_right n rest.length
  show (if n ≤ (block ++ rest).length then
    ((block ++ rest).take n, opened ((block ++ rest).drop n) broken) else _) = _
  rw [if_pos hle, List.take_left' hblock, List.drop_left' hblock]

/-- What is less than a block is delivered with the end, unless reading is
broken. -/
theorem read_opened_of_lt {n : ℕ} {rest : List α} (hlt : rest.length < n) (broken : Bool) :
    (opened rest broken).read n =
      if broken then ([], ⟨[], true, false, false, true⟩)
      else (rest, ⟨[], false, true, true, false⟩) := by
  show (if n ≤ rest.length then _ else _) = _
  rw [if_neg (Nat.not_le_of_lt hlt)]
  cases broken <;> rfl

/-- Nothing is read from a stream that is broken, and it stays so. -/
theorem read_of_bad (n : ℕ) {is : IFileStream α} (h : is.bad = true) :
    is.read n = ([], { is with fail := true }) := by
  rw [read, good, h, Bool.not_true, Bool.and_false, if_neg Bool.false_ne_true]

end IFileStream

/-! ## Blocks -/

/-- The blocks of a length that a list begins with. -/
def wholeBlocks (n : ℕ) (xs : List α) : List (List α) :=
  (List.range (xs.length / n)).map fun i => (xs.drop (i * n)).take n

/-- What is left behind them. -/
def remainder (n : ℕ) (xs : List α) : List α := xs.drop (xs.length / n * n)

section Blocks

variable {n : ℕ}

/-- **A list is less than a block, or a block in front of a list.** -/
theorem block_induction (hn : 0 < n) {motive : List α → Prop}
    (short : ∀ xs, xs.length < n → motive xs)
    (block : ∀ b xs, b.length = n → motive xs → motive (b ++ xs)) (xs : List α) : motive xs := by
  induction hk : xs.length using Nat.strong_induction_on generalizing xs with
  | _ k ih =>
    by_cases hlt : xs.length < n
    · exact short xs hlt
    · have hle : n ≤ xs.length := Nat.le_of_not_lt hlt
      rw [← List.take_append_drop n xs]
      refine block _ _ (List.length_take_of_le hle) (ih _ ?_ _ rfl)
      rw [List.length_drop, ← hk]
      exact Nat.sub_lt (Nat.lt_of_lt_of_le hn hle) hn

theorem wholeBlocks_of_lt {xs : List α} (h : xs.length < n) : wholeBlocks n xs = [] := by
  unfold wholeBlocks
  rw [Nat.div_eq_of_lt h]
  rfl

theorem remainder_of_lt {xs : List α} (h : xs.length < n) : remainder n xs = xs := by
  unfold remainder
  rw [Nat.div_eq_of_lt h, Nat.zero_mul, List.drop_zero]

/-- A block more in front. -/
theorem length_append_div (hn : 0 < n) {b : List α} (hb : b.length = n) (xs : List α) :
    (b ++ xs).length / n = xs.length / n + 1 := by
  rw [List.length_append, hb, Nat.add_div_left _ hn]

theorem wholeBlocks_append (hn : 0 < n) {b : List α} (hb : b.length = n) (xs : List α) :
    wholeBlocks n (b ++ xs) = b :: wholeBlocks n xs := by
  rw [wholeBlocks, length_append_div hn hb, List.range_succ_eq_map, List.map_cons, List.map_map,
    Nat.zero_mul, List.drop_zero, List.take_left' hb, wholeBlocks]
  refine congrArg (b :: ·) (List.map_congr_left fun i _ => congrArg (List.take n) ?_)
  rw [Nat.succ_mul, Nat.add_comm, ← List.drop_drop, List.drop_left' hb]

theorem remainder_append (hn : 0 < n) {b : List α} (hb : b.length = n) (xs : List α) :
    remainder n (b ++ xs) = remainder n xs := by
  rw [remainder, length_append_div hn hb, Nat.succ_mul, Nat.add_comm, ← List.drop_drop,
    List.drop_left' hb, remainder]

/-- **Nothing is lost between blocks.** -/
theorem flatten_wholeBlocks_append (hn : 0 < n) (xs : List α) :
    (wholeBlocks n xs ++ [remainder n xs]).flatten = xs := by
  induction xs using block_induction hn with
  | short xs hlt =>
    rw [wholeBlocks_of_lt hlt, remainder_of_lt hlt, List.nil_append, List.flatten_singleton]
  | block b xs hb ih =>
    rw [wholeBlocks_append hn hb, remainder_append hn hb, List.cons_append, List.flatten_cons, ih]

end Blocks

/-! ## Lines -/

/-- **The lines of a text.** A last line need not have a newline behind it, but
then it is not empty. -/
def linesOf : List Char → List (List Char)
  | [] => []
  | c :: cs =>
    if c = '\n' then [] :: linesOf cs
    else match linesOf cs with
      | [] => [[c]]
      | line :: lines => (c :: line) :: lines

/-- **What stands behind the last newline.** -/
def unterminated : List Char → List Char
  | [] => []
  | c :: cs => if c = '\n' ∨ '\n' ∈ cs then unterminated cs else c :: cs

/-- A text is a last piece without a newline, or a line in front of a text. -/
theorem text_induction {motive : List Char → Prop} (last : ∀ cs, '\n' ∉ cs → motive cs)
    (line : ∀ l cs, '\n' ∉ l → motive cs → motive (l ++ '\n' :: cs)) (cs : List Char) :
    motive cs := by
  induction hk : cs.length using Nat.strong_induction_on generalizing cs with
  | _ k ih =>
    by_cases hnl : '\n' ∈ cs
    · obtain ⟨l, rest, rfl, hl⟩ := List.eq_append_cons_of_mem hnl
      refine line l rest hl (ih _ ?_ _ rfl)
      rw [← hk, List.length_append, List.length_cons]
      omega
    · exact last cs hnl

theorem linesOf_append_newline {l : List Char} (hl : '\n' ∉ l) (cs : List Char) :
    linesOf (l ++ '\n' :: cs) = l :: linesOf cs := by
  induction l with
  | nil => exact if_pos rfl
  | cons c l ih =>
    rw [List.mem_cons, not_or] at hl
    rw [List.cons_append, linesOf, if_neg (Ne.symm hl.1), ih hl.2]

theorem linesOf_of_notMem {cs : List Char} (hne : cs ≠ []) (hnl : '\n' ∉ cs) :
    linesOf cs = [cs] := by
  induction cs with
  | nil => exact absurd rfl hne
  | cons c cs ih =>
    rw [List.mem_cons, not_or] at hnl
    rw [linesOf, if_neg (Ne.symm hnl.1)]
    by_cases hcs : cs = []
    · rw [hcs]
      rfl
    · rw [ih hcs hnl.2]

theorem unterminated_append_newline (l cs : List Char) :
    unterminated (l ++ '\n' :: cs) = unterminated cs := by
  induction l with
  | nil => exact if_pos (Or.inl rfl)
  | cons c l ih =>
    have hmem : '\n' ∈ l ++ '\n' :: cs := List.mem_append_right l List.mem_cons_self
    rw [List.cons_append, unterminated, if_pos (Or.inr hmem), ih]

theorem unterminated_of_notMem {cs : List Char} (hnl : '\n' ∉ cs) : unterminated cs = cs := by
  cases cs with
  | nil => rfl
  | cons c cs =>
    rw [List.mem_cons, not_or] at hnl
    rw [unterminated, if_neg (not_or.mpr ⟨Ne.symm hnl.1, hnl.2⟩)]

/-! ## Reading lines -/

section Separators

variable [DecidableEq α] {c : α} {l : List α}

theorem forall_mem_decide_ne (hl : c ∉ l) : ∀ b ∈ l, decide (b ≠ c) = true :=
  fun _ hb => decide_eq_true fun h => hl (h ▸ hb)

/-- What stands before a separator. -/
theorem takeWhile_ne_append (hl : c ∉ l) (s : List α) :
    (l ++ c :: s).takeWhile (· ≠ c) = l := by
  rw [List.takeWhile_append_of_pos (forall_mem_decide_ne hl), List.takeWhile_cons,
    if_neg (by simp), List.append_nil]

/-- What stands from a separator on. -/
theorem dropWhile_ne_append (hl : c ∉ l) (s : List α) :
    (l ++ c :: s).dropWhile (· ≠ c) = c :: s := by
  rw [List.dropWhile_append_of_pos (forall_mem_decide_ne hl), List.dropWhile_cons,
    if_neg (by simp)]

theorem dropWhile_ne_of_notMem (hl : c ∉ l) : l.dropWhile (· ≠ c) = [] :=
  List.dropWhile_eq_nil_iff.mpr (forall_mem_decide_ne hl)

end Separators

namespace IFileStream

/-- A line is taken with its newline. -/
theorem getline_opened_append {l : List Char} (hl : '\n' ∉ l) (line cs : List Char)
    (broken : Bool) :
    (opened (l ++ '\n' :: cs) broken).getline line = (l, opened cs broken) := by
  show (match (l ++ '\n' :: cs).dropWhile (· ≠ '\n') with
    | _ :: rest => ((l ++ '\n' :: cs).takeWhile (· ≠ '\n'), opened rest broken)
    | [] => _) = _
  rw [dropWhile_ne_append hl, takeWhile_ne_append hl]

/-- The last piece is taken with the end of the file, and fails if there is
nothing to take. -/
theorem getline_opened_of_notMem {cs : List Char} (hnl : '\n' ∉ cs) (line : List Char) :
    (opened cs false).getline line = (cs, ⟨[], false, true, cs.isEmpty, false⟩) := by
  show (match cs.dropWhile (· ≠ '\n') with | _ :: _ => _ | [] => _) = _
  rw [dropWhile_ne_of_notMem hnl]
  rfl

/-- On a stream at the end of its file the line is left as it is. -/
theorem getline_of_eof (line : List Char) {is : IFileStream Char} (h : is.eof = true) :
    is.getline line = (line, { is with fail := true }) := by
  rw [getline, good, h, Bool.not_true, Bool.false_and, Bool.false_and,
    if_neg Bool.false_ne_true]

end IFileStream

end FileStreams
