import Mathlib.Data.List.DropRight
import Mathlib.Data.List.Infix
import Mathlib.Tactic

/-!
# Pipe tables

A table of Markdown has one line for each of its rows, and the cells of a row
stand between pipes. The second line is made of dashes and says of the first
that it is a header; without it, or with another number of cells in it, there
is no table. A row is cut or filled up to as many cells as the header has.

What is read of a text has its characters from the cells of its lines
(`cellText_read_sublist`), without line endings, and without blanks at the ends
of a cell. A backslash in front of a pipe is not read, and the pipe is. Nothing
else makes a pipe part of a cell, so the backslashes and the pipes of the cells
together are the backslashes of the line (`count_pieces`).
-/

namespace PipeTables

/-! ## Lines -/

/-- The characters that end a line. -/
def isLineEnd (c : Char) : Bool := c == '\n' || c == '\r'

/-- The lines of a text, of which the last one may be empty. -/
def pipeLines : List Char → List (List Char)
  | [] => [[]]
  | '\r' :: '\n' :: cs => [] :: pipeLines cs
  | c :: cs => if isLineEnd c then [] :: pipeLines cs else (pipeLines cs).modifyHead (c :: ·)

/-- A text without line endings. -/
def OneLine (s : List Char) : Prop := ∀ c ∈ s, isLineEnd c = false

theorem oneLine_of_all {s : List Char} (h : s.all (!isLineEnd ·) = true) : OneLine s := by
  intro c hc
  simpa using List.all_eq_true.mp h c hc

theorem pipeLines_ne_nil (cs : List Char) : pipeLines cs ≠ [] := by
  fun_induction pipeLines cs with
  | case1 => exact List.cons_ne_nil _ _
  | case2 cs ih => exact List.cons_ne_nil _ _
  | case3 c cs hc h ih => exact List.cons_ne_nil _ _
  | case4 c cs hc h ih =>
    obtain ⟨l, ls, hls⟩ := List.exists_cons_of_ne_nil ih
    rw [hls]
    exact List.cons_ne_nil _ _

/-- No line has a line ending in it. -/
theorem oneLine_of_mem_pipeLines (cs : List Char) : ∀ l ∈ pipeLines cs, OneLine l := by
  fun_induction pipeLines cs with
  | case1 =>
    intro l hl
    rw [List.mem_singleton.mp hl]
    exact fun c hc => absurd hc List.not_mem_nil
  | case2 cs ih =>
    exact List.forall_mem_cons.mpr ⟨fun c hc => absurd hc List.not_mem_nil, ih⟩
  | case3 c cs hc h ih =>
    exact List.forall_mem_cons.mpr ⟨fun c hc => absurd hc List.not_mem_nil, ih⟩
  | case4 c cs hc h ih =>
    obtain ⟨l, ls, hls⟩ := List.exists_cons_of_ne_nil (pipeLines_ne_nil cs)
    rw [hls] at ih ⊢
    rw [List.forall_mem_cons] at ih
    refine List.forall_mem_cons.mpr ⟨?_, ih.2⟩
    exact List.forall_mem_cons.mpr ⟨Bool.eq_false_iff.mpr h, ih.1⟩

theorem pipeLines_cons {c : Char} (hc : isLineEnd c = false) (cs : List Char) :
    pipeLines (c :: cs) = (pipeLines cs).modifyHead (c :: ·) := by
  rw [pipeLines, if_neg (Bool.eq_false_iff.mp hc)]
  rintro cs rfl -
  exact absurd hc (by decide)

/-- A line with a newline behind it. -/
theorem pipeLines_append_newline {l : List Char} (hl : OneLine l) (cs : List Char) :
    pipeLines (l ++ '\n' :: cs) = l :: pipeLines cs := by
  induction l with
  | nil => simp [pipeLines, isLineEnd]
  | cons c l ih =>
    obtain ⟨hc, hl⟩ := List.forall_mem_cons.mp hl
    rw [List.cons_append, pipeLines_cons hc, ih hl]
    rfl

/-! ## Pieces -/

/-- The pieces of a line between its pipes. A pipe behind a backslash is none
of them: together they stand for a pipe. -/
def pipePieces : List Char → List (List Char)
  | [] => [[]]
  | '\\' :: '|' :: cs => (pipePieces cs).modifyHead ('|' :: ·)
  | c :: cs => if c = '|' then [] :: pipePieces cs else (pipePieces cs).modifyHead (c :: ·)

theorem exists_pipePieces (cs : List Char) : ∃ p ps, pipePieces cs = p :: ps := by
  fun_induction pipePieces cs with
  | case1 => exact ⟨_, _, rfl⟩
  | case2 cs ih =>
    obtain ⟨p, ps, h⟩ := ih
    exact ⟨_, _, by rw [h, List.modifyHead_cons]⟩
  | case3 cs hc ih => exact ⟨_, _, rfl⟩
  | case4 c cs hc h ih =>
    obtain ⟨p, ps, hps⟩ := ih
    exact ⟨_, _, by rw [hps, List.modifyHead_cons]⟩

theorem flatten_modifyHead_cons (c : Char) (cs : List Char) :
    ((pipePieces cs).modifyHead (c :: ·)).flatten = c :: (pipePieces cs).flatten := by
  obtain ⟨p, ps, h⟩ := exists_pipePieces cs
  rw [h]
  rfl

/-- **A backslash is read as a backslash or as a pipe.** -/
theorem count_pieces (cs : List Char) :
    (pipePieces cs).flatten.count '\\' + (pipePieces cs).flatten.count '|' = cs.count '\\' := by
  fun_induction pipePieces cs with
  | case1 => rfl
  | case2 cs ih =>
    rw [flatten_modifyHead_cons]
    simp only [List.count_cons, beq_iff_eq, Char.reduceEq, if_false, if_true] at ih ⊢
    omega
  | case3 cs hc ih =>
    simp only [List.flatten_cons, List.nil_append, List.count_cons, beq_iff_eq, Char.reduceEq,
      if_false] at ih ⊢
    exact ih
  | case4 c cs hc h ih =>
    rw [flatten_modifyHead_cons]
    simp only [List.count_cons, beq_iff_eq, h, if_false]
    omega

/-- A backslash in front of a pipe is read as a pipe. -/
theorem pipe_mem_pieces {cs : List Char} (h : ['\\', '|'] <:+: cs) :
    '|' ∈ (pipePieces cs).flatten := by
  fun_induction pipePieces cs with
  | case1 => exact absurd (List.infix_nil.mp h) (List.cons_ne_nil _ _)
  | case2 cs ih =>
    rw [flatten_modifyHead_cons]
    exact List.mem_cons_self
  | case3 cs hc ih =>
    rcases List.infix_cons_iff.mp h with h | h
    · exact absurd (List.cons_prefix_cons.mp h).1 (by decide)
    · exact ih h
  | case4 c cs hc hne ih =>
    rw [flatten_modifyHead_cons]
    rcases List.infix_cons_iff.mp h with h | h
    · obtain ⟨hc', d, hd⟩ := List.cons_prefix_cons.mp h
      exact absurd hd.symm (hc d hc'.symm)
    · exact List.mem_cons_of_mem _ (ih h)

/-- Nothing else is read than what stands there. -/
theorem pieces_subset (cs : List Char) : ∀ c ∈ (pipePieces cs).flatten, c ∈ cs := by
  fun_induction pipePieces cs with
  | case1 => exact fun c hc => hc
  | case2 cs ih =>
    rw [flatten_modifyHead_cons]
    refine List.forall_mem_cons.mpr ⟨by simp, fun c hc => ?_⟩
    exact List.mem_cons_of_mem _ (List.mem_cons_of_mem _ (ih c hc))
  | case3 cs hc ih => exact fun c hc => List.mem_cons_of_mem _ (ih c hc)
  | case4 c cs hc h ih =>
    rw [flatten_modifyHead_cons]
    exact List.forall_mem_cons.mpr
      ⟨List.mem_cons_self, fun c hc => List.mem_cons_of_mem _ (ih c hc)⟩

theorem pipePieces_cons {c : Char} {cs : List Char} (hc : c ≠ '|')
    (hescape : c = '\\' → cs.head? ≠ some '|') :
    pipePieces (c :: cs) = (pipePieces cs).modifyHead (c :: ·) := by
  rw [pipePieces, if_neg hc]
  rintro cs rfl rfl
  exact hescape rfl rfl

theorem pipePieces_of_notMem {p : List Char} (hp : '|' ∉ p) : pipePieces p = [p] := by
  induction p with
  | nil => rfl
  | cons c p ih =>
    rw [List.mem_cons, not_or] at hp
    rw [pipePieces_cons (Ne.symm hp.1) (fun _ h => hp.2 (List.mem_of_head? h)), ih hp.2]
    rfl

/-- A piece with a pipe behind it. -/
theorem pipePieces_append {p : List Char} (hp : '|' ∉ p) (hlast : p.getLast? ≠ some '\\')
    (cs : List Char) : pipePieces (p ++ '|' :: cs) = p :: pipePieces cs := by
  induction p with
  | nil => simp [pipePieces]
  | cons c p ih =>
    rw [List.mem_cons, not_or] at hp
    rw [List.cons_append]
    cases p with
    | nil =>
      rw [pipePieces_cons (Ne.symm hp.1) (fun h => absurd (congrArg some h) hlast),
        ih hp.2 (by simp)]
      rfl
    | cons d p =>
      rw [List.getLast?_cons_cons] at hlast
      rw [pipePieces_cons (Ne.symm hp.1) (fun _ h => hp.2 (by simp_all)), ih hp.2 hlast]
      rfl

/-! ## Rows -/

/-- The characters that are taken from the ends of a cell. -/
def isPad (c : Char) : Bool := c == ' ' || c == '\t' || c == '\x0b' || c == '\x0c'

/-- A text without the blanks at its ends. -/
def trim (s : List Char) : List Char := (s.dropWhile isPad).rdropWhile isPad

/-- The cells of a row. A pipe at an end of it ends nothing. -/
def rowCells (line : List Char) : List (List Char) :=
  let pieces := pipePieces (trim line)
  let pieces := if pieces.head? = some [] then pieces.tail else pieces
  let pieces := if pieces.getLast? = some [] then pieces.dropLast else pieces
  pieces.map trim

/-- As many cells as the header has. -/
def fitCells (n : ℕ) (cells : List (List Char)) : List (List Char) :=
  (cells ++ List.replicate n []).take n

theorem trim_sublist (s : List Char) : (trim s).Sublist s :=
  (List.rdropWhile_prefix isPad _).sublist.trans (List.dropWhile_suffix isPad).sublist

/-- Between ends that are not blank nothing is taken. -/
theorem trim_eq_self {s : List Char} (hhead : ∀ c ∈ s.head?, isPad c = false)
    (hlast : ∀ c ∈ s.getLast?, isPad c = false) : trim s = s := by
  have hfront : s.dropWhile isPad = s := by
    cases s with
    | nil => rfl
    | cons c s => exact List.dropWhile_cons_of_neg (by simp [hhead c rfl])
  rw [trim, hfront, List.rdropWhile_eq_self_iff]
  intro hne
  rw [hlast _ (List.getLast?_eq_some_getLast hne)]
  exact Bool.false_ne_true

theorem head?_trim (s : List Char) : ∀ c ∈ (trim s).head?, isPad c = false := by
  intro c hc
  obtain ⟨rest, hrest⟩ : trim s <+: s.dropWhile isPad := List.rdropWhile_prefix isPad _
  have hhead : (s.dropWhile isPad).head? = some c := by
    rw [← hrest, List.head?_append, hc, Option.some_or]
  have hnot := List.head?_dropWhile_not isPad s
  rw [hhead] at hnot
  exact hnot

theorem getLast?_trim (s : List Char) : ∀ c ∈ (trim s).getLast?, isPad c = false := by
  intro c hc
  have hne : trim s ≠ [] := fun h => by rw [h] at hc; exact nomatch hc
  rw [List.getLast?_eq_some_getLast hne, Option.mem_some_iff] at hc
  rw [← hc]
  exact Bool.eq_false_iff.mpr (List.rdropWhile_last_not isPad _ hne)

theorem trim_trim (s : List Char) : trim (trim s) = trim s :=
  trim_eq_self (head?_trim s) (getLast?_trim s)

/-- The cells of a row have their characters from its pieces. -/
theorem flatten_rowCells_sublist (line : List Char) :
    (rowCells line).flatten.Sublist (pipePieces (trim line)).flatten := by
  have hmap : ∀ ps : List (List Char), (ps.map trim).flatten.Sublist ps.flatten := by
    intro ps
    induction ps with
    | nil => exact List.Sublist.refl _
    | cons p ps ih => exact (trim_sublist p).append ih
  have hfront : ∀ ps : List (List Char),
      (if ps.head? = some [] then ps.tail else ps).Sublist ps := by
    intro ps
    split
    · exact List.tail_sublist ps
    · exact List.Sublist.refl ps
  have hback : ∀ ps : List (List Char),
      (if ps.getLast? = some [] then ps.dropLast else ps).Sublist ps := by
    intro ps
    split
    · exact List.dropLast_sublist ps
    · exact List.Sublist.refl ps
  exact (hmap _).trans ((hback _).trans (hfront _)).flatten

theorem flatten_fitCells_sublist (n : ℕ) (cells : List (List Char)) :
    (fitCells n cells).flatten.Sublist cells.flatten := by
  have hflatten : (cells ++ List.replicate n []).flatten = cells.flatten := by
    rw [List.flatten_append, List.flatten_replicate_nil, List.append_nil]
  rw [← hflatten]
  exact (List.take_sublist n _).flatten

/-! ## Tables -/

/-- A table. -/
structure PipeTable where
  header : List (List Char)
  rows : List (List (List Char))
deriving DecidableEq

def isBlank (line : List Char) : Bool := line.all isPad

/-- The characters that a block of another kind may begin with. -/
def opensBlock (line : List Char) : Bool :=
  (line.dropWhile isPad).head?.any fun c => c.isDigit || "#>-*+`~<_=".toList.contains c

/-- Dashes, with a colon at the ends that the text is aligned to. -/
def isDelimiter (cell : List Char) : Bool :=
  let dashes := if cell.head? = some ':' then cell.tail else cell
  let dashes := if dashes.getLast? = some ':' then dashes.dropLast else dashes
  !dashes.isEmpty && dashes.all (· == '-')

/-- Whether a line and the one behind it begin a table. -/
def startsTable (header delimiters : List Char) : Bool :=
  !opensBlock header && delimiters.contains '|' && !(rowCells delimiters).isEmpty
    && (rowCells delimiters).all isDelimiter
    && (rowCells header).length == (rowCells delimiters).length

/-- What is open: a table, or text of which the last line may become a
header. -/
inductive PipeMode
  | prose (last : Option (List Char))
  | table (t : PipeTable)

/-- **A reader of tables**, and the tables that are complete. -/
structure PipeReader where
  tables : List PipeTable
  mode : PipeMode

namespace PipeReader

/-- A reader before the first line. -/
def init : PipeReader := ⟨[], .prose none⟩

/-- The mode behind a line of text. -/
def ofText (line : List Char) : PipeMode := .prose (if isBlank line then none else some line)

/-- **One line.** A table is closed by a line that is blank or begins another
block. -/
def feed (r : PipeReader) (line : List Char) : PipeReader :=
  match r.mode with
  | .prose (some header) =>
    if startsTable header line then ⟨r.tables, .table ⟨rowCells header, []⟩⟩
    else ⟨r.tables, ofText line⟩
  | .prose none => ⟨r.tables, ofText line⟩
  | .table t =>
    if isBlank line || opensBlock line then ⟨r.tables ++ [t], .prose none⟩
    else ⟨r.tables,
      .table ⟨t.header, t.rows ++ [fitCells t.header.length (rowCells line)]⟩⟩

/-- What a line can do: be text, make a header of the line before it, close a
table, or add a row to it. -/
theorem feed_cases (r : PipeReader) (line : List Char) :
    (∃ last, r.mode = .prose last ∧ r.feed line = ⟨r.tables, ofText line⟩) ∨
      (∃ header, r.mode = .prose (some header) ∧ startsTable header line = true ∧
        r.feed line = ⟨r.tables, .table ⟨rowCells header, []⟩⟩) ∨
      (∃ t, r.mode = .table t ∧ r.feed line = ⟨r.tables ++ [t], .prose none⟩) ∨
      ∃ t, r.mode = .table t ∧ r.feed line = ⟨r.tables,
        .table ⟨t.header, t.rows ++ [fitCells t.header.length (rowCells line)]⟩⟩ := by
  obtain ⟨tables, mode⟩ := r
  rcases mode with ⟨_ | header⟩ | t
  · exact Or.inl ⟨none, rfl, rfl⟩
  · by_cases hstarts : startsTable header line = true
    · exact Or.inr (Or.inl ⟨header, rfl, hstarts, if_pos hstarts⟩)
    · exact Or.inl ⟨some header, rfl, if_neg hstarts⟩
  · by_cases hcloses : (isBlank line || opensBlock line) = true
    · exact Or.inr (Or.inr (Or.inl ⟨t, rfl, if_pos hcloses⟩))
    · exact Or.inr (Or.inr (Or.inr ⟨t, rfl, if_neg hcloses⟩))

/-- The tables at the end of the text. -/
def result (r : PipeReader) : List PipeTable :=
  match r.mode with
  | .prose _ => r.tables
  | .table t => r.tables ++ [t]

end PipeReader

/-- **The tables of a text.** -/
def readPipeTables (text : List Char) : List PipeTable :=
  ((pipeLines text).foldl PipeReader.feed .init).result

/-- All cells of a table. -/
def PipeTable.cells (t : PipeTable) : List (List Char) := (t.header :: t.rows).flatten

/-! ## What is read

All of it stands in the cells of the lines. -/

/-- The text of all cells. -/
def cellText (ts : List PipeTable) : List Char := (ts.flatMap PipeTable.cells).flatten

/-- The cells of what is open, or would be of a line that becomes a header. -/
def PipeMode.cells : PipeMode → List (List Char)
  | .prose none => []
  | .prose (some line) => rowCells line
  | .table t => t.cells

namespace PipeReader

/-- The text of all cells so far. -/
def text (r : PipeReader) : List Char := cellText r.tables ++ r.mode.cells.flatten

theorem cells_ofText_sublist (line : List Char) :
    (ofText line).cells.flatten.Sublist (rowCells line).flatten := by
  unfold ofText
  split
  · exact List.nil_sublist _
  · exact List.Sublist.refl _

theorem cellText_append (ts : List PipeTable) (t : PipeTable) :
    cellText (ts ++ [t]) = cellText ts ++ t.cells.flatten := by
  rw [cellText, List.flatMap_append, List.flatMap_singleton, List.flatten_append]
  rfl

theorem text_feed (r : PipeReader) (line : List Char) :
    ((r.feed line).text).Sublist (r.text ++ (rowCells line).flatten) := by
  unfold text
  rw [List.append_assoc]
  rcases feed_cases r line with ⟨last, -, h⟩ | ⟨header, hmode, -, h⟩ | ⟨t, hmode, h⟩ |
    ⟨t, hmode, h⟩
  · rw [h]
    exact ((cells_ofText_sublist line).trans (List.sublist_append_right _ _)).append_left _
  · rw [h, hmode]
    refine List.Sublist.append_left ?_ _
    show ((rowCells header :: []).flatten).flatten.Sublist ((rowCells header).flatten ++ _)
    rw [List.flatten_singleton]
    exact List.sublist_append_left _ _
  · rw [h, hmode, cellText_append, List.append_assoc]
    show (cellText r.tables ++ (t.cells.flatten ++ [])).Sublist
      (cellText r.tables ++ (t.cells.flatten ++ _))
    exact ((List.nil_sublist _).append_left _).append_left _
  · rw [h, hmode]
    refine List.Sublist.append_left ?_ _
    show ((t.header :: (t.rows ++ [_])).flatten).flatten.Sublist
      ((t.header :: t.rows).flatten.flatten ++ _)
    rw [← List.cons_append, List.flatten_append, List.flatten_singleton, List.flatten_append]
    exact (flatten_fitCells_sublist _ _).append_left _

theorem text_foldl (ls : List (List Char)) (r : PipeReader) :
    ((ls.foldl feed r).text).Sublist (r.text ++ (ls.flatMap rowCells).flatten) := by
  induction ls generalizing r with
  | nil => simp
  | cons l ls ih =>
    refine (ih (r.feed l)).trans ?_
    rw [List.flatMap_cons, List.flatten_append, ← List.append_assoc]
    exact (text_feed r l).append_right _

/-- What is complete at the end. -/
theorem cellText_result_sublist (r : PipeReader) : (cellText r.result).Sublist r.text := by
  obtain ⟨tables, mode⟩ := r
  cases mode with
  | prose last => exact List.sublist_append_left _ _
  | table t =>
    show (cellText (tables ++ [t])).Sublist (cellText tables ++ t.cells.flatten)
    rw [cellText_append]

/-- Every cell is as it would be read again. -/
def Trimmed (r : PipeReader) : Prop :=
  (∀ t ∈ r.tables, ∀ cell ∈ t.cells, trim cell = cell) ∧ ∀ cell ∈ r.mode.cells, trim cell = cell

theorem trim_of_mem_rowCells {line cell : List Char} (h : cell ∈ rowCells line) :
    trim cell = cell := by
  obtain ⟨p, -, rfl⟩ := List.mem_map.mp h
  exact trim_trim p

theorem trim_of_mem_fitCells {n : ℕ} {line cell : List Char}
    (h : cell ∈ fitCells n (rowCells line)) : trim cell = cell := by
  rcases List.mem_append.mp (List.mem_of_mem_take h) with h | h
  · exact trim_of_mem_rowCells h
  · rw [List.eq_of_mem_replicate h]
    rfl

theorem Trimmed.feed {r : PipeReader} (h : r.Trimmed) (line : List Char) :
    (r.feed line).Trimmed := by
  obtain ⟨htables, hmode⟩ := h
  rcases feed_cases r line with ⟨last, -, h⟩ | ⟨header, hprose, -, h⟩ | ⟨t, htable, h⟩ |
    ⟨t, htable, h⟩
  · rw [h]
    refine ⟨htables, fun cell hcell => ?_⟩
    unfold ofText at hcell
    split at hcell
    · exact absurd hcell List.not_mem_nil
    · exact trim_of_mem_rowCells hcell
  · rw [h]
    refine ⟨htables, fun cell hcell => ?_⟩
    rw [PipeMode.cells, PipeTable.cells, List.flatten_singleton] at hcell
    exact trim_of_mem_rowCells hcell
  · rw [h]
    rw [htable] at hmode
    exact ⟨List.forall_mem_append.mpr ⟨htables, List.forall_mem_singleton.mpr hmode⟩,
      fun cell hcell => absurd hcell List.not_mem_nil⟩
  · rw [h]
    rw [htable] at hmode
    refine ⟨htables, fun cell hcell => ?_⟩
    rw [PipeMode.cells, PipeTable.cells, ← List.cons_append, List.flatten_append,
      List.flatten_singleton] at hcell
    rcases List.mem_append.mp hcell with hcell | hcell
    · exact hmode cell hcell
    · exact trim_of_mem_fitCells hcell

theorem Trimmed.foldl {r : PipeReader} (h : r.Trimmed) (ls : List (List Char)) :
    (ls.foldl PipeReader.feed r).Trimmed := by
  induction ls generalizing r with
  | nil => exact h
  | cons l ls ih => exact ih (h.feed l)

theorem Trimmed.result {r : PipeReader} (h : r.Trimmed) :
    ∀ t ∈ r.result, ∀ cell ∈ t.cells, trim cell = cell := by
  obtain ⟨tables, mode⟩ := r
  cases mode with
  | prose last => exact h.1
  | table t => exact List.forall_mem_append.mpr ⟨h.1, List.forall_mem_singleton.mpr h.2⟩

end PipeReader

/-- **The cells that are read** have their text from those of the lines. -/
theorem cellText_read_sublist (s : List Char) :
    (cellText (readPipeTables s)).Sublist ((pipeLines s).flatMap rowCells).flatten :=
  (PipeReader.cellText_result_sublist _).trans (PipeReader.text_foldl (pipeLines s) .init)

theorem trim_of_mem_read (s : List Char) :
    ∀ t ∈ readPipeTables s, ∀ cell ∈ t.cells, trim cell = cell := by
  have hinit : PipeReader.init.Trimmed :=
    ⟨fun _ h => absurd h List.not_mem_nil, fun _ h => absurd h List.not_mem_nil⟩
  exact (hinit.foldl (pipeLines s)).result

/-- No cell that is read has a line ending. -/
theorem oneLine_cellText_read (s : List Char) : OneLine (cellText (readPipeTables s)) := by
  intro c hc
  obtain ⟨row, hrow, hc⟩ := List.mem_flatten.mp ((cellText_read_sublist s).subset hc)
  obtain ⟨line, hline, hrow⟩ := List.mem_flatMap.mp hrow
  have hpiece := (flatten_rowCells_sublist line).subset (List.mem_flatten_of_mem hrow hc)
  exact oneLine_of_mem_pipeLines s line hline c
    ((trim_sublist line).subset (pieces_subset _ c hpiece))

end PipeTables
