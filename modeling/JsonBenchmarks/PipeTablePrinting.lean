import JsonBenchmarks.PipeTables

/-!
# Printing pipe tables

Three things that a cell may have are lost when a table is printed and read: a
line ending, which ends the row; blanks at its ends; and a pipe, which ends the
cell or takes a backslash with it. They are lost for good, whatever stands
elsewhere in the text. No cell that is read has a line ending or blanks at its
ends, wherever it is from. For the pipes it takes a count. As many backslashes
are printed as the cells have, and each of them is read as a backslash or as a
pipe; so if all cells are read then no pipe is (`pipe_notMem_of_read`).

Tables are therefore read as they are printed exactly if each of their rows can
be printed (`readPipeTables_print_iff`).
-/

namespace PipeTables

/-! ## Printing -/

/-- A cell of the line below a header. -/
def dashes : List Char := ['-', '-', '-']

/-- A line of cells. -/
def rowLine (cells : List (List Char)) : List Char := List.intercalate ['|'] cells

namespace PipeTable

/-- The lines of a table. -/
def lines (t : PipeTable) : List (List Char) :=
  (t.header :: List.replicate t.header.length dashes :: t.rows).map rowLine

end PipeTable

/-- Lines, each with a newline behind it. -/
def unlines (ls : List (List Char)) : List Char := ls.flatMap (· ++ ['\n'])

/-- Tables, each with a blank line behind it. -/
def printPipeTables (ts : List PipeTable) : List Char := unlines (ts.flatMap (·.lines ++ [[]]))

/-! ## What is printed -/

/-- **A row that can be printed.** -/
structure PrintableRow (row : List (List Char)) : Prop where
  /-- Its cells are plain. -/
  cells : ∀ cell ∈ row, OneLine cell ∧ trim cell = cell ∧ '|' ∉ cell
  /-- No pipe between them is behind a backslash. -/
  unescaped : ∀ cell ∈ row.dropLast, cell.getLast? ≠ some '\\'

/-- A row whose first cell makes it one: it begins with a character that is
not blank, not a pipe, and not the beginning of another block. -/
def Labelled (row : List (List Char)) : Prop :=
  ∃ c label cells, row = (c :: label) :: cells ∧ isPad c = false ∧ c ≠ '|' ∧
    opensBlock [c] = false

namespace PipeTable

/-- The table can be printed. -/
def Printable (t : PipeTable) : Prop := ∀ row ∈ t.header :: t.rows, PrintableRow row

/-- **The shape of a table**: at least two columns, and a label in front of
each row. -/
structure Shaped (t : PipeTable) : Prop where
  columns : 2 ≤ t.header.length
  named : t.header.getLast? ≠ some []
  lengths : ∀ row ∈ t.rows, row.length = t.header.length
  labelled : ∀ row ∈ t.header :: t.rows, Labelled row

end PipeTable

theorem rowLine_cons (cell : List Char) {cells : List (List Char)} (h : cells ≠ []) :
    rowLine (cell :: cells) = cell ++ '|' :: rowLine cells := by
  obtain ⟨c, cs, rfl⟩ := List.exists_cons_of_ne_nil h
  rw [rowLine, List.intercalate_cons_cons, List.append_assoc, List.singleton_append]
  rfl

/-- **The pieces of a row that can be printed are its cells.** -/
theorem pipePieces_rowLine {row : List (List Char)} (hne : row ≠ [])
    (hpipe : ∀ cell ∈ row, '|' ∉ cell)
    (hlast : ∀ cell ∈ row.dropLast, cell.getLast? ≠ some '\\') :
    pipePieces (rowLine row) = row := by
  induction row with
  | nil => exact absurd rfl hne
  | cons cell row ih =>
    obtain ⟨hcell, hrow⟩ := List.forall_mem_cons.mp hpipe
    by_cases hrest : row = []
    · subst hrest
      rw [rowLine, List.intercalate_singleton]
      exact pipePieces_of_notMem hcell
    · rw [List.dropLast_cons_of_ne_nil hrest, List.forall_mem_cons] at hlast
      rw [rowLine_cons cell hrest, pipePieces_append hcell hlast.1, ih hrest hrow hlast.2]

/-- What the line of a row ends with. -/
theorem getLast?_rowLine {row : List (List Char)} (htrim : ∀ cell ∈ row, trim cell = cell) :
    ∀ c ∈ (rowLine row).getLast?, isPad c = false := by
  induction row with
  | nil => exact fun c hc => nomatch hc
  | cons cell row ih =>
    obtain ⟨hcell, hrow⟩ := List.forall_mem_cons.mp htrim
    by_cases hrest : row = []
    · subst hrest
      rw [rowLine, List.intercalate_singleton, ← hcell]
      exact getLast?_trim cell
    · rw [rowLine_cons cell hrest, List.getLast?_append, List.getLast?_cons]
      intro c hc
      cases hlast : (rowLine row).getLast? with
      | none =>
        rw [hlast] at hc
        obtain rfl : '|' = c := by simpa using hc
        rfl
      | some d =>
        rw [hlast] at hc
        obtain rfl : d = c := by simpa using hc
        exact ih hrow d hlast

/-- **Nothing is taken from the ends of a row.** -/
theorem trim_rowLine {row : List (List Char)} (hlabel : Labelled row)
    (htrim : ∀ cell ∈ row, trim cell = cell) : trim (rowLine row) = rowLine row := by
  refine trim_eq_self ?_ (getLast?_rowLine htrim)
  obtain ⟨c, label, cells, rfl, hc, -⟩ := hlabel
  have hhead : (rowLine ((c :: label) :: cells)).head? = some c := by
    cases cells <;> rfl
  rw [hhead]
  intro d hd
  rw [← Option.some.inj hd]
  exact hc

theorem map_trim {row : List (List Char)} (h : ∀ cell ∈ row, trim cell = cell) :
    row.map trim = row :=
  (List.map_congr_left h).trans (List.map_id row)

/-- **The cells that are read of a row**: those that were printed, without the
last one if that is empty. -/
theorem rowCells_rowLine {row : List (List Char)} (hlabel : Labelled row)
    (h : PrintableRow row) :
    rowCells (rowLine row) = if row.getLast? = some [] then row.dropLast else row := by
  have htrim : ∀ cell ∈ row, trim cell = cell := fun cell hcell => (h.cells cell hcell).2.1
  have hpieces : pipePieces (rowLine row) = row :=
    pipePieces_rowLine (by obtain ⟨c, label, cells, rfl, -⟩ := hlabel; exact List.cons_ne_nil _ _)
      (fun cell hcell => (h.cells cell hcell).2.2) h.unescaped
  have hhead : row.head? ≠ some [] := by
    obtain ⟨c, label, cells, rfl, -⟩ := hlabel
    exact fun h => List.cons_ne_nil _ _ (Option.some.inj h)
  unfold rowCells
  rw [trim_rowLine hlabel htrim, hpieces]
  simp only [if_neg hhead]
  split
  · exact map_trim fun cell hcell => htrim cell (List.mem_of_mem_dropLast hcell)
  · exact map_trim htrim

/-- A row is filled up again. -/
theorem fitCells_rowLine {row : List (List Char)} (hlabel : Labelled row)
    (h : PrintableRow row) : fitCells row.length (rowCells (rowLine row)) = row := by
  rw [rowCells_rowLine hlabel h, fitCells]
  split
  · next hlast =>
    have hsplit : row.dropLast ++ [[]] = row := List.dropLast_append_getLast? [] hlast
    obtain ⟨n, hn⟩ : ∃ n, row.length = n + 1 := by
      rw [← hsplit, List.length_append]
      exact ⟨_, rfl⟩
    rw [hn, List.replicate_succ, ← List.singleton_append, ← List.append_assoc, hsplit, ← hn,
      List.take_left]
  · rw [List.take_left]

/-! ## Reading what was printed -/

/-- The line of a table that is not its header. -/
theorem delimiters_rowCells {n : ℕ} (hn : 2 ≤ n) :
    rowCells (rowLine (List.replicate n dashes)) = List.replicate n dashes ∧
      '|' ∈ rowLine (List.replicate n dashes) := by
  obtain ⟨k, rfl⟩ := Nat.exists_eq_add_of_le hn
  have hdashes : ∀ cell ∈ List.replicate (2 + k) dashes, cell = dashes :=
    fun cell => List.eq_of_mem_replicate
  have hplain : ∀ cell ∈ List.replicate (2 + k) dashes, '|' ∉ cell := by
    intro cell hcell
    rw [hdashes cell hcell]
    decide
  have htrim : ∀ cell ∈ List.replicate (2 + k) dashes, trim cell = cell := by
    intro cell hcell
    rw [hdashes cell hcell]
    decide
  have hopen : ∀ cell ∈ (List.replicate (2 + k) dashes).dropLast,
      cell.getLast? ≠ some '\\' := by
    intro cell hcell
    rw [hdashes cell (List.mem_of_mem_dropLast hcell)]
    decide
  have hpieces := pipePieces_rowLine (by simp [List.replicate_eq_nil_iff]) hplain hopen
  have hends : trim (rowLine (List.replicate (2 + k) dashes))
      = rowLine (List.replicate (2 + k) dashes) := by
    refine trim_eq_self ?_ (getLast?_rowLine htrim)
    rw [Nat.add_comm, List.replicate_succ, List.replicate_succ]
    exact fun c hc => Option.some.inj hc ▸ rfl
  refine ⟨?_, ?_⟩
  · have hhead : ¬ (List.replicate (2 + k) dashes).head? = some [] := by
      rw [Nat.add_comm, List.replicate_succ]
      exact fun h => absurd (Option.some.inj h) (by decide)
    have hlast : ¬ (List.replicate (2 + k) dashes).getLast? = some [] := by
      intro h
      exact absurd (hdashes _ (List.mem_of_getLast? h)) (by decide)
    unfold rowCells
    rw [hends, hpieces]
    simp only [if_neg hhead, if_neg hlast]
    exact map_trim htrim
  · rw [Nat.add_comm, List.replicate_succ, rowLine_cons _ (by simp [List.replicate_succ])]
    simp

/-- A line that begins with a label is not blank and begins no other block. -/
theorem rowLine_of_labelled {row : List (List Char)} (h : Labelled row) :
    isBlank (rowLine row) = false ∧ opensBlock (rowLine row) = false := by
  obtain ⟨c, label, cells, rfl, hpad, -, hopens⟩ := h
  obtain ⟨rest, hrest⟩ : ∃ rest, rowLine ((c :: label) :: cells) = c :: rest := by
    cases cells <;> exact ⟨_, rfl⟩
  have hfront : (c :: rest).dropWhile isPad = c :: rest :=
    List.dropWhile_cons_of_neg (by rw [hpad]; exact Bool.false_ne_true)
  have hfront' : [c].dropWhile isPad = [c] :=
    List.dropWhile_cons_of_neg (by rw [hpad]; exact Bool.false_ne_true)
  rw [hrest]
  refine ⟨?_, ?_⟩
  · rw [isBlank, List.all_cons, hpad, Bool.false_and]
  · rw [opensBlock, hfront'] at hopens
    rw [opensBlock, hfront]
    exact hopens

/-- **The header and the dashes begin a table.** -/
theorem startsTable_header {t : PipeTable} (hshaped : t.Shaped)
    (hheader : PrintableRow t.header) :
    startsTable (rowLine t.header) (rowLine (List.replicate t.header.length dashes)) = true
      ∧ rowCells (rowLine t.header) = t.header := by
  have hlabel := hshaped.labelled t.header List.mem_cons_self
  have hcells : rowCells (rowLine t.header) = t.header := by
    rw [rowCells_rowLine hlabel hheader, if_neg hshaped.named]
  obtain ⟨hdelimiters, hpipe⟩ := delimiters_rowCells hshaped.columns
  have hne : t.header ≠ [] := List.ne_nil_of_length_pos (by have := hshaped.columns; omega)
  refine ⟨?_, hcells⟩
  unfold startsTable
  rw [(rowLine_of_labelled hlabel).2, hdelimiters, hcells, List.length_replicate,
    List.contains_iff_mem.mpr hpipe]
  have hall : (List.replicate t.header.length dashes).all isDelimiter = true := by
    rw [List.all_eq_true]
    intro cell hcell
    rw [List.eq_of_mem_replicate hcell]
    decide
  rw [hall]
  simpa using hne

namespace PipeReader

/-- The rows of a table. -/
theorem foldl_rows {header : List (List Char)} {rows : List (List (List Char))}
    (hlengths : ∀ row ∈ rows, row.length = header.length) (hlabels : ∀ row ∈ rows, Labelled row)
    (hrows : ∀ row ∈ rows, PrintableRow row) (ts : List PipeTable)
    (before : List (List (List Char))) :
    (rows.map rowLine).foldl feed ⟨ts, .table ⟨header, before⟩⟩
      = ⟨ts, .table ⟨header, before ++ rows⟩⟩ := by
  induction rows generalizing before with
  | nil => rw [List.append_nil]; rfl
  | cons row rows ih =>
    rw [List.forall_mem_cons] at hlengths hlabels hrows
    obtain ⟨hblank, hopens⟩ := rowLine_of_labelled hlabels.1
    have hfeed : feed ⟨ts, .table ⟨header, before⟩⟩ (rowLine row)
        = ⟨ts, .table ⟨header, before ++ [row]⟩⟩ := by
      unfold feed
      dsimp only
      rw [hblank, hopens, ← hlengths.1, fitCells_rowLine hlabels.1 hrows.1]
      rfl
    rw [List.map_cons, List.foldl_cons, hfeed, ih hlengths.2 hlabels.2 hrows.2, List.append_assoc,
      List.singleton_append]

/-- **A table that is printed is read**, and closed by the blank line behind
it. -/
theorem foldl_lines {t : PipeTable} (hshaped : t.Shaped) (h : t.Printable)
    (ts : List PipeTable) :
    t.lines.foldl feed ⟨ts, .prose none⟩ = ⟨ts, .table t⟩ := by
  obtain ⟨hheader, hrows⟩ := List.forall_mem_cons.mp h
  obtain ⟨hlabel, hlabels⟩ := List.forall_mem_cons.mp hshaped.labelled
  obtain ⟨hstarts, hcells⟩ := startsTable_header hshaped hheader
  have htext : feed ⟨ts, .prose none⟩ (rowLine t.header)
      = ⟨ts, .prose (some (rowLine t.header))⟩ := by
    show PipeReader.mk ts (ofText _) = _
    rw [ofText, (rowLine_of_labelled hlabel).1]
    rfl
  have hopen : feed ⟨ts, .prose (some (rowLine t.header))⟩
      (rowLine (List.replicate t.header.length dashes)) = ⟨ts, .table ⟨t.header, []⟩⟩ := by
    refine (if_pos hstarts).trans ?_
    rw [hcells]
  rw [PipeTable.lines, List.map_cons, List.map_cons, List.foldl_cons, List.foldl_cons, htext,
    hopen, foldl_rows hshaped.lengths hlabels hrows, List.nil_append]

/-- All tables are read. -/
theorem foldl_tables {ts : List PipeTable} (hshaped : ∀ t ∈ ts, t.Shaped)
    (h : ∀ t ∈ ts, t.Printable) (before : List PipeTable) :
    (ts.flatMap (·.lines ++ [[]])).foldl feed ⟨before, .prose none⟩
      = ⟨before ++ ts, .prose none⟩ := by
  induction ts generalizing before with
  | nil => rw [List.append_nil]; rfl
  | cons t ts ih =>
    rw [List.forall_mem_cons] at hshaped h
    rw [List.flatMap_cons, List.foldl_append, List.foldl_append, foldl_lines hshaped.1 h.1]
    show (ts.flatMap (·.lines ++ [[]])).foldl feed ⟨before ++ [t], .prose none⟩ = _
    rw [ih hshaped.2 h.2, List.append_assoc, List.singleton_append]

end PipeReader

/-! ## Reading a whole text -/

/-- Lines that are printed are lines. -/
theorem pipeLines_unlines {ls : List (List Char)} (h : ∀ l ∈ ls, OneLine l) (cs : List Char) :
    pipeLines (unlines ls ++ cs) = ls ++ pipeLines cs := by
  induction ls with
  | nil => rfl
  | cons l ls ih =>
    rw [List.forall_mem_cons] at h
    rw [unlines, List.flatMap_cons, List.append_assoc, List.append_assoc, List.singleton_append,
      pipeLines_append_newline h.1]
    exact congrArg (l :: ·) (ih h.2)

theorem oneLine_rowLine {row : List (List Char)} (h : ∀ cell ∈ row, OneLine cell) :
    OneLine (rowLine row) := by
  induction row with
  | nil => exact fun c hc => absurd hc List.not_mem_nil
  | cons cell row ih =>
    rw [List.forall_mem_cons] at h
    by_cases hrest : row = []
    · subst hrest
      rw [rowLine, List.intercalate_singleton]
      exact h.1
    · rw [rowLine_cons cell hrest]
      exact List.forall_mem_append.mpr ⟨h.1, List.forall_mem_cons.mpr ⟨rfl, ih h.2⟩⟩

theorem oneLine_delimiters (n : ℕ) : OneLine (rowLine (List.replicate n dashes)) := by
  refine oneLine_rowLine fun cell hcell => ?_
  rw [List.eq_of_mem_replicate hcell]
  exact oneLine_of_all rfl

/-- The lines of tables without a line ending in a cell. -/
theorem oneLine_of_mem_lines {ts : List PipeTable}
    (h : ∀ t ∈ ts, ∀ row ∈ t.header :: t.rows, ∀ cell ∈ row, OneLine cell) :
    ∀ l ∈ ts.flatMap (·.lines ++ [[]]), OneLine l := by
  intro l hl
  obtain ⟨t, ht, hl⟩ := List.mem_flatMap.mp hl
  rcases List.mem_append.mp hl with hl | hl
  · obtain ⟨row, hrow, rfl⟩ := List.mem_map.mp hl
    rcases List.mem_cons.mp hrow with rfl | hrow
    · exact oneLine_rowLine (h t ht _ List.mem_cons_self)
    · rcases List.mem_cons.mp hrow with rfl | hrow
      · exact oneLine_delimiters _
      · exact oneLine_rowLine (h t ht row (List.mem_cons_of_mem _ hrow))
  · rw [List.mem_singleton.mp hl]
    exact fun c hc => absurd hc List.not_mem_nil

/-- A line has the backslashes of its cells. -/
theorem count_rowLine (row : List (List Char)) :
    (rowLine row).count '\\' = row.flatten.count '\\' := by
  induction row with
  | nil => rfl
  | cons cell row ih =>
    by_cases hrest : row = []
    · subst hrest
      rw [rowLine, List.intercalate_singleton, List.flatten_singleton]
    · rw [rowLine_cons cell hrest, List.count_append, List.count_cons, ih, List.flatten_cons,
        List.count_append]
      rfl

theorem count_lines (t : PipeTable) :
    (t.lines ++ [[]]).flatten.count '\\' = t.cells.flatten.count '\\' := by
  have hrows : ∀ rows : List (List (List Char)),
      (rows.map rowLine).flatten.count '\\' = rows.flatten.flatten.count '\\' := by
    intro rows
    induction rows with
    | nil => rfl
    | cons row rows ih =>
      rw [List.map_cons, List.flatten_cons, List.count_append, ih, count_rowLine,
        List.flatten_cons, List.flatten_append, List.count_append]
  have hdelimiters : (rowLine (List.replicate t.header.length dashes)).count '\\' = 0 := by
    rw [count_rowLine, List.count_eq_zero]
    intro h
    obtain ⟨cell, hcell, h⟩ := List.mem_flatten.mp h
    rw [List.eq_of_mem_replicate hcell] at h
    exact absurd h (by decide)
  have hblank : (t.lines ++ [[]]).flatten = t.lines.flatten := by
    rw [List.flatten_append, List.flatten_singleton, List.append_nil]
  rw [hblank, PipeTable.lines, List.map_cons, List.map_cons, List.flatten_cons, List.flatten_cons,
    List.count_append, List.count_append, hdelimiters, hrows, count_rowLine, Nat.zero_add,
    PipeTable.cells, List.flatten_cons, List.flatten_append, List.count_append]

theorem count_printed (ts : List PipeTable) :
    (ts.flatMap (·.lines ++ [[]])).flatten.count '\\' = (cellText ts).count '\\' := by
  induction ts with
  | nil => rfl
  | cons t ts ih =>
    rw [List.flatMap_cons, List.flatten_append, List.count_append, count_lines, ih, cellText,
      cellText, List.flatMap_cons, List.flatten_append, List.count_append]

/-- **If all backslashes of some lines are read, then no pipe is**: there is
none in any piece of them. -/
theorem pipe_notMem_of_read {ls : List (List Char)} {s : List Char}
    (hread : s.Sublist (ls.flatMap rowCells).flatten)
    (hcount : ls.flatten.count '\\' = s.count '\\') :
    ∀ l ∈ ls, '|' ∉ (pipePieces (trim l)).flatten := by
  have hpieces : (ls.flatMap rowCells).flatten.Sublist
        (ls.flatMap fun l => pipePieces (trim l)).flatten ∧
      (ls.flatMap fun l => pipePieces (trim l)).flatten.count '\\'
          + (ls.flatMap fun l => pipePieces (trim l)).flatten.count '|'
        ≤ ls.flatten.count '\\' := by
    clear hread hcount
    induction ls with
    | nil => exact ⟨List.Sublist.refl _, le_rfl⟩
    | cons l ls ih =>
      have hone := count_pieces (trim l)
      have htrim := (trim_sublist l).count_le '\\'
      rw [List.flatMap_cons, List.flatMap_cons, List.flatten_append, List.flatten_append,
        List.flatten_cons, List.count_append, List.count_append, List.count_append]
      exact ⟨(flatten_rowCells_sublist l).append ih.1, by omega⟩
  have hle := (hread.trans hpieces.1).count_le '\\'
  have hzero : (ls.flatMap fun l => pipePieces (trim l)).flatten.count '|' = 0 := by
    have := hpieces.2
    omega
  intro l hl hmem
  obtain ⟨p, hp, hmem⟩ := List.mem_flatten.mp hmem
  exact List.count_eq_zero.mp hzero
    (List.mem_flatten_of_mem (List.mem_flatMap.mpr ⟨l, hl, hp⟩) hmem)

/-- A cell in front of another that ends with a backslash. -/
theorem escape_infix_rowLine {row : List (List Char)} {cell : List Char}
    (hcell : cell ∈ row.dropLast) (hlast : cell.getLast? = some '\\') :
    ['\\', '|'] <:+: rowLine row := by
  induction row with
  | nil => exact absurd hcell List.not_mem_nil
  | cons c row ih =>
    by_cases hrest : row = []
    · subst hrest
      exact absurd hcell List.not_mem_nil
    · rw [List.dropLast_cons_of_ne_nil hrest] at hcell
      rw [rowLine_cons c hrest]
      rcases List.mem_cons.mp hcell with rfl | hcell
      · refine ⟨cell.dropLast, rowLine row, ?_⟩
        have hsplit : cell.dropLast ++ ['\\'] = cell := List.dropLast_append_getLast? _ hlast
        rw [List.append_cons cell, ← hsplit]
        simp
      · have hsuffix : rowLine row <:+: c ++ '|' :: rowLine row :=
          ⟨c ++ ['|'], [], by simp⟩
        exact (ih hcell).trans hsuffix

/-- **Tables are read as they are printed exactly if each of their rows can be
printed**, whatever tables of the right shape they are. -/
theorem readPipeTables_print_iff {ts : List PipeTable} (hshaped : ∀ t ∈ ts, t.Shaped) :
    readPipeTables (printPipeTables ts) = ts ↔ ∀ t ∈ ts, t.Printable := by
  have hlines : (∀ t ∈ ts, ∀ row ∈ t.header :: t.rows, ∀ cell ∈ row, OneLine cell) →
      pipeLines (printPipeTables ts) = ts.flatMap (·.lines ++ [[]]) ++ [[]] := by
    intro h
    have := pipeLines_unlines (oneLine_of_mem_lines h) []
    rwa [List.append_nil] at this
  constructor
  · intro hread
    have hone := oneLine_cellText_read (printPipeTables ts)
    have htrim := trim_of_mem_read (printPipeTables ts)
    have hsub := cellText_read_sublist (printPipeTables ts)
    rw [hread] at hone htrim hsub
    have hmem : ∀ t ∈ ts, ∀ row ∈ t.header :: t.rows, ∀ cell ∈ row, cell ∈ t.cells ∧
        ∀ c ∈ cell, c ∈ cellText ts := by
      intro t ht row hrow cell hcell
      have hcells : cell ∈ t.cells := List.mem_flatten_of_mem hrow hcell
      exact ⟨hcells, fun c hc =>
        List.mem_flatten_of_mem (List.mem_flatMap.mpr ⟨t, ht, hcells⟩) hc⟩
    rw [hlines fun t ht row hrow cell hcell c hc =>
      hone c ((hmem t ht row hrow cell hcell).2 c hc)] at hsub
    have hnopipe := pipe_notMem_of_read hsub (by
      rw [List.flatten_append, List.flatten_singleton, List.append_nil, count_printed])
    intro t ht row hrow
    have hlabel := (hshaped t ht).labelled row hrow
    have hrowtrim : ∀ cell ∈ row, trim cell = cell := fun cell hcell =>
      htrim t ht cell (hmem t ht row hrow cell hcell).1
    refine ⟨fun cell hcell => ⟨fun c hc => hone c ((hmem t ht row hrow cell hcell).2 c hc),
      hrowtrim cell hcell, fun hpipe => ?_⟩, fun cell hcell hlast => ?_⟩
    · obtain ⟨p, hp, hpipe⟩ :=
        List.mem_flatten.mp (hsub.subset ((hmem t ht row hrow cell hcell).2 _ hpipe))
      obtain ⟨l, hl, hp⟩ := List.mem_flatMap.mp hp
      exact hnopipe l hl ((flatten_rowCells_sublist l).subset (List.mem_flatten_of_mem hp hpipe))
    · have hline : rowLine row ∈ ts.flatMap (·.lines ++ [[]]) ++ [[]] := by
        refine List.mem_append_left _ (List.mem_flatMap.mpr ⟨t, ht, List.mem_append_left _ ?_⟩)
        refine List.mem_map_of_mem ?_
        rcases List.mem_cons.mp hrow with rfl | hrow
        · exact List.mem_cons_self
        · exact List.mem_cons_of_mem _ (List.mem_cons_of_mem _ hrow)
      refine hnopipe _ hline ?_
      rw [trim_rowLine hlabel hrowtrim]
      exact pipe_mem_pieces (escape_infix_rowLine hcell hlast)
  · intro h
    unfold readPipeTables
    rw [hlines fun t ht row hrow cell hcell => ((h t ht row hrow).cells cell hcell).1,
      List.foldl_append, PipeReader.init, PipeReader.foldl_tables hshaped h]
    rfl

/-- Lines of text in front of a text. -/
theorem readPipeTables_unlines_append {ls : List (List Char)} (hone : ∀ l ∈ ls, OneLine l)
    (htext : ls.foldl PipeReader.feed .init = .init) (cs : List Char) :
    readPipeTables (unlines ls ++ cs) = readPipeTables cs := by
  rw [readPipeTables, pipeLines_unlines hone, List.foldl_append, htext, readPipeTables]

/-- A newline behind a text. -/
theorem pipeLines_newline {s : List Char} (hlast : s.getLast? ≠ some '\r') :
    pipeLines (s ++ ['\n']) = pipeLines s ++ [[]] := by
  fun_induction pipeLines s with
  | case1 => rfl
  | case2 cs ih =>
    have hcs : cs.getLast? ≠ some '\r' := by
      intro h
      exact hlast (by rw [List.getLast?_cons, List.getLast?_cons, h]; rfl)
    exact congrArg ([] :: ·) (ih hcs)
  | case3 c cs hc h ih =>
    cases cs with
    | nil =>
      rcases Bool.or_eq_true_iff.mp h with h | h
      · rw [eq_of_beq h]
        rfl
      · exact absurd (congrArg some (eq_of_beq h)) hlast
    | cons d ds =>
      have hends : pipeLines (c :: d :: (ds ++ ['\n']))
          = [] :: pipeLines (d :: (ds ++ ['\n'])) := by
        rw [pipeLines, if_pos h]
        rintro cs hc' hcs
        exact hc ds hc' (congrArg (· :: ds) (List.cons.inj hcs).1)
      rw [List.getLast?_cons_cons] at hlast
      exact hends.trans (congrArg ([] :: ·) (ih hlast))
  | case4 c cs hc h ih =>
    have hend := Bool.eq_false_iff.mpr h
    obtain ⟨l, ls, hls⟩ := List.exists_cons_of_ne_nil (pipeLines_ne_nil cs)
    have hcs : cs.getLast? ≠ some '\r' := by
      intro h
      exact hlast (by rw [List.getLast?_cons, h]; rfl)
    rw [List.cons_append, pipeLines_cons hend, ih hcs, hls]
    rfl

/-- **A newline at the end makes no difference.** -/
theorem readPipeTables_newline {s : List Char} (hlast : s.getLast? ≠ some '\r') :
    readPipeTables (s ++ ['\n']) = readPipeTables s := by
  have hfeed : ∀ r : PipeReader, (r.feed []).result = r.result := by
    intro r
    rcases r.feed_cases [] with ⟨last, hmode, h⟩ | ⟨header, -, hstarts, -⟩ | ⟨t, hmode, h⟩ |
      ⟨t, hmode, h⟩
    · rw [h, PipeReader.result, PipeReader.result, hmode]
      rfl
    · exact absurd hstarts (by simp [startsTable])
    · rw [h, PipeReader.result, PipeReader.result, hmode]
    · rw [PipeReader.feed, hmode] at h
      exact absurd h (by simp [isBlank])
  rw [readPipeTables, readPipeTables, pipeLines_newline hlast, List.foldl_append]
  exact hfeed _

end PipeTables
