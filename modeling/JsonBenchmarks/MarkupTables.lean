import JsonBenchmarks.MarkupLexer

/-!
# Reading markup as tables

Tokens are read into tables, the tables into rows and the rows into cells. A
cell is open until its own end tag, the next cell, or the end of its row or
table; a table within a cell belongs to the cell. Until then every token is
part of what the cell contains, so a cell can be asked whether it contains
text only.

Nothing that was read is taken back. A complete cell stays where it is
whatever follows (`Extends`), and an open cell gets a first part of the tokens
that follow (`exists_content_of_inCell`). So if those do not begin with the
text that the cell is meant to show, then nothing behind them repairs it.
-/

namespace Markup

/-- A cell: whether it is a header, its attributes and what it contains. -/
structure TableCell where
  header : Bool
  attrs : List (List Char × List Char)
  content : List MarkupToken
deriving DecidableEq

/-- The text of some tokens, if they are nothing else. -/
def textOf : List MarkupToken → Option (List Char)
  | [] => some []
  | .char c :: toks => (textOf toks).map (c :: ·)
  | _ => none

/-- The text of a cell, if it contains nothing else. -/
def TableCell.text (c : TableCell) : Option (List Char) := textOf c.content

/-- Rows of cells. -/
abbrev MarkupTable := List (List TableCell)

/-- What is open. In a cell it is also known how many tables are open within
the cell. -/
inductive TableMode
  | outside
  | inTable
  | inRow
  | inCell (cell : TableCell) (depth : ℕ)

/-- Whether a cell is open. -/
def TableMode.isCell : TableMode → Bool
  | .inCell _ _ => true
  | _ => false

/-- **A reader of tables**: the tables that are complete, the complete rows of
the open table, and the complete cells of the open row. -/
structure TableReader where
  tables : List MarkupTable
  rows : MarkupTable
  cells : List TableCell
  mode : TableMode

namespace TableReader

/-- A reader before the first token. -/
def start : TableReader := ⟨[], [], [], .outside⟩

/-- The end of the open cell, if there is one. -/
def closeCell (b : TableReader) : TableReader :=
  match b.mode with
  | .inCell cell _ => { b with cells := b.cells ++ [cell], mode := .inRow }
  | _ => b

/-- The end of the open row. -/
def closeRow (b : TableReader) : TableReader :=
  match b.mode with
  | .inRow => { b with rows := b.rows ++ [b.cells], cells := [], mode := .inTable }
  | _ => b

/-- The end of the open table. -/
def closeTable (b : TableReader) : TableReader :=
  match b.closeRow.mode with
  | .inTable =>
    { b.closeRow with
      tables := b.closeRow.tables ++ [b.closeRow.rows], rows := [], mode := .outside }
  | _ => b.closeRow

/-- The beginning of a table, where none is open. -/
def openTable (b : TableReader) : TableReader :=
  match b.mode with
  | .outside => { b with rows := [], cells := [], mode := .inTable }
  | _ => b

/-- The beginning of a row, in a table. -/
def openRow (b : TableReader) : TableReader :=
  match b.mode with
  | .inTable => { b with cells := [], mode := .inRow }
  | _ => b

/-- The beginning of a cell, in a row, which may be left out. -/
def openCell (cell : TableCell) (b : TableReader) : TableReader :=
  match b.openRow.mode with
  | .inRow => { b.openRow with mode := .inCell cell 0 }
  | _ => b.openRow

/-- What a token does where no cell is open. -/
def structural (b : TableReader) : MarkupToken → TableReader
  | .startTag name attrs =>
    if name = "table".toList then b.closeTable.openTable
    else if name = "tr".toList then b.closeRow.openRow
    else if name = "td".toList then b.openCell ⟨false, attrs, []⟩
    else if name = "th".toList then b.openCell ⟨true, attrs, []⟩
    else b
  | .endTag name =>
    if name = "table".toList then b.closeTable
    else if name = "tr".toList then b.closeRow
    else b
  | _ => b

/-- Whether a token ends a cell. -/
def endsCell (cell : TableCell) : MarkupToken → Bool
  | .startTag name _ =>
    name = "tr".toList || name = "td".toList || name = "th".toList
  | .endTag name =>
    name = "table".toList || name = "tr".toList
      || name = (if cell.header then "th".toList else "td".toList)
  | _ => false

/-- How many tables are open within a cell after a token. -/
def depthAfter (depth : ℕ) : MarkupToken → ℕ
  | .startTag name _ => if name = "table".toList then depth + 1 else depth
  | .endTag name => if name = "table".toList then depth - 1 else depth
  | _ => depth

/-- One token. In a cell it belongs to the cell unless it ends it. -/
def step (b : TableReader) (tok : MarkupToken) : TableReader :=
  match b.mode with
  | .inCell cell depth =>
    if depth = 0 ∧ endsCell cell tok then b.closeCell.structural tok
    else
      { b with
        mode := .inCell { cell with content := cell.content ++ [tok] } (depthAfter depth tok) }
  | _ => b.structural tok

/-- A sequence of tokens. -/
def run (b : TableReader) (toks : List MarkupToken) : TableReader := toks.foldl step b

/-- The tables, with what is still open. An open cell is left out. -/
def done (b : TableReader) : List MarkupTable :=
  match b.mode with
  | .outside => b.tables
  | .inTable => b.tables ++ [b.rows]
  | .inRow => b.tables ++ [b.rows ++ [b.cells]]
  | .inCell _ _ => b.tables ++ [b.rows ++ [b.cells]]

theorem run_append (b : TableReader) (toks toks' : List MarkupToken) :
    b.run (toks ++ toks') = (b.run toks).run toks' := List.foldl_append

/-- Characters in a cell are added to what it contains. -/
theorem run_chars (T : List MarkupTable) (R : MarkupTable) (C : List TableCell)
    (cell : TableCell) (t : List Char) :
    run ⟨T, R, C, .inCell cell 0⟩ (t.map .char)
      = ⟨T, R, C, .inCell { cell with content := cell.content ++ t.map .char } 0⟩ := by
  induction t generalizing cell with
  | nil => simp [run]
  | cons c t ih =>
    show run ⟨T, R, C, .inCell { cell with content := cell.content ++ [.char c] } 0⟩ _ = _
    rw [ih, List.map_cons, List.append_assoc]
    rfl

end TableReader

/-! ## Documents -/

/-- Both readers together: where they are after a text. -/
def feed (s : LexState × TableReader) (cs : List Char) : LexState × TableReader :=
  ((scan s.1 cs).1, s.2.run (scan s.1 cs).2)

/-- **Reading a document as tables.** -/
def readTables (html : List Char) : List MarkupTable :=
  (feed (.data, .start) html).2.closeCell.done

theorem feed_append (s : LexState × TableReader) (cs ds : List Char) :
    feed s (cs ++ ds) = feed (feed s cs) ds := by
  simp only [feed, scan_append, TableReader.run_append]

/-- **A text is read piece by piece.** -/
theorem feed_append_of_eq {s s' s'' : LexState × TableReader} {cs ds : List Char}
    (h : feed s cs = s') (h' : feed s' ds = s'') : feed s (cs ++ ds) = s'' := by
  rw [feed_append, h, h']

/-- A piece of which the tokens are known. -/
theorem feed_of_scan {l l' : LexState} {cs : List Char} {toks : List MarkupToken}
    (h : scan l cs = (l', toks)) (b : TableReader) : feed (l, b) cs = (l', b.run toks) := by
  rw [feed, h]

/-- **Inert text in a cell is what the cell contains**, up to the `<` of the
tag that follows. -/
theorem feed_inert (T : List MarkupTable) (R : MarkupTable) (C : List TableCell)
    (cell : TableCell) {t : List Char} (h : inert t = true) (rest : List Char) :
    feed (.data, ⟨T, R, C, .inCell cell 0⟩) (t ++ '<' :: rest)
      = feed (.lt, ⟨T, R, C, .inCell { cell with content := cell.content ++ t.map .char } 0⟩)
          rest := by
  have hscan : scan .data (t ++ ['<']) = (.lt, t.map .char) := scan_inertFrom h
  rw [List.append_cons, feed_append, feed_of_scan hscan, TableReader.run_chars]

/-- Text between the cells is ignored. -/
theorem feed_ignored {b : TableReader} (hmode : b.mode.isCell = false) {t : List Char}
    (ht : '<' ∉ t) : feed (.data, b) t = (.data, b) := by
  induction t with
  | nil => rfl
  | cons c t ih =>
    rw [List.mem_cons, not_or] at ht
    have hscan : scan .data [c] = (.data, [.char c]) := by
      rw [scan, show LexState.data.step c = (.data, [.char c]) from if_neg (Ne.symm ht.1)]
      rfl
    have hstep : b.run [.char c] = b := by
      show b.step (.char c) = b
      unfold TableReader.step
      split
      · next cell depth hcell =>
        rw [hcell] at hmode
        exact absurd hmode Bool.noConfusion
      · rfl
    rw [← List.singleton_append, feed_append, feed_of_scan hscan, hstep]
    exact ih ht.2

/-! ## Nothing is taken back -/

/-- The cell at a place in a table. -/
def cellOf (t : MarkupTable) (j k : ℕ) : Option TableCell := (t[j]?).bind fun r => r[k]?

/-- The cell at a place in some tables. -/
def cellAt (d : List MarkupTable) (i j k : ℕ) : Option TableCell :=
  (d[i]?).bind fun t => cellOf t j k

/-- Every cell of the first tables is at its place in the second. -/
def Extends (d d' : List MarkupTable) : Prop :=
  ∀ i j k c, cellAt d i j k = some c → cellAt d' i j k = some c

theorem Extends.refl (d : List MarkupTable) : Extends d d := fun _ _ _ _ h => h

theorem Extends.trans {d d' d'' : List MarkupTable} (h : Extends d d') (h' : Extends d' d'') :
    Extends d d'' := fun i j k c hc => h' i j k c (h i j k c hc)

/-- What is found in a list is found after it was made longer, and after its
last element was replaced by one in which it is found, too. -/
theorem bind_getElem?_replaceLast {α β : Type} {l : List α} {x y : α} {f : α → Option β} {b : β}
    (hlast : f x = some b → f y = some b) (i : ℕ)
    (h : ((l ++ [x])[i]?).bind f = some b) : ((l ++ [y])[i]?).bind f = some b := by
  rcases Nat.lt_trichotomy i l.length with hi | rfl | hi
  · rw [List.getElem?_append_left hi] at h ⊢
    exact h
  · rw [List.getElem?_concat_length] at h ⊢
    exact hlast h
  · rw [List.getElem?_eq_none (by rw [List.length_append]; exact hi)] at h
    exact absurd h (by simp)

theorem bind_getElem?_append {α β : Type} {l : List α} (y : α) {f : α → Option β} {b : β}
    (i : ℕ) (h : (l[i]?).bind f = some b) : ((l ++ [y])[i]?).bind f = some b := by
  obtain ⟨x, hx, hf⟩ := Option.bind_eq_some_iff.mp h
  rw [List.getElem?_append_left (List.getElem?_eq_some_iff.mp hx).1, hx]
  exact hf

theorem extends_append_table (d : List MarkupTable) (t : MarkupTable) : Extends d (d ++ [t]) :=
  fun i _ _ _ h => bind_getElem?_append t i h

theorem extends_append_row (T : List MarkupTable) (R : MarkupTable) (r : List TableCell) :
    Extends (T ++ [R]) (T ++ [R ++ [r]]) :=
  fun i j k _ h => bind_getElem?_replaceLast (f := fun t => cellOf t j k)
    (fun h => bind_getElem?_append (f := fun r => r[k]?) r j h) i h

theorem extends_append_cell (T : List MarkupTable) (R : MarkupTable) (C : List TableCell)
    (c : TableCell) : Extends (T ++ [R ++ [C]]) (T ++ [R ++ [C ++ [c]]]) := by
  refine fun i j k x h => bind_getElem?_replaceLast (f := fun t => cellOf t j k) (fun h => ?_) i h
  refine bind_getElem?_replaceLast (f := fun r => r[k]?) (fun h => ?_) j h
  obtain ⟨hk, rfl⟩ := List.getElem?_eq_some_iff.mp h
  rw [List.getElem?_append_left hk, List.getElem?_eq_getElem hk]

namespace TableReader

/-- The end of a cell completes it. -/
theorem cellAt_closeCell {b : TableReader} {cell : TableCell} {depth : ℕ}
    (h : b.mode = .inCell cell depth) :
    cellAt b.closeCell.done b.tables.length b.rows.length b.cells.length = some cell := by
  rw [closeCell, h]
  show cellAt (b.tables ++ [b.rows ++ [b.cells ++ [cell]]]) _ _ _ = _
  rw [cellAt, List.getElem?_concat_length, Option.bind_some, cellOf, List.getElem?_concat_length,
    Option.bind_some, List.getElem?_concat_length]

theorem extends_closeCell (b : TableReader) : Extends b.done b.closeCell.done := by
  obtain ⟨T, R, C, mode⟩ := b
  cases mode with
  | inCell cell depth => exact extends_append_cell T R C cell
  | _ => exact Extends.refl _

theorem extends_closeRow (b : TableReader) : Extends b.done b.closeRow.done := by
  obtain ⟨T, R, C, mode⟩ := b
  cases mode <;> exact Extends.refl _

theorem extends_closeTable (b : TableReader) : Extends b.done b.closeTable.done := by
  obtain ⟨T, R, C, mode⟩ := b
  cases mode <;> exact Extends.refl _

theorem extends_openTable (b : TableReader) : Extends b.done b.openTable.done := by
  obtain ⟨T, R, C, mode⟩ := b
  cases mode with
  | outside => exact extends_append_table T []
  | _ => exact Extends.refl _

theorem extends_openRow (b : TableReader) : Extends b.done b.openRow.done := by
  obtain ⟨T, R, C, mode⟩ := b
  cases mode with
  | inTable => exact extends_append_row T R []
  | _ => exact Extends.refl _

theorem extends_openCell (cell : TableCell) (b : TableReader) :
    Extends b.done (b.openCell cell).done := by
  obtain ⟨T, R, C, mode⟩ := b
  cases mode with
  | inTable => exact extends_append_row T R []
  | _ => exact Extends.refl _

/-- Where no cell is open, a token adds to what is there. -/
theorem extends_structural (b : TableReader) (tok : MarkupToken) :
    Extends b.done (b.structural tok).done := by
  cases tok with
  | startTag name attrs =>
    simp only [structural]
    split
    · exact (extends_closeTable b).trans (extends_openTable _)
    split
    · exact (extends_closeRow b).trans (extends_openRow _)
    split
    · exact extends_openCell _ b
    split
    · exact extends_openCell _ b
    · exact Extends.refl _
  | endTag name =>
    simp only [structural]
    split
    · exact extends_closeTable b
    split
    · exact extends_closeRow b
    · exact Extends.refl _
  | _ => exact Extends.refl _

/-- A token that ends the open cell does so before anything else. -/
theorem step_of_endsCell {b : TableReader} {cell : TableCell} {depth : ℕ} {tok : MarkupToken}
    (h : b.mode = .inCell cell depth) (hends : depth = 0 ∧ endsCell cell tok = true) :
    b.step tok = b.closeCell.structural tok := by
  rw [step, h]
  exact if_pos hends

/-- Any other belongs to the cell. -/
theorem step_of_not_endsCell {b : TableReader} {cell : TableCell} {depth : ℕ}
    {tok : MarkupToken} (h : b.mode = .inCell cell depth)
    (hends : ¬ (depth = 0 ∧ endsCell cell tok = true)) :
    b.step tok = { b with
      mode := .inCell { cell with content := cell.content ++ [tok] } (depthAfter depth tok) } := by
  rw [step, h]
  exact if_neg hends

/-- **One token takes nothing back.** -/
theorem extends_step (b : TableReader) (tok : MarkupToken) :
    Extends b.done (b.step tok).done := by
  cases hmode : b.mode with
  | inCell cell depth =>
    by_cases hends : depth = 0 ∧ endsCell cell tok = true
    · rw [step_of_endsCell hmode hends]
      exact (extends_closeCell b).trans (extends_structural _ tok)
    · rw [step_of_not_endsCell hmode hends, done, done, hmode]
      exact Extends.refl _
  | _ =>
    rw [step, hmode]
    exact extends_structural b tok

/-- **No sequence of tokens takes anything back.** -/
theorem extends_run (b : TableReader) (toks : List MarkupToken) :
    Extends b.done (b.run toks).closeCell.done := by
  induction toks generalizing b with
  | nil => exact extends_closeCell b
  | cons tok toks ih => exact (extends_step b tok).trans (ih (b.step tok))

/-- **What an open cell gets is a first part of what follows.** -/
theorem exists_content_of_inCell (toks : List MarkupToken) {b : TableReader} {cell : TableCell}
    {depth : ℕ} (h : b.mode = .inCell cell depth) :
    ∃ more, more <+: toks ∧
      cellAt (b.run toks).closeCell.done b.tables.length b.rows.length b.cells.length
        = some { cell with content := cell.content ++ more } := by
  induction toks generalizing b cell depth with
  | nil =>
    refine ⟨[], List.nil_prefix, ?_⟩
    rw [List.append_nil]
    exact cellAt_closeCell h
  | cons tok toks ih =>
    show ∃ more, more <+: tok :: toks ∧ cellAt ((b.step tok).run toks).closeCell.done _ _ _ = _
    by_cases hends : depth = 0 ∧ endsCell cell tok = true
    · -- the token ends the cell, and the rest leaves it as it is
      refine ⟨[], List.nil_prefix, ?_⟩
      rw [List.append_nil]
      refine extends_run (b.step tok) toks _ _ _ _ ?_
      rw [step_of_endsCell h hends]
      exact extends_structural _ tok _ _ _ _ (cellAt_closeCell h)
    · have hstep := step_of_not_endsCell h hends
      obtain ⟨more, hmore, hcell⟩ := ih (b := b.step tok) (by rw [hstep])
      refine ⟨tok :: more, List.cons_prefix_cons.mpr ⟨rfl, hmore⟩, ?_⟩
      rw [hstep, List.append_assoc] at hcell
      rw [hstep]
      exact hcell

end TableReader

/-- Tokens that are text are its characters. -/
theorem eq_map_char_of_textOf {toks : List MarkupToken} {q : List Char}
    (h : textOf toks = some q) : toks = q.map .char := by
  induction toks generalizing q with
  | nil =>
    obtain rfl : [] = q := Option.some.inj h
    rfl
  | cons tok toks ih =>
    cases tok with
    | char c =>
      obtain ⟨q', hq', rfl⟩ := Option.map_eq_some_iff.mp h
      rw [ih hq']
      rfl
    | _ => exact absurd h (by simp [textOf])

theorem textOf_map_char (q : List Char) : textOf (q.map .char) = some q := by
  induction q with
  | nil => rfl
  | cons c q ih => rw [List.map_cons, textOf, ih, Option.map_some]

/-- **Where characters end, text ends**: tokens that begin with some
characters and then one that is none have no first part that is longer text. -/
theorem length_le_of_textOf {toks more : List MarkupToken} {p q : List Char}
    (hinit : toks <+: p.map .char ++ more) (hmore : ∀ tok ∈ more.head?, tok.isChar = false)
    (htext : textOf toks = some q) : q.length ≤ p.length := by
  obtain rfl := eq_map_char_of_textOf htext
  by_contra hlt
  have hq : p.length < q.length := Nat.lt_of_not_le hlt
  obtain ⟨rest, hrest⟩ := hinit
  have hat : (q.map MarkupToken.char ++ rest)[p.length]? = (p.map .char ++ more)[p.length]? := by
    rw [hrest]
  rw [List.getElem?_append_left (by rw [List.length_map]; exact hq), List.getElem?_map,
    List.getElem?_eq_getElem hq, List.getElem?_append_right (by rw [List.length_map]),
    List.length_map, Nat.sub_self, ← List.head?_eq_getElem?] at hat
  exact absurd (hmore _ hat.symm) (by simp [MarkupToken.isChar])

/-- **Text that is not inert is not what its cell contains**: whatever follows
it, the text of the cell, if it has one, is shorter. -/
theorem exists_cellAt_feed (b : TableReader) {cell : TableCell}
    (hmode : b.mode = .inCell cell 0) (hempty : cell.content = []) {t : List Char}
    (ht : inert t = false) (rest : List Char) :
    ∃ cell', cellAt (feed (.data, b) (t ++ rest)).2.closeCell.done
        b.tables.length b.rows.length b.cells.length = some cell' ∧
      ∀ q, cell'.text = some q → q.length < t.length := by
  obtain ⟨p, hp, hread⟩ := scan_not_inertFrom ht
  obtain ⟨more, hmore, hhead⟩ := hread rest
  obtain ⟨first, hfirst, hcell⟩ :=
    TableReader.exists_content_of_inCell (scan .data (t ++ rest)).2 hmode
  rw [hempty, List.nil_append] at hcell
  refine ⟨_, hcell, fun q hq => Nat.lt_of_le_of_lt ?_ hp⟩
  refine length_le_of_textOf ?_ hhead hq
  rw [← hmore]
  exact hfirst

end Markup
