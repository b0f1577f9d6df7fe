import JsonBenchmarks.MarkupTables

/-!
# Reading pages with several tables

A page has tables one behind the other, with text and other markup between
them. A reader that has tables behind it reads on as if they were not there
(`feed_behind`), so what is known of one table from the beginning of a
document is known of it anywhere (`readTables_append`). And only the beginning
of a table matters to a reader outside of tables: a piece without one is an
`Aside`, and passed over (`Aside.feed_eq`).

A page also has links, and anchors that links lead to. Both are attributes of
start tags and are collected from the tokens. `Marks` says which of them a
piece of a page has. Like asides, marks are put together piece by piece.
-/

namespace Markup

namespace TableReader

/-! ## Tables that are behind -/

/-- A reader that has read some more tables before. -/
def behind (T : List MarkupTable) (b : TableReader) : TableReader :=
  { b with tables := T ++ b.tables }

section Behind

variable (T : List MarkupTable) (b : TableReader)

theorem closeCell_behind : (b.behind T).closeCell = b.closeCell.behind T := by
  obtain ⟨T', R, C, mode⟩ := b
  cases mode <;> rfl

theorem closeRow_behind : (b.behind T).closeRow = b.closeRow.behind T := by
  obtain ⟨T', R, C, mode⟩ := b
  cases mode <;> rfl

theorem closeTable_behind : (b.behind T).closeTable = b.closeTable.behind T := by
  obtain ⟨T', R, C, mode⟩ := b
  cases mode with
  | outside => rfl
  | inTable => exact congrArg (TableReader.mk · [] C .outside) (List.append_assoc T T' [R])
  | inRow => exact congrArg (TableReader.mk · [] [] .outside) (List.append_assoc T T' [R ++ [C]])
  | inCell cell depth => rfl

theorem openTable_behind : (b.behind T).openTable = b.openTable.behind T := by
  obtain ⟨T', R, C, mode⟩ := b
  cases mode <;> rfl

theorem openRow_behind : (b.behind T).openRow = b.openRow.behind T := by
  obtain ⟨T', R, C, mode⟩ := b
  cases mode <;> rfl

theorem openCell_behind (cell : TableCell) :
    (b.behind T).openCell cell = (b.openCell cell).behind T := by
  obtain ⟨T', R, C, mode⟩ := b
  cases mode <;> rfl

theorem structural_behind (tok : MarkupToken) :
    (b.behind T).structural tok = (b.structural tok).behind T := by
  cases tok with
  | startTag name attrs =>
    simp only [structural]
    split
    · rw [closeTable_behind, openTable_behind]
    split
    · rw [closeRow_behind, openRow_behind]
    split
    · exact openCell_behind T b _
    split
    · exact openCell_behind T b _
    · rfl
  | endTag name =>
    simp only [structural]
    split
    · exact closeTable_behind T b
    split
    · exact closeRow_behind T b
    · rfl
  | _ => rfl

theorem step_behind (tok : MarkupToken) : (b.behind T).step tok = (b.step tok).behind T := by
  cases hmode : b.mode with
  | inCell cell depth =>
    have hmode' : (b.behind T).mode = .inCell cell depth := hmode
    by_cases hends : depth = 0 ∧ endsCell cell tok = true
    · rw [step_of_endsCell hmode hends, step_of_endsCell hmode' hends, closeCell_behind,
        structural_behind]
    · rw [step_of_not_endsCell hmode hends, step_of_not_endsCell hmode' hends]
      rfl
  | _ =>
    have hmode' : (b.behind T).mode = b.mode := rfl
    rw [step, step, hmode', hmode]
    exact structural_behind T b tok

/-- **Tables that are behind do not matter.** -/
theorem run_behind (toks : List MarkupToken) :
    (b.behind T).run toks = (b.run toks).behind T := by
  induction toks generalizing b with
  | nil => rfl
  | cons tok toks ih =>
    show ((b.behind T).step tok).run toks = ((b.step tok).run toks).behind T
    rw [step_behind, ih]

theorem done_behind : (b.behind T).done = T ++ b.done := by
  obtain ⟨T', R, C, mode⟩ := b
  cases mode with
  | outside => rfl
  | inTable => exact List.append_assoc T T' [R]
  | inRow => exact List.append_assoc T T' [R ++ [C]]
  | inCell cell depth => exact List.append_assoc T T' [R ++ [C]]

end Behind

/-! ## Outside of tables -/

/-- A reader that is outside of tables. -/
def outside (T : List MarkupTable) : TableReader := ⟨T, [], [], .outside⟩

/-- Whether a token means nothing to a reader outside of tables. -/
def isAside : MarkupToken → Bool
  | .startTag name _ => name ≠ "table".toList
  | _ => true

/-- Outside of tables only the beginning of a table matters. -/
theorem run_of_asides (T : List MarkupTable) {toks : List MarkupToken}
    (h : toks.all isAside = true) : (outside T).run toks = outside T := by
  induction toks with
  | nil => rfl
  | cons tok toks ih =>
    obtain ⟨htok, htoks⟩ := Bool.and_eq_true_iff.mp (List.all_cons ▸ h)
    have hstep : (outside T).step tok = outside T := by
      show (outside T).structural tok = outside T
      cases tok with
      | startTag name attrs =>
        have hname : name ≠ "table".toList := of_decide_eq_true htok
        simp only [structural, if_neg hname]
        split
        · rfl
        split
        · rfl
        split <;> rfl
      | endTag name =>
        simp only [structural]
        split
        · rfl
        split <;> rfl
      | _ => rfl
    show ((outside T).step tok).run toks = outside T
    rw [hstep, ih htoks]

end TableReader

/-- A reader with tables behind it reads a text as one without. -/
theorem feed_behind {l l' : LexState} {b b' : TableReader} {cs : List Char}
    (h : feed (l, b) cs = (l', b')) (T : List MarkupTable) :
    feed (l, b.behind T) cs = (l', b'.behind T) := by
  obtain ⟨hl, hb⟩ := Prod.mk.inj h
  exact Prod.ext hl ((TableReader.run_behind T b _).trans (congrArg (TableReader.behind T) hb))

/-- **Complete tables stay, and what follows is read from the beginning.** -/
theorem readTables_append {cs : List Char} {T : List MarkupTable}
    (h : feed (.data, .start) cs = (.data, .outside T)) (rest : List Char) :
    readTables (cs ++ rest) = T ++ readTables rest := by
  have hrest : feed (.data, .outside T) rest
      = ((feed (.data, .start) rest).1, (feed (.data, .start) rest).2.behind T) := by
    have hbehind := feed_behind (Prod.mk.eta (p := feed (.data, .start) rest)).symm T
    rwa [show TableReader.start.behind T = .outside T from
      congrArg TableReader.outside (List.append_nil T)] at hbehind
  unfold readTables
  rw [feed_append, h, hrest, TableReader.closeCell_behind, TableReader.done_behind]

/-- The tables of two texts. -/
theorem feed_start_append {cs ds : List Char} {T T' : List MarkupTable}
    (h : feed (.data, .start) cs = (.data, .outside T))
    (h' : feed (.data, .start) ds = (.data, .outside T')) :
    feed (.data, .start) (cs ++ ds) = (.data, .outside (T ++ T')) := by
  have hbehind := feed_behind h' T
  rw [show TableReader.start.behind T = .outside T from
    congrArg TableReader.outside (List.append_nil T)] at hbehind
  exact feed_append_of_eq h hbehind

/-- Text is read as its own characters. -/
theorem scan_of_notMem {t : List Char} (h : '<' ∉ t) : scan .data t = (.data, t.map .char) := by
  induction t with
  | nil => rfl
  | cons c t ih =>
    rw [List.mem_cons, not_or] at h
    have hstep : LexState.data.step c = (.data, [.char c]) := if_neg (Ne.symm h.1)
    rw [scan, hstep, ih h.2]
    rfl

/-- **A piece of a page without tables**, and where a reader is behind it. -/
structure Aside (l : LexState) (cs : List Char) (l' : LexState) : Prop where
  state : (scan l cs).1 = l'
  asides : (scan l cs).2.all TableReader.isAside = true

namespace Aside

variable {l l' l'' : LexState} {cs ds t : List Char}

/-- Pieces are put together. -/
theorem append (h : Aside l cs l') (h' : Aside l' ds l'') : Aside l (cs ++ ds) l'' := by
  obtain ⟨rfl, hasides⟩ := h
  refine ⟨?_, ?_⟩
  · rw [scan_append]
    exact h'.state
  · rw [scan_append, List.all_append, hasides, h'.asides]
    rfl

/-- Characters are no tables. -/
theorem of_scan (h : scan l cs = (l', t.map .char)) : Aside l cs l' := by
  refine ⟨congrArg Prod.fst h, ?_⟩
  rw [h, List.all_map]
  exact List.all_eq_true.mpr fun _ _ => rfl

/-- Text has no tables. -/
theorem text (h : '<' ∉ t) : Aside .data t .data := of_scan (scan_of_notMem h)

/-- A quoted value has no tables before its end. -/
theorem quoted (p : PartialTag) (name value : List Char) {quote : Char} (h : quote ∉ cs) :
    Aside (.quoted p name quote value) cs (.quoted p name quote (value ++ cs)) :=
  of_scan (t := []) (scan_quoted p name h value)

/-- The pieces of a list. -/
theorem flatMap {α : Type} {xs : List α} {f : α → List Char}
    (h : ∀ x ∈ xs, Aside .data (f x) .data) : Aside .data (xs.flatMap f) .data := by
  induction xs with
  | nil => exact ⟨rfl, rfl⟩
  | cons x xs ih =>
    obtain ⟨hx, hxs⟩ := List.forall_mem_cons.mp h
    exact hx.append (ih hxs)

/-- **A reader outside of tables passes over it.** -/
theorem feed_eq (h : Aside .data cs .data) (T : List MarkupTable) :
    feed (.data, .outside T) cs = (.data, .outside T) := by
  rw [feed_of_scan (Prod.ext h.state rfl), TableReader.run_of_asides T h.asides]

end Aside

/-! ## Links and anchors -/

/-- The values of an attribute in a token. -/
def MarkupToken.values (attr : List Char) : MarkupToken → List (List Char)
  | .startTag _ attrs => (attrs.filter fun a => a.1 = attr).map Prod.snd
  | _ => []

/-- The values of an attribute in a text that is read from a state on. -/
def valuesFrom (l : LexState) (attr cs : List Char) : List (List Char) :=
  (scan l cs).2.flatMap (MarkupToken.values attr)

/-- Where the links of a page lead. -/
def linksOf (html : List Char) : List (List Char) := valuesFrom .data "href".toList html

/-- The anchors of a page. -/
def anchorsOf (html : List Char) : List (List Char) := valuesFrom .data "id".toList html

/-- **A piece of a page and its marks**: where a reader is behind it, and the
links and anchors in it, in order. -/
structure Marks (l : LexState) (cs : List Char) (l' : LexState)
    (links anchors : List (List Char)) : Prop where
  state : (scan l cs).1 = l'
  links : valuesFrom l "href".toList cs = links
  anchors : valuesFrom l "id".toList cs = anchors

theorem valuesFrom_append (l : LexState) (attr cs ds : List Char) :
    valuesFrom l attr (cs ++ ds) = valuesFrom l attr cs ++ valuesFrom (scan l cs).1 attr ds := by
  rw [valuesFrom, scan_append, List.flatMap_append]
  rfl

/-- Characters have no attributes. -/
theorem flatMap_values_char (attr t : List Char) :
    (t.map MarkupToken.char).flatMap (MarkupToken.values attr) = [] := by
  rw [List.flatMap_map]
  exact List.flatMap_eq_nil_iff.mpr fun _ _ => rfl

namespace Marks

variable {l l' l'' : LexState} {cs ds t : List Char}
  {links anchors links' anchors' : List (List Char)}

/-- **Pieces are put together.** -/
theorem append (h : Marks l cs l' links anchors) (h' : Marks l' ds l'' links' anchors') :
    Marks l (cs ++ ds) l'' (links ++ links') (anchors ++ anchors') := by
  obtain ⟨rfl, rfl, rfl⟩ := h
  refine ⟨?_, ?_, ?_⟩
  · rw [scan_append]
    exact h'.state
  · rw [valuesFrom_append, h'.links]
  · rw [valuesFrom_append, h'.anchors]

/-- A piece without marks, of which the tokens are known to be characters. -/
theorem of_scan (h : scan l cs = (l', t.map .char)) : Marks l cs l' [] [] := by
  have hvalues : ∀ attr, valuesFrom l attr cs = [] := by
    intro attr
    rw [valuesFrom, h]
    exact flatMap_values_char attr t
  exact ⟨congrArg Prod.fst h, hvalues _, hvalues _⟩

/-- Text has no marks. -/
theorem text (h : '<' ∉ t) : Marks .data t .data [] [] := of_scan (scan_of_notMem h)

/-- Inert text has no marks. The `<` behind it is that of the tag that
follows. -/
theorem inert (h : inert t = true) (h' : Marks .lt cs l' links anchors) :
    Marks .data (t ++ '<' :: cs) l' links anchors := by
  have hscan : scan .data (t ++ ['<']) = (.lt, t.map .char) := scan_inertFrom h
  rw [List.append_cons]
  exact (of_scan hscan).append h'

/-- A quoted value has no marks before its end. -/
theorem quoted (p : PartialTag) (name value : List Char) {quote : Char} (h : quote ∉ cs) :
    Marks (.quoted p name quote value) cs (.quoted p name quote (value ++ cs)) [] [] :=
  of_scan (t := []) (scan_quoted p name h value)

/-- The pieces of a list. -/
theorem flatMap {α : Type} {xs : List α} {f : α → List Char} {links anchors : α → List (List Char)}
    (h : ∀ x ∈ xs, Marks .data (f x) .data (links x) (anchors x)) :
    Marks .data (xs.flatMap f) .data (xs.flatMap links) (xs.flatMap anchors) := by
  induction xs with
  | nil => exact ⟨rfl, rfl, rfl⟩
  | cons x xs ih =>
    obtain ⟨hx, hxs⟩ := List.forall_mem_cons.mp h
    exact hx.append (ih hxs)

/-- Pieces without marks. -/
theorem flatMap_nil {α : Type} {xs : List α} {f : α → List Char}
    (h : ∀ x ∈ xs, Marks .data (f x) .data [] []) : Marks .data (xs.flatMap f) .data [] [] := by
  have hnil : xs.flatMap (fun _ => ([] : List (List Char))) = [] :=
    List.flatMap_eq_nil_iff.mpr fun _ _ => rfl
  have hmarks : Marks .data (xs.flatMap f) .data (xs.flatMap fun _ => [])
      (xs.flatMap fun _ => []) := flatMap h
  rwa [hnil] at hmarks

end Marks

/-! ## Pieces that are checked by reading them -/

/-- Whether a token is neither the beginning of a table nor a mark. -/
def MarkupToken.isBare (tok : MarkupToken) : Bool :=
  TableReader.isAside tok && (tok.values "href".toList).isEmpty && (tok.values "id".toList).isEmpty

/-- Whether a reader is in text. -/
def LexState.isData : LexState → Bool
  | .data => true
  | _ => false

/-- Whether a text has neither tables nor marks and is read to its end. -/
def isBareText (cs : List Char) : Bool :=
  (scan .data cs).1.isData && (scan .data cs).2.all MarkupToken.isBare

section Bare

variable {cs : List Char}

/-- Behind such a text a reader is in text. -/
theorem state_of_isBareText (h : isBareText cs = true) : (scan .data cs).1 = .data := by
  have hdata := (Bool.and_eq_true_iff.mp h).1
  cases hstate : (scan .data cs).1 with
  | data => rfl
  | _ => rw [hstate] at hdata; exact absurd hdata (by simp [LexState.isData])

/-- Such texts are put together. -/
theorem isBareText_append {ds : List Char} (h : isBareText cs = true) (h' : isBareText ds = true) :
    isBareText (cs ++ ds) = true := by
  rw [isBareText, scan_append, state_of_isBareText h, List.all_append,
    (Bool.and_eq_true_iff.mp h).2]
  exact h'

/-- Text without any `<` is bare. -/
theorem isBareText_of_notMem (h : '<' ∉ cs) : isBareText cs = true := by
  rw [isBareText, scan_of_notMem h, List.all_map]
  exact List.all_eq_true.mpr fun _ _ => rfl

/-- What each of its tokens is. -/
theorem isBare_of_mem (h : isBareText cs = true) {tok : MarkupToken}
    (htok : tok ∈ (scan .data cs).2) :
    TableReader.isAside tok = true ∧ tok.values "href".toList = [] ∧
      tok.values "id".toList = [] := by
  have hbare := List.all_eq_true.mp (Bool.and_eq_true_iff.mp h).2 tok htok
  simpa only [MarkupToken.isBare, Bool.and_eq_true, List.isEmpty_iff, and_assoc] using hbare

theorem Aside.of_isBareText (h : isBareText cs = true) : Aside .data cs .data :=
  ⟨state_of_isBareText h, List.all_eq_true.mpr fun _ htok => (isBare_of_mem h htok).1⟩

theorem Marks.of_isBareText (h : isBareText cs = true) : Marks .data cs .data [] [] :=
  ⟨state_of_isBareText h,
    List.flatMap_eq_nil_iff.mpr fun _ htok => (isBare_of_mem h htok).2.1,
    List.flatMap_eq_nil_iff.mpr fun _ htok => (isBare_of_mem h htok).2.2⟩

end Bare

end Markup
