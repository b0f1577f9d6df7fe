import Mathlib.Tactic

/-!
# Reading markup into tokens

A reader of HTML that works on one character at a time: text, start tags with
their attributes, end tags, and everything else that begins with `<!`, `<?` or
a malformed `</`, which is skipped like a comment.

In text the character `<` opens markup only if a letter, `/`, `!` or `?` comes
next. So a text is *inert* if none of these stands right behind a `<`. Inert
text is read as its own characters (`scan_inertFrom`); in any other text the
characters end early, and what comes next, if anything, is no character
(`scan_not_inertFrom`).
-/

namespace Markup

/-- What a reader of markup tells apart. -/
inductive MarkupToken
  | char (c : Char)
  | startTag (name : List Char) (attrs : List (List Char × List Char))
  | endTag (name : List Char)
  | comment
deriving DecidableEq

/-- Whether a token is a character of text. -/
def MarkupToken.isChar : MarkupToken → Bool
  | .char _ => true
  | _ => false

/-- A tag that is being read. -/
structure PartialTag where
  closing : Bool
  name : List Char
  attrs : List (List Char × List Char)

/-- A tag that is complete. An end tag has no attributes. -/
def PartialTag.token (t : PartialTag) : MarkupToken :=
  if t.closing then .endTag t.name else .startTag t.name t.attrs

/-- A tag with one more attribute. -/
def PartialTag.addAttr (t : PartialTag) (name value : List Char) : PartialTag :=
  { t with attrs := t.attrs ++ [(name, value)] }

/-- **Where a reader is.** -/
inductive LexState
  /-- In text. -/
  | data
  /-- After `<` in text. -/
  | lt
  /-- After `</`. -/
  | ltSlash
  /-- In what is skipped up to the next `>`. -/
  | bogus
  /-- After `<!` and the given characters. -/
  | declaration (raw : List Char)
  | tagName (t : PartialTag)
  | beforeAttr (t : PartialTag)
  | attrName (t : PartialTag) (name : List Char)
  | beforeValue (t : PartialTag) (name : List Char)
  | quoted (t : PartialTag) (name : List Char) (quote : Char) (value : List Char)
  | unquoted (t : PartialTag) (name : List Char) (value : List Char)

/-- The characters that open markup behind a `<`. -/
def isOpener (c : Char) : Bool := c.isAlpha || c == '/' || c == '!' || c == '?'

/-- The white space within a tag. -/
def isTagSpace (c : Char) : Bool := c == ' ' || c == '\n' || c == '\t' || c == '\r'

/-- Whether a declaration is a comment that goes on behind a `>`. -/
def commentGoesOn (raw : List Char) : Bool :=
  ['-', '-'].isPrefixOf raw && !(['-', '-'].isSuffixOf raw)

namespace LexState

/-- One character. -/
def step : LexState → Char → LexState × List MarkupToken
  | data, c => if c = '<' then (lt, []) else (data, [.char c])
  | lt, c =>
    if c = '<' then (lt, [.char '<'])
    else if c = '/' then (ltSlash, [])
    else if c = '!' then (declaration [], [])
    else if c = '?' then (bogus, [])
    else if c.isAlpha then (tagName ⟨false, [c.toLower], []⟩, [])
    else (data, [.char '<', .char c])
  | ltSlash, c =>
    if c = '>' then (data, [.comment])
    else if c.isAlpha then (tagName ⟨true, [c.toLower], []⟩, [])
    else (bogus, [])
  | bogus, c => if c = '>' then (data, [.comment]) else (bogus, [])
  | declaration raw, c =>
    if c = '>' ∧ commentGoesOn raw = false then (data, [.comment])
    else (declaration (raw ++ [c]), [])
  | tagName t, c =>
    if c = '>' then (data, [t.token])
    else if isTagSpace c || c == '/' then (beforeAttr t, [])
    else (tagName { t with name := t.name ++ [c.toLower] }, [])
  | beforeAttr t, c =>
    if c = '>' then (data, [t.token])
    else if isTagSpace c || c == '/' then (beforeAttr t, [])
    else (attrName t [c.toLower], [])
  | attrName t name, c =>
    if c = '>' then (data, [(t.addAttr name []).token])
    else if c = '=' then (beforeValue t name, [])
    else if isTagSpace c || c == '/' then (beforeAttr (t.addAttr name []), [])
    else (attrName t (name ++ [c.toLower]), [])
  | beforeValue t name, c =>
    if c = '>' then (data, [(t.addAttr name []).token])
    else if c = '"' ∨ c = '\'' then (quoted t name c [], [])
    else if isTagSpace c then (beforeValue t name, [])
    else (unquoted t name [c], [])
  | quoted t name quote value, c =>
    if c = quote then (beforeAttr (t.addAttr name value), [])
    else (quoted t name quote (value ++ [c]), [])
  | unquoted t name value, c =>
    if c = '>' then (data, [(t.addAttr name value).token])
    else if isTagSpace c then (beforeAttr (t.addAttr name value), [])
    else (unquoted t name (value ++ [c]), [])

/-- Whether a reader is in markup, where no character is text. -/
def inMarkup : LexState → Bool
  | data => false
  | lt => false
  | _ => true

end LexState

/-- **Reading a text**: where the reader is afterwards, and the tokens. -/
def scan : LexState → List Char → LexState × List MarkupToken
  | s, [] => (s, [])
  | s, c :: cs =>
    let r := s.step c
    let r' := scan r.1 cs
    (r'.1, r.2 ++ r'.2)

/-- A text is read in two parts. -/
theorem scan_append (s : LexState) (cs ds : List Char) :
    scan s (cs ++ ds)
      = ((scan (scan s cs).1 ds).1, (scan s cs).2 ++ (scan (scan s cs).1 ds).2) := by
  induction cs generalizing s with
  | nil => rfl
  | cons c cs ih => rw [List.cons_append, scan, ih, scan, List.append_assoc]

/-- A quoted value goes on to the next quote. -/
theorem scan_quoted (t : PartialTag) (name : List Char) {quote : Char} {cs : List Char}
    (h : quote ∉ cs) (value : List Char) :
    scan (.quoted t name quote value) cs = (.quoted t name quote (value ++ cs), []) := by
  induction cs generalizing value with
  | nil => rw [List.append_nil]; rfl
  | cons c cs ih =>
    rw [List.mem_cons, not_or] at h
    have hstep : (LexState.quoted t name quote value).step c
        = (.quoted t name quote (value ++ [c]), []) := if_neg (Ne.symm h.1)
    rw [scan, hstep, ih h.2, List.append_assoc]
    rfl

/-! ## Inert text -/

/-- Whether no character of a text opens markup. The flag says whether a `<`
comes right before. -/
def inertFrom : Bool → List Char → Bool
  | _, [] => true
  | lt, c :: cs => !(lt && isOpener c) && inertFrom (c == '<') cs

/-- **Inert text**: no `<` in it is followed by a letter, `/`, `!` or `?`. -/
def inert (t : List Char) : Bool := inertFrom false t

/-- The reader in text, with or without a `<` that waits for the next
character. -/
def LexState.text (lt : Bool) : LexState := if lt then .lt else .data

/-- The `<` that waits, if any. -/
def waiting (lt : Bool) : List Char := if lt then ['<'] else []

/-- What a character is in text at once: itself, unless it has to wait. -/
def plain (c : Char) : List Char := if c = '<' then [] else [c]

/-- A character that has to wait does so, and no other. -/
theorem plain_append_waiting (c : Char) : plain c ++ waiting (c == '<') = [c] := by
  by_cases hlt : c = '<'
  · rw [hlt]
    rfl
  · rw [plain, if_neg hlt, beq_eq_false_iff_ne.mpr hlt]
    rfl

namespace LexState

/-- A character that does not open markup is text. -/
theorem step_text_of_not_opener {lt : Bool} {c : Char} (h : (lt && isOpener c) = false) :
    (text lt).step c
      = (text (c == '<'), (waiting lt ++ plain c).map .char) := by
  by_cases hlt : c = '<'
  · rw [hlt]
    cases lt <;> rfl
  · have hbeq : (c == '<') = false := beq_eq_false_iff_ne.mpr hlt
    rw [hbeq, plain, if_neg hlt]
    cases lt with
    | false => exact if_neg hlt
    | true =>
      have hopener : isOpener c = false := by simpa using h
      simp only [isOpener, Bool.or_eq_false_iff, beq_eq_false_iff_ne] at hopener
      obtain ⟨⟨⟨halpha, hslash⟩, hbang⟩, hquestion⟩ := hopener
      show LexState.lt.step c = _
      simp [step, hlt, halpha, hslash, hbang, hquestion, text, waiting]

/-- One that does leads into markup. -/
theorem step_lt_of_opener {c : Char} (h : isOpener c = true) :
    (lt.step c).2 = [] ∧ (lt.step c).1.inMarkup = true := by
  have hlt : c ≠ '<' := by
    rintro rfl
    exact absurd h (by decide)
  by_cases hslash : c = '/'
  · rw [hslash]
    exact ⟨rfl, rfl⟩
  by_cases hbang : c = '!'
  · rw [hbang]
    exact ⟨rfl, rfl⟩
  by_cases hquestion : c = '?'
  · rw [hquestion]
    exact ⟨rfl, rfl⟩
  have halpha : c.isAlpha = true := by simpa [isOpener, hslash, hbang, hquestion] using h
  simp [step, inMarkup, hlt, hslash, hbang, hquestion, halpha]

/-- **No character in markup is text**: it stays within, or ends it with a
token that is no character. -/
theorem step_of_inMarkup {s : LexState} (h : s.inMarkup = true) (c : Char) :
    ((s.step c).2 = [] ∧ (s.step c).1.inMarkup = true) ∨
      ∃ tok, (s.step c).2 = [tok] ∧ tok.isChar = false := by
  have htag : ∀ t : PartialTag, t.token.isChar = false := by
    intro t
    unfold PartialTag.token
    split <;> rfl
  cases s with
  | data => exact absurd h (by decide)
  | lt => exact absurd h (by decide)
  | ltSlash =>
    simp only [step]
    split
    · exact Or.inr ⟨_, rfl, rfl⟩
    · split <;> exact Or.inl ⟨rfl, rfl⟩
  | bogus =>
    simp only [step]
    split
    · exact Or.inr ⟨_, rfl, rfl⟩
    · exact Or.inl ⟨rfl, rfl⟩
  | declaration raw =>
    simp only [step]
    split
    · exact Or.inr ⟨_, rfl, rfl⟩
    · exact Or.inl ⟨rfl, rfl⟩
  | tagName t =>
    simp only [step]
    split
    · exact Or.inr ⟨_, rfl, htag t⟩
    · split <;> exact Or.inl ⟨rfl, rfl⟩
  | beforeAttr t =>
    simp only [step]
    split
    · exact Or.inr ⟨_, rfl, htag t⟩
    · split <;> exact Or.inl ⟨rfl, rfl⟩
  | attrName t name =>
    simp only [step]
    split
    · exact Or.inr ⟨_, rfl, htag _⟩
    · split
      · exact Or.inl ⟨rfl, rfl⟩
      · split <;> exact Or.inl ⟨rfl, rfl⟩
  | beforeValue t name =>
    simp only [step]
    split
    · exact Or.inr ⟨_, rfl, htag _⟩
    · split
      · exact Or.inl ⟨rfl, rfl⟩
      · split <;> exact Or.inl ⟨rfl, rfl⟩
  | quoted t name quote value =>
    simp only [step]
    split <;> exact Or.inl ⟨rfl, rfl⟩
  | unquoted t name value =>
    simp only [step]
    split
    · exact Or.inr ⟨_, rfl, htag _⟩
    · split <;> exact Or.inl ⟨rfl, rfl⟩

end LexState

/-- What is read in markup begins with a token that is no character, if there
is any. -/
theorem scan_of_inMarkup {s : LexState} (h : s.inMarkup = true) (cs : List Char) :
    ∀ tok ∈ (scan s cs).2.head?, tok.isChar = false := by
  induction cs generalizing s with
  | nil => exact fun tok htok => nomatch htok
  | cons c cs ih =>
    rw [scan]
    rcases LexState.step_of_inMarkup h c with ⟨hnil, hstay⟩ | ⟨tok, htok, hchar⟩
    · rw [hnil, List.nil_append]
      exact ih hstay
    · rw [htok]
      intro tok' htok'
      obtain rfl : tok = tok' := Option.some.inj htok'
      exact hchar

/-- **Inert text is read as its own characters.** The `<` behind it is that of
the tag that follows. -/
theorem scan_inertFrom {lt : Bool} {t : List Char} (h : inertFrom lt t = true) :
    scan (.text lt) (t ++ ['<']) = (.lt, (waiting lt ++ t).map .char) := by
  induction t generalizing lt with
  | nil => cases lt <;> rfl
  | cons c t ih =>
    rw [inertFrom, Bool.and_eq_true, Bool.not_eq_true'] at h
    -- whether the character has to wait is what the induction carries
    rw [List.cons_append, scan, LexState.step_text_of_not_opener h.1, ih h.2, ← List.map_append,
      List.append_assoc, ← List.append_assoc (plain c), plain_append_waiting]
    rfl

/-- **In any other text the characters end early**, whatever follows it, and
what comes next is no character. -/
theorem scan_not_inertFrom {lt : Bool} {t : List Char} (h : inertFrom lt t = false) :
    ∃ p : List Char, p.length < (waiting lt ++ t).length ∧ ∀ rest, ∃ more,
      (scan (.text lt) (t ++ rest)).2 = p.map .char ++ more ∧
        ∀ tok ∈ more.head?, tok.isChar = false := by
  induction t generalizing lt with
  | nil => exact absurd h Bool.noConfusion
  | cons c t ih =>
    rw [inertFrom, Bool.and_eq_false_iff, Bool.not_eq_false'] at h
    by_cases hopener : (lt && isOpener c) = true
    · -- the characters end before the `<` that waits
      obtain ⟨rfl, hopener⟩ := Bool.and_eq_true_iff.mp hopener
      obtain ⟨hnil, hmarkup⟩ := LexState.step_lt_of_opener hopener
      refine ⟨[], by simp [waiting], fun rest => ⟨_, rfl, ?_⟩⟩
      show ∀ tok ∈ (scan .lt (c :: (t ++ rest))).2.head?, tok.isChar = false
      rw [scan, hnil]
      exact scan_of_inMarkup hmarkup (t ++ rest)
    · obtain ⟨p, hp, hread⟩ := ih (h.resolve_left hopener)
      have hstep := LexState.step_text_of_not_opener (Bool.not_eq_true _ ▸ hopener)
      refine ⟨waiting lt ++ plain c ++ p, ?_, fun rest => ?_⟩
      · have hsplit : waiting lt ++ c :: t
            = waiting lt ++ plain c ++ (waiting (c == '<') ++ t) := by
          rw [List.append_assoc, ← List.append_assoc (plain c), plain_append_waiting]
          rfl
        rw [hsplit]
        simp only [List.length_append] at hp ⊢
        omega
      · obtain ⟨more, hmore, hhead⟩ := hread rest
        refine ⟨more, ?_, hhead⟩
        rw [List.cons_append, scan, hstep]
        show _ ++ (scan _ _).2 = _
        rw [hmore, ← List.append_assoc, ← List.map_append]

/-- Text without any `<` is inert. -/
theorem inert_of_notMem {t : List Char} (h : '<' ∉ t) : inert t = true := by
  have hfrom : ∀ t : List Char, '<' ∉ t → inertFrom false t = true := by
    intro t
    induction t with
    | nil => exact fun _ => rfl
    | cons c t ih =>
      intro h
      rw [List.mem_cons, not_or] at h
      rw [inertFrom, beq_eq_false_iff_ne.mpr (Ne.symm h.1), ih h.2]
      rfl
  exact hfrom t h

end Markup
