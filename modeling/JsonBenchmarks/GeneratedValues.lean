import JsonBenchmarks.GeneratedFile

/-!
# The generated file and the values that were drawn

A loop that draws values pushes exactly as many as it should, if its kind is
selected (`fillKind_eq_some_iff`), and the first records carry all of them, in
order. Three of the four kinds are written as they are. The integers are drawn
as 64-bit unsigned numbers and written through `int64_value`, which takes a
signed one. So the file says what was drawn exactly if no record carries an
integer from 2^63 on (`makeTestFile_writesGenerated_iff`).
-/

namespace JsonBenchmarks

open CountedLoop FallibleRuns JsonEvents DataGeneratorMode

/-! ## What the first records say -/

/-- A kind is selected by its own bit or by the one for all of them. -/
def Selected (flags kind : BitVec 64) : Prop := flags &&& mixed ≠ 0 ∨ flags &&& kind ≠ 0

instance (flags kind : BitVec 64) : Decidable (Selected flags kind) :=
  inferInstanceAs (Decidable (_ ∨ _))

/-- The values of a kind that are drawn. -/
def drawn {α : Type} (flags kind num : BitVec 64) (draw : ℕ → α) : List α :=
  if Selected flags kind then (List.range num.toNat).map draw else []

/-- The keyword that is drawn with an index. -/
def keywordScalar : Fin 3 → JsonScalar
  | 0 => .bool true
  | 1 => .bool false
  | 2 => .null

/-- The documents of the first record loop. -/
def TestFile.firstRecords (t : TestFile) : Option (List Json) :=
  match denote ([.beginArray] ++ t.firstLoop ++ [.endArray]) with
  | some (.array rs) => some rs
  | _ => none

/-- An array among the favorites of the person of a record. -/
def favorite (r : Json) (name : String) : Option Json :=
  ((r.member "person").bind (·.member "favorites")).bind (·.member name)

/-- **A record says what was drawn**: each of its four arrays denotes the
values of its kind, in order, and is empty exactly if the kind is not selected
or there are none. -/
structure SaysDrawn (g : Generators) (c : Counts) (flags : BitVec 64) (r : Json) : Prop where
  bigText : favorite r "big_text"
    = some (scalars ((drawn flags strings c.numStrings fun _ => catsLikeMice).map .string))
  integerValues : favorite r "integer_values"
    = some (scalars ((drawn flags ints c.numInts g.int).map fun x => .int x.toNat))
  doubleValues : favorite r "double_values"
    = some (scalars ((drawn flags floats c.numFloats g.real).map .double))
  keywordsValues : favorite r "keywords_values"
    = some (scalars ((drawn flags keywords c.numKeywords g.keyword).map keywordScalar))
  bigText_empty : favorite r "big_text" = some (scalars [])
    ↔ ¬ Selected flags strings ∨ c.numStrings = 0
  integerValues_empty : favorite r "integer_values" = some (scalars [])
    ↔ ¬ Selected flags ints ∨ c.numInts = 0
  doubleValues_empty : favorite r "double_values" = some (scalars [])
    ↔ ¬ Selected flags floats ∨ c.numFloats = 0
  keywordsValues_empty : favorite r "keywords_values" = some (scalars [])
    ↔ ¬ Selected flags keywords ∨ c.numKeywords = 0

/-- Every record of the first record loop says what was drawn. -/
def WritesGenerated (g : Generators) (c : Counts) (flags : BitVec 64) (t : TestFile) : Prop :=
  ∃ rs, t.firstRecords = some rs ∧ ∀ r ∈ rs, SaysDrawn g c flags r

/-- The vectors of values, from what is drawn. -/
def drawnValues (g : Generators) (c : Counts) (flags : BitVec 64) : GeneratedValues where
  stringValues := drawn flags strings c.numStrings fun _ => catsLikeMice
  doubleValues := drawn flags floats c.numFloats g.real
  integerValues := drawn flags ints c.numInts g.int
  keywordsValues := drawn flags keywords c.numKeywords fun n => keywordCode (g.keyword n)

/-- The bits that the loops test are those of the kinds that are selected. -/
theorem localFlags_and_ne_zero_iff (flags : BitVec 64) {kind : BitVec 64}
    (hkind : (ints ||| floats ||| strings ||| keywords) &&& kind ≠ 0) :
    localFlags flags &&& kind ≠ 0 ↔ Selected flags kind := by
  unfold localFlags Selected
  by_cases hmixed : flags &&& mixed ≠ 0
  · rw [if_pos hmixed]
    exact iff_of_true hkind (Or.inl hmixed)
  · rw [if_neg hmixed]
    exact (or_iff_right hmixed).symm

theorem iterate_push {α : Type} (draw : ℕ → α) (n : ℕ) :
    (fun vs => vs ++ [draw vs.length])^[n] [] = (List.range n).map draw := by
  induction n with
  | zero => rfl
  | succ n ih =>
    rw [Function.iterate_succ_apply', ih, List.range_succ, List.map_append, List.length_map,
      List.length_range]
    rfl

/-- **When a loop that draws values ends, and with what**: if its kind is
selected, its bound must be within the range of the counter, and it has pushed
exactly what is drawn. -/
theorem fillKind_eq_some_iff {α : Type} {fuel : ℕ} {flags kind num : BitVec 64} {draw : ℕ → α}
    {vs : List α} (hkind : (ints ||| floats ||| strings ||| keywords) &&& kind ≠ 0) :
    fillKind fuel flags kind num draw = some vs
      ↔ (Selected flags kind → num.toNat < 2 ^ 32 ∧ num.toNat < fuel) ∧
        drawn flags kind num draw = vs := by
  unfold fillKind drawn
  by_cases hsel : Selected flags kind
  · rw [if_pos ((localFlags_and_ne_zero_iff flags hkind).mpr hsel), fill,
      countedLoop_eq_some_iff (by decide) (by decide), iterate_push, iterations_one (by decide),
      if_pos hsel]
    simp only [hsel, true_implies, and_assoc]
    exact Iff.rfl
  · rw [if_neg (fun hne => hsel ((localFlags_and_ne_zero_iff flags hkind).mp hne)), if_neg hsel,
      Option.some.injEq]
    exact (and_iff_right (fun h => absurd h hsel)).symm

/-- A bound within the range of the counter is one that can be reserved. -/
theorem lt_of_maxSize_lt {bytes : ℕ} (hbytes : bytes ∈ [1, 8]) {num : BitVec 64}
    (h : maxSize bytes < num.toNat) : 2 ^ 32 ≤ num.toNat := by
  have hmax : ∀ bytes ∈ [1, 8], 2 ^ 32 ≤ maxSize bytes := by decide
  exact (hmax bytes hbytes).trans h.le

/-- **When a reservation is refused**: its kind is selected, and it asks for
more than any vector may have. -/
theorem reserveKind_eq_error_iff {flags kind num : BitVec 64} {bytes : ℕ} {what : String}
    (hkind : (ints ||| floats ||| strings ||| keywords) &&& kind ≠ 0) :
    reserveKind flags kind bytes num = .error what ↔
      (Selected flags kind ∧ maxSize bytes < num.toNat) ∧ "vector::reserve" = what := by
  unfold reserveKind reserve
  by_cases hsel : Selected flags kind
  · rw [if_pos ((localFlags_and_ne_zero_iff flags hkind).mpr hsel), and_iff_right hsel]
    split
    · exact ⟨fun h => ⟨‹_›, Except.error.inj h⟩, fun h => congrArg Except.error h.2⟩
    · exact iff_of_false (fun h => nomatch h) fun h => absurd h.1 ‹_›
  · rw [if_neg fun hne => hsel ((localFlags_and_ne_zero_iff flags hkind).mp hne)]
    exact iff_of_false (fun h => nomatch h) fun h => hsel h.1.1

/-- A reservation is served that is followed by a loop that ends. -/
theorem reserveKind_eq_ok {flags kind num : BitVec 64} {bytes : ℕ} (hbytes : bytes ∈ [1, 8])
    (hkind : (ints ||| floats ||| strings ||| keywords) &&& kind ≠ 0)
    (h : Selected flags kind → num.toNat < 2 ^ 32) : reserveKind flags kind bytes num = .ok () := by
  cases hreserve : reserveKind flags kind bytes num with
  | ok => rfl
  | error what =>
    obtain ⟨⟨hsel, hmax⟩, -⟩ := (reserveKind_eq_error_iff hkind).mp hreserve
    exact absurd (h hsel) (Nat.not_lt.mpr (lt_of_maxSize_lt hbytes hmax))

/-- The loop behind a reservation, if its kind is selected, and what comes of
it. -/
theorem run_reserved_eq_ok_iff {α β : Type} {fuel : ℕ} {flags num : BitVec 64} {draw : ℕ → α}
    {f : List α → ExceptT String Option β} {b : β} (bytes : ℕ) (kind : BitVec 64)
    (h : bytes ∈ [1, 8] ∧ (ints ||| floats ||| strings ||| keywords) &&& kind ≠ 0) :
    (do ofExcept (reserveKind flags kind bytes num)
        let vs ← ExceptT.lift (fillKind fuel flags kind num draw)
        f vs : ExceptT String Option β).run = some (.ok b)
      ↔ (Selected flags kind → num.toNat < 2 ^ 32 ∧ num.toNat < fuel) ∧
        (f (drawn flags kind num draw)).run = some (.ok b) := by
  rw [run_bind_eq_ok_iff]
  simp only [run_bind_eq_ok_iff, run_ofExcept, run_lift_eq_ok_iff, fillKind_eq_some_iff h.2]
  constructor
  · rintro ⟨-, -, vs, ⟨hbound, rfl⟩, hf⟩
    exact ⟨hbound, hf⟩
  · rintro ⟨hbound, hf⟩
    exact ⟨(), congrArg some (reserveKind_eq_ok h.1 h.2 fun hsel => (hbound hsel).1),
      _, ⟨hbound, rfl⟩, hf⟩

/-- **When the loops that draw values end, and with what.** -/
theorem generate_eq_ok_iff {fuel : ℕ} {g : Generators} {c : Counts} {flags : BitVec 64}
    {v : GeneratedValues} :
    generate fuel g c flags = some (.ok v) ↔
      ((Selected flags strings → c.numStrings.toNat < 2 ^ 32 ∧ c.numStrings.toNat < fuel) ∧
        (Selected flags floats → c.numFloats.toNat < 2 ^ 32 ∧ c.numFloats.toNat < fuel) ∧
        (Selected flags ints → c.numInts.toNat < 2 ^ 32 ∧ c.numInts.toNat < fuel) ∧
        (Selected flags keywords →
          c.numKeywords.toNat < 2 ^ 32 ∧ c.numKeywords.toNat < fuel)) ∧
      drawnValues g c flags = v := by
  have hreturn : ∀ v' : GeneratedValues,
      (pure v' : ExceptT String Option GeneratedValues).run = some (.ok v) ↔ v' = v :=
    fun v' => ⟨fun h => Except.ok.inj (Option.some.inj h), fun h => congrArg (some ∘ Except.ok) h⟩
  have hstrings : ∀ ss, (ExceptT.lift (fillKind fuel flags strings c.numStrings
      fun _ => catsLikeMice) : ExceptT String Option (List String)).run = some (.ok ss) ↔
        (Selected flags strings → c.numStrings.toNat < 2 ^ 32 ∧ c.numStrings.toNat < fuel) ∧
          drawn flags strings c.numStrings (fun _ => catsLikeMice) = ss :=
    fun ss => run_lift_eq_ok_iff.trans (fillKind_eq_some_iff (by decide))
  unfold generate
  rw [run_bind_eq_ok_iff]
  simp only [hstrings, run_reserved_eq_ok_iff 8 floats (by decide),
    run_reserved_eq_ok_iff 8 ints (by decide), run_reserved_eq_ok_iff 1 keywords (by decide),
    hreturn]
  constructor
  · rintro ⟨-, ⟨hss, rfl⟩, hds, his, hks, rfl⟩
    exact ⟨⟨hss, hds, his, hks⟩, rfl⟩
  · rintro ⟨⟨hss, hds, his, hks⟩, rfl⟩
    exact ⟨_, ⟨hss, rfl⟩, hds, his, hks, rfl⟩

/-- The root that contains a record over and over. -/
theorem denote_replicate {r : Json} (hr : r.NodupKeys) (n : ℕ) :
    denote ([.beginArray] ++ JsonTree.eventsList (List.replicate n r) ++ [.endArray])
      = some (.array (List.replicate n r)) := by
  rw [List.append_assoc, List.singleton_append]
  refine denote_array (fun r' hr' => ?_)
  rw [List.eq_of_mem_replicate hr']
  exact hr

/-- A file is made of values and of records. -/
theorem makeTestFile_eq_ok_iff {fuel : ℕ} {filename : String} {g : Generators} {c : Counts}
    {repeats flags : BitVec 64} {t : TestFile} :
    makeTestFile fuel true filename g c repeats flags = some (.ok t) ↔
      ∃ v, generate fuel g c flags = some (.ok v) ∧
        writeRecords fuel flags v repeats = some t := by
  rw [makeTestFile, if_pos rfl, run_bind_eq_ok_iff]
  simp only [run_lift_eq_ok_iff, ExceptT.run_mk]

/-- Nothing is thrown but by the part that draws the values. -/
theorem makeTestFile_eq_error_iff {fuel : ℕ} {filename : String} {g : Generators} {c : Counts}
    {repeats flags : BitVec 64} {what : String} :
    makeTestFile fuel true filename g c repeats flags = some (.error what) ↔
      generate fuel g c flags = some (.error what) := by
  rw [makeTestFile, if_pos rfl, run_bind_eq_error_iff, ExceptT.run_mk]
  exact or_iff_left fun ⟨_, _, h⟩ => run_lift_ne_error h

/-- The records of the first record loop of a file that was made. -/
theorem firstRecords_of_makeTestFile {fuel : ℕ} {canCreate : Bool} {filename : String}
    {g : Generators} {c : Counts} {repeats flags : BitVec 64} {t : TestFile}
    (h : makeTestFile fuel canCreate filename g c repeats flags = some (.ok t)) :
    t.firstRecords = some
      (List.replicate (iterations 2#32 repeats.toNat) (firstTree (drawnValues g c flags))) := by
  cases canCreate with
  | false => exact absurd (Option.some.inj h) (by simp)
  | true =>
    obtain ⟨v, hv, ht⟩ := makeTestFile_eq_ok_iff.mp h
    obtain ⟨-, rfl⟩ := generate_eq_ok_iff.mp hv
    rw [TestFile.firstRecords, (writeRecords_eq_some ht).1,
      denote_replicate (nodupKeys_firstTree _)]

theorem scalars_inj {ss ss' : List JsonScalar} : scalars ss = scalars ss' ↔ ss = ss' := by
  unfold scalars
  rw [JsonTree.array.injEq]
  exact (List.map_injective_iff.mpr (fun s s' h => JsonTree.scalar.inj h)).eq_iff

/-- Nothing is drawn exactly if the kind is not selected or nothing is to be
drawn. -/
theorem drawn_eq_nil_iff {α : Type} (flags kind num : BitVec 64) (draw : ℕ → α) :
    drawn flags kind num draw = [] ↔ ¬ Selected flags kind ∨ num = 0 := by
  unfold drawn
  by_cases hsel : Selected flags kind
  · rw [if_pos hsel, List.map_eq_nil_iff, List.range_eq_nil, or_iff_right (not_not_intro hsel)]
    exact (BitVec.toNat_inj (x := num) (y := 0#64)).trans Iff.rfl
  · rw [if_neg hsel]
    exact iff_of_true rfl (Or.inl hsel)

/-- An array of what is drawn is empty exactly if nothing is drawn. -/
theorem scalars_map_drawn_eq_nil_iff {α : Type} (flags kind num : BitVec 64) (draw : ℕ → α)
    (f : α → JsonScalar) :
    some (scalars ((drawn flags kind num draw).map f)) = some (scalars [])
      ↔ ¬ Selected flags kind ∨ num = 0 := by
  rw [Option.some.injEq, scalars_inj, List.map_eq_nil_iff, drawn_eq_nil_iff]

/-- The code of a keyword stands for it. -/
theorem flatMap_keywordScalars (g : Generators) (c : Counts) (flags : BitVec 64) :
    (drawnValues g c flags).keywordsValues.flatMap keywordScalars
      = (drawn flags keywords c.numKeywords g.keyword).map keywordScalar := by
  have hcode : ∀ k, keywordScalars (keywordCode k) = [keywordScalar k] := by decide
  show (drawn flags keywords c.numKeywords fun n => keywordCode (g.keyword n)).flatMap _ = _
  unfold drawn
  split
  · rw [List.map_map, List.flatMap_map]
    simp only [hcode]
    exact List.flatMap_pure_eq_map _ _
  · rfl

/-- Reading the bits of a number as a signed one changes it exactly from
2^63 on. -/
theorem toInt_eq_toNat_iff (x : BitVec 64) : x.toInt = x.toNat ↔ x.toNat < 2 ^ 63 := by
  have hlt := x.isLt
  rw [BitVec.toInt_eq_toNat_cond]
  split <;> omega

/-- The integers that are drawn are written as they are exactly if the kind is
not selected or they all fit into a signed number. -/
theorem drawn_toInt_iff (flags num : BitVec 64) (draw : ℕ → BitVec 64) :
    ((drawn flags ints num draw).map fun x => JsonScalar.int x.toInt)
        = ((drawn flags ints num draw).map fun x => JsonScalar.int x.toNat)
      ↔ ¬ Selected flags ints ∨ ∀ n < num.toNat, (draw n).toNat < 2 ^ 63 := by
  unfold drawn
  by_cases hsel : Selected flags ints
  · rw [if_pos hsel, or_iff_right (not_not_intro hsel), List.map_inj_left]
    simp only [JsonScalar.int.injEq, toInt_eq_toNat_iff, List.mem_map, List.mem_range,
      forall_exists_index, and_imp, forall_apply_eq_imp_iff₂]
  · rw [if_neg hsel]
    exact iff_of_true rfl (Or.inl hsel)

/-- **A first record says what was drawn exactly if its integers do.** -/
theorem saysDrawn_firstTree_iff (g : Generators) (c : Counts) (flags : BitVec 64) :
    SaysDrawn g c flags (firstTree (drawnValues g c flags))
      ↔ ¬ Selected flags ints ∨ ∀ n < c.numInts.toNat, (g.int n).toNat < 2 ^ 63 := by
  have hint : favorite (firstTree (drawnValues g c flags)) "integer_values"
      = some (scalars ((drawn flags ints c.numInts g.int).map fun x => .int x.toInt)) := rfl
  have hkey : favorite (firstTree (drawnValues g c flags)) "keywords_values"
      = some (scalars ((drawn flags keywords c.numKeywords g.keyword).map keywordScalar)) := by
    rw [← flatMap_keywordScalars]
    rfl
  rw [← drawn_toInt_iff]
  constructor
  · intro h
    exact scalars_inj.mp (Option.some.inj (hint.symm.trans h.integerValues))
  · intro h
    exact
      { bigText := rfl
        integerValues := by rw [hint, h]
        doubleValues := rfl
        keywordsValues := hkey
        bigText_empty := scalars_map_drawn_eq_nil_iff flags strings c.numStrings _ _
        integerValues_empty := by
          rw [hint]
          exact scalars_map_drawn_eq_nil_iff flags ints c.numInts _ _
        doubleValues_empty := scalars_map_drawn_eq_nil_iff flags floats c.numFloats _ _
        keywordsValues_empty := by
          rw [hkey]
          exact scalars_map_drawn_eq_nil_iff flags keywords c.numKeywords _ _ }

/-- **The first records say what was drawn exactly if there are none or no
integer of theirs has 2^63 in it**, for every run of `make_test_file` whose
loops end, any flags and any draws. -/
theorem makeTestFile_writesGenerated_iff (fuel : ℕ) (canCreate : Bool) (filename : String)
    (g : Generators) (c : Counts) (repeats flags : BitVec 64) (t : TestFile)
    (h : makeTestFile fuel canCreate filename g c repeats flags = some (.ok t)) :
    WritesGenerated g c flags t
      ↔ repeats = 0 ∨ ¬ Selected flags ints
        ∨ ∀ n < c.numInts.toNat, (g.int n).toNat < 2 ^ 63 := by
  have hrecords := firstRecords_of_makeTestFile h
  rw [← saysDrawn_firstTree_iff]
  unfold WritesGenerated
  rw [hrecords]
  by_cases hrepeats : repeats = 0
  · refine iff_of_true ⟨_, rfl, ?_⟩ (Or.inl hrepeats)
    rw [hrepeats]
    exact fun r hr => absurd hr (by simp [iterations])
  · have hiter : iterations 2#32 repeats.toNat ≠ 0 := by
      rw [Ne, iterations_eq_zero_iff (by decide)]
      exact fun hzero => hrepeats (BitVec.eq_of_toNat_eq hzero)
    rw [or_iff_right hrepeats]
    constructor
    · rintro ⟨rs, hrs, hall⟩
      obtain rfl := Option.some.inj hrs
      exact hall _ (List.mem_replicate.mpr ⟨hiter, rfl⟩)
    · intro hsays
      refine ⟨_, rfl, fun r hr => ?_⟩
      rw [List.eq_of_mem_replicate hr]
      exact hsays

/-- One small integer, for two records. -/
theorem makeTestFile_writesGenerated_small :
    ∃ t, makeTestFile 3 true "data.json" ⟨fun _ => 0, fun _ => 7, fun _ => 2⟩ ⟨1, 0, 0, 0⟩ 2 ints
        = some (.ok t) ∧
      WritesGenerated ⟨fun _ => 0, fun _ => 7, fun _ => 2⟩ ⟨1, 0, 0, 0⟩ ints t :=
  let t : TestFile := ⟨false, firstRecord ⟨[], [], [7], []⟩, secondRecord⟩
  have hsmall : (7#64).toNat < 2 ^ 63 := by decide
  ⟨t, rfl, (makeTestFile_writesGenerated_iff 3 true "data.json"
    ⟨fun _ => 0, fun _ => 7, fun _ => 2⟩ ⟨1, 0, 0, 0⟩ 2 ints t rfl).mpr
      (Or.inr (Or.inr fun _ _ => hsmall))⟩

/-- **The largest integer is written as -1.** -/
theorem largestInt_not_written :
    ∃ t, makeTestFile 3 true "data.json" ⟨fun _ => 0, fun _ => 18446744073709551615, fun _ => 2⟩
        ⟨1, 0, 0, 0⟩ 2 ints = some (.ok t) ∧
      ¬ WritesGenerated ⟨fun _ => 0, fun _ => 18446744073709551615, fun _ => 2⟩ ⟨1, 0, 0, 0⟩
        ints t := by
  refine ⟨⟨false, firstRecord ⟨[], [], [18446744073709551615], []⟩, secondRecord⟩, rfl, ?_⟩
  rintro ⟨rs, hrs, hall⟩
  obtain rfl : rs = [firstTree ⟨[], [], [18446744073709551615], []⟩] :=
    (Option.some.inj hrs).symm
  have hint := (hall _ (List.mem_singleton.mpr rfl)).integerValues
  have heq := scalars_inj.mp (Option.some.inj hint)
  exact absurd heq (by decide)

end JsonBenchmarks
