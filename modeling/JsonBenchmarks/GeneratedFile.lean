import JsonBenchmarks.DataGenerator

/-!
# The generated file is a document

`firstTree` and `secondTree` are the documents that the two bodies write, and
the calls of a body are the events of its document (`firstRecord_eq`,
`secondRecord_eq`). A loop that ends repeats them, so the whole file is the
array of these documents. It is well formed for all values and all flags, and
the encoder that the flags choose is told the same (`writeRecords_wellFormed`).
-/

namespace JsonBenchmarks

open CountedLoop JsonEvents DataGeneratorMode Handler

/-! ## The documents -/

/-- The keyword that a code stands for, if any. -/
def keywordScalars (x : UInt8) : List JsonScalar :=
  (if x = 0 then [.bool true] else [])
    ++ (if x = 1 then [.bool false] else [])
    ++ (if x = 2 then [.null] else [])

/-- An array of scalars. -/
def scalars (ss : List JsonScalar) : Json := .array (ss.map .scalar)

/-- **The document of a first record.** -/
def firstTree (v : GeneratedValues) : Json :=
  .object [("person", .object [
    ("first_name", .scalar (.string "John")),
    ("last_name", .scalar (.string "Doe")),
    ("birthdate", .scalar (.string "1998-05-13")),
    ("sex", .scalar (.string "m")),
    ("salary", .scalar (.int 70000)),
    ("married", .scalar (.bool false)),
    ("interests", scalars [.string "Reading", .string "Mountain biking", .string "Hacking"]),
    ("favorites", .object [
      ("color", .scalar (.string "blue")),
      ("sport", .scalar (.string "soccer")),
      ("food", .scalar (.string "spaghetti")),
      ("big_text", scalars (v.stringValues.map .string)),
      ("integer_values", scalars (v.integerValues.map fun x => .int x.toInt)),
      ("double_values", scalars (v.doubleValues.map .double)),
      ("keywords_values", scalars (v.keywordsValues.flatMap keywordScalars))])])]

/-- **The document of a second record.** -/
def secondTree : Json :=
  .object [("person", .object [
    ("first_name", .scalar (.string "jane")),
    ("last_name", .scalar (.string "doe")),
    ("birthdate", .scalar (.string "1998-05-13")),
    ("sex", .scalar (.string "f")),
    ("salary", .scalar (.int 80000)),
    ("married", .scalar (.bool true)),
    ("pets", .scalar .null),
    ("interests", scalars [.string "Skiing", .string "Hiking", .string "Camoing"]),
    ("favorites", .object [
      ("color", .scalar (.string "Red")),
      ("sport", .scalar (.string "skiing")),
      ("food", .scalar (.string "risotto"))])])]

theorem map_scalar_keywordScalars (xs : List UInt8) :
    xs.flatMap writeKeyword = ((xs.flatMap keywordScalars).map .scalar : List HandlerEvent) := by
  rw [List.map_flatMap]
  refine congrArg (fun f => xs.flatMap f) (funext fun x => ?_)
  rw [keywordScalars, List.map_append, List.map_append, writeKeyword]
  split <;> split <;> split <;> rfl

/-- The events of an array of scalars. -/
theorem events_scalars (ss : List JsonScalar) :
    (scalars ss).events = .beginArray :: (ss.map .scalar ++ [.endArray]) := by
  rw [scalars, JsonTree.events, JsonTree.eventsList_map_scalar]

theorem nodupKeys_scalars (ss : List JsonScalar) : (scalars ss).NodupKeys := by
  show JsonTree.NodupKeysList _
  rw [JsonTree.nodupKeysList_iff]
  intro x hx
  obtain ⟨s, -, rfl⟩ := List.mem_map.mp hx
  exact trivial

/-- **The calls of the first body are the events of its document.** -/
theorem firstRecord_eq (v : GeneratedValues) : firstRecord v = (firstTree v).events := by
  unfold firstTree firstRecord
  simp only [JsonTree.events, JsonTree.eventsMembers, events_scalars, map_scalar_keywordScalars,
    List.map_map, List.append_assoc, List.cons_append, List.nil_append, List.append_nil]
  rfl

/-- **The calls of the second body are the events of its document.** -/
theorem secondRecord_eq : secondRecord = secondTree.events := by
  rfl

theorem nodupKeys_firstTree (v : GeneratedValues) : (firstTree v).NodupKeys := by
  simp [firstTree, JsonTree.NodupKeys, JsonTree.NodupKeysMembers, nodupKeys_scalars]

theorem nodupKeys_secondTree : secondTree.NodupKeys := by
  simp [secondTree, JsonTree.NodupKeys, JsonTree.NodupKeysMembers, nodupKeys_scalars]

/-! ## Well-formedness -/

theorem iterate_append {α : Type} (es : List α) (n : ℕ) :
    (fun acc => acc ++ es)^[n] [] = (List.replicate n es).flatten := by
  induction n with
  | zero => rfl
  | succ n ih =>
    rw [Function.iterate_succ_apply', ih, List.replicate_succ', List.flatten_append,
      List.flatten_singleton]

theorem eventsList_replicate (t : Json) (n : ℕ) :
    JsonTree.eventsList (List.replicate n t) = (List.replicate n t.events).flatten := by
  induction n with
  | zero => rfl
  | succ n ih =>
    rw [List.replicate_succ, List.replicate_succ, JsonTree.eventsList, ih, List.flatten_cons]

/-- **A record loop that ends writes its document over and over.** -/
theorem recordLoop_eq_some {fuel : ℕ} {repeats : BitVec 64} {t : Json} {es : List HandlerEvent}
    (h : recordLoop fuel repeats t.events = some es) :
    es = JsonTree.eventsList (List.replicate (iterations 2#32 repeats.toNat) t) := by
  rw [recordLoop, countedLoop_eq_some_iff (by decide) (by decide)] at h
  rw [← h.2.2, iterate_append, eventsList_replicate]

/-- The two record loops of a file that was written. -/
theorem writeRecords_eq_some {fuel : ℕ} {flags repeats : BitVec 64} {v : GeneratedValues}
    {t : TestFile} (h : writeRecords fuel flags v repeats = some t) :
    t.firstLoop = JsonTree.eventsList
        (List.replicate (iterations 2#32 repeats.toNat) (firstTree v)) ∧
      t.secondLoop = JsonTree.eventsList
        (List.replicate (iterations 2#32 repeats.toNat) secondTree) := by
  rw [writeRecords, firstRecord_eq, secondRecord_eq] at h
  obtain ⟨first, hfirst, h⟩ := Option.bind_eq_some_iff.mp h
  obtain ⟨second, hsecond, h⟩ := Option.bind_eq_some_iff.mp h
  obtain rfl := Option.some.inj h
  exact ⟨recordLoop_eq_some hfirst, recordLoop_eq_some hsecond⟩

/-- An array of documents in which no key occurs twice is denoted by its
events. -/
theorem denote_array {rs : List Json} (hrs : ∀ r ∈ rs, r.NodupKeys) :
    denote (.beginArray :: (JsonTree.eventsList rs ++ [.endArray])) = some (.array rs) :=
  denote_events (.array rs) ((JsonTree.nodupKeysList_iff rs).mpr hrs)

/-- **The document of a file that was written**: its first records, and then
its second ones. -/
theorem denote_events_of_writeRecords {fuel : ℕ} {flags repeats : BitVec 64}
    {v : GeneratedValues} {t : TestFile} (h : writeRecords fuel flags v repeats = some t) :
    denote t.events = some (.array
      (List.replicate (iterations 2#32 repeats.toNat) (firstTree v)
        ++ List.replicate (iterations 2#32 repeats.toNat) secondTree)) := by
  obtain ⟨hfirst, hsecond⟩ := writeRecords_eq_some h
  rw [TestFile.events, hfirst, hsecond, List.append_assoc [_], ← JsonTree.eventsList_append]
  refine denote_array (fun r hr => ?_)
  rcases List.mem_append.mp hr with hr | hr
  · rw [List.eq_of_mem_replicate hr]
    exact nodupKeys_firstTree v
  · rw [List.eq_of_mem_replicate hr]
    exact nodupKeys_secondTree

/-- Toggling bits that a mask does not have is not seen through the mask. -/
theorem xor_and_of_and_eq_zero {a c k : BitVec 64} (h : c &&& k = 0#64) :
    (a ^^^ c) &&& k = a &&& k := by
  ext i hi
  have hbit : (c &&& k)[i] = (0#64)[i] := by rw [h]
  rw [BitVec.getElem_and, BitVec.getElem_zero] at hbit
  rw [BitVec.getElem_and, BitVec.getElem_and, BitVec.getElem_xor, Bool.and_xor_distrib_right,
    hbit, Bool.xor_false]

/-- A kind is selected with the bit for the compact encoder exactly if it is
without. -/
theorem localFlags_xor_compacted (flags : BitVec 64) {kind : BitVec 64}
    (hkind : compacted &&& kind = 0#64) :
    localFlags (flags ^^^ compacted) &&& kind = localFlags flags &&& kind := by
  have hmixed : (flags ^^^ compacted) &&& mixed = flags &&& mixed :=
    xor_and_of_and_eq_zero (by decide)
  unfold localFlags
  rw [hmixed]
  split
  · rfl
  · exact xor_and_of_and_eq_zero hkind

/-- So the same is done for it. -/
theorem fillKind_xor_compacted {α : Type} (fuel : ℕ) (flags num : BitVec 64) {kind : BitVec 64}
    (draw : ℕ → α) (hkind : compacted &&& kind = 0#64) :
    fillKind fuel (flags ^^^ compacted) kind num draw = fillKind fuel flags kind num draw := by
  rw [fillKind, localFlags_xor_compacted flags hkind, fillKind]

theorem reserveKind_xor_compacted (flags kind num : BitVec 64) (bytes : ℕ)
    (hkind : compacted &&& kind = 0#64) :
    reserveKind (flags ^^^ compacted) kind bytes num = reserveKind flags kind bytes num := by
  rw [reserveKind, localFlags_xor_compacted flags hkind, reserveKind]

/-- The values that are generated do not depend on the encoder. -/
theorem generate_xor_compacted (fuel : ℕ) (g : Generators) (c : Counts) (flags : BitVec 64) :
    generate fuel g c (flags ^^^ compacted) = generate fuel g c flags := by
  unfold generate
  rw [reserveKind_xor_compacted flags floats c.numFloats 8 (by decide),
    reserveKind_xor_compacted flags ints c.numInts 8 (by decide),
    reserveKind_xor_compacted flags keywords c.numKeywords 1 (by decide),
    fillKind_xor_compacted fuel flags _ _ (by decide),
    fillKind_xor_compacted fuel flags _ _ (by decide),
    fillKind_xor_compacted fuel flags _ _ (by decide),
    fillKind_xor_compacted fuel flags _ _ (by decide)]

/-- **A file that is written is well formed, and its events do not depend on
the encoder**: for any flags and any values, the events are those of one array,
and toggling the bit for the compact encoder changes neither them nor the
values that are generated. -/
theorem writeRecords_wellFormed (fuel : ℕ) (flags : BitVec 64) (v : GeneratedValues)
    (repeats : BitVec 64) (t : TestFile) (h : writeRecords fuel flags v repeats = some t) :
    (∃ rs, denote t.events = some (.array rs)) ∧
      (∃ t', writeRecords fuel (flags ^^^ compacted) v repeats = some t' ∧
        t'.events = t.events) ∧
      ∀ fuel' g c, generate fuel' g c (flags ^^^ compacted) = generate fuel' g c flags := by
  refine ⟨?_, ?_, fun fuel' g c => generate_xor_compacted fuel' g c flags⟩
  · exact ⟨_, denote_events_of_writeRecords h⟩
  · obtain ⟨first, hfirst, h⟩ := Option.bind_eq_some_iff.mp h
    obtain ⟨second, hsecond, h⟩ := Option.bind_eq_some_iff.mp h
    obtain rfl := Option.some.inj h
    exact ⟨⟨(flags ^^^ compacted) &&& compacted != 0, first, second⟩,
      by rw [writeRecords, hfirst, hsecond]; rfl, rfl⟩

/-- One value of each kind, for an odd number of records. -/
theorem writeRecords_wellFormed_three :
    ∃ t, writeRecords 3 mixed ⟨["a"], [0], [7], [2]⟩ 3 = some t ∧
      ∃ rs, denote t.events = some (.array rs) :=
  let t : TestFile := ⟨false, firstRecord ⟨["a"], [0], [7], [2]⟩
    ++ firstRecord ⟨["a"], [0], [7], [2]⟩, secondRecord ++ secondRecord⟩
  ⟨t, rfl, (writeRecords_wellFormed 3 mixed ⟨["a"], [0], [7], [2]⟩ 3 t rfl).1⟩

end JsonBenchmarks
