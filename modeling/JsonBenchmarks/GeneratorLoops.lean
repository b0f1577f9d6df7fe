import JsonBenchmarks.GeneratedValues

/-!
# How often the loops of the generator run

`make_test_file` is asked for numbers of 64 bits, and counts to them in 32.
The loops that draw values count in ones, so their numbers must be below 2^32;
the two record loops count in twos, so theirs must not exceed 2^32 - 2. Beyond
these bounds the counter comes back to zero and the loop does not end
(`loopsEnd_iff`). Only a vector that is reserved, and for more values than it
may have, is refused before (`exists_generate_eq_error_iff`).

Counting in twos has another effect. Each record loop writes one record for
every two that were asked for, rounded up, so the two together write one too
many whenever the number is odd (`writeRecords_honoursCount_iff`).
-/

namespace JsonBenchmarks

open CountedLoop FallibleRuns JsonEvents DataGeneratorMode

/-! ## The number of records -/

/-- The documents of the second record loop. -/
def TestFile.secondRecords (t : TestFile) : Option (List Json) :=
  match denote ([.beginArray] ++ t.secondLoop ++ [.endArray]) with
  | some (.array rs) => some rs
  | _ => none

/-- **A file has as many records as were asked for**: the root contains those
of the two loops, and together they are `repeats`. -/
def HonoursCount (repeats : BitVec 64) (t : TestFile) : Prop :=
  ∃ first second, t.firstRecords = some first ∧ t.secondRecords = some second ∧
    denote t.events = some (.array (first ++ second)) ∧
    (first ++ second).length = repeats.toNat ∧ first.length + second.length = repeats.toNat

/-- Two loops that count in twos run as often as one that counts in ones
exactly if their bound is even. -/
theorem iterations_two_add_self_iff (n : ℕ) :
    iterations 2#32 n + iterations 2#32 n = n ↔ Even n := by
  have htwo : iterations 2#32 n = (n + 2 - 1) / 2 := rfl
  rw [htwo, Nat.even_iff]
  omega

/-- The records of a file that was written, loop by loop. -/
theorem records_of_writeRecords {fuel : ℕ} {flags repeats : BitVec 64} {v : GeneratedValues}
    {t : TestFile} (h : writeRecords fuel flags v repeats = some t) :
    t.firstRecords = some (List.replicate (iterations 2#32 repeats.toNat) (firstTree v)) ∧
      t.secondRecords = some (List.replicate (iterations 2#32 repeats.toNat) secondTree) := by
  obtain ⟨hfirst, hsecond⟩ := writeRecords_eq_some h
  unfold TestFile.firstRecords
  rw [TestFile.secondRecords, hfirst, hsecond,
    denote_replicate (nodupKeys_firstTree v), denote_replicate nodupKeys_secondTree]
  exact ⟨rfl, rfl⟩

/-- **A file has as many records as were asked for exactly if the number is
even**, for all flags and all values, whenever the record loops end. -/
theorem writeRecords_honoursCount_iff (fuel : ℕ) (flags : BitVec 64) (v : GeneratedValues)
    (repeats : BitVec 64) (t : TestFile) (h : writeRecords fuel flags v repeats = some t) :
    HonoursCount repeats t ↔ Even repeats.toNat := by
  obtain ⟨hfirst, hsecond⟩ := records_of_writeRecords h
  rw [← iterations_two_add_self_iff]
  constructor
  · rintro ⟨first, second, hfirst', hsecond', -, -, hcount⟩
    obtain rfl := Option.some.inj (hfirst.symm.trans hfirst')
    obtain rfl := Option.some.inj (hsecond.symm.trans hsecond')
    rw [List.length_replicate, List.length_replicate] at hcount
    exact hcount
  · intro hcount
    refine ⟨_, _, hfirst, hsecond, denote_events_of_writeRecords h, ?_, ?_⟩
    · rw [List.length_append, List.length_replicate, List.length_replicate]
      exact hcount
    · rw [List.length_replicate, List.length_replicate]
      exact hcount

/-- Two records, one of each kind. -/
theorem writeRecords_honoursCount_two :
    ∃ t, writeRecords 2 ints ⟨[], [], [7], []⟩ 2 = some t ∧ HonoursCount 2 t :=
  let t : TestFile := ⟨false, firstRecord ⟨[], [], [7], []⟩, secondRecord⟩
  ⟨t, rfl, (writeRecords_honoursCount_iff 2 ints ⟨[], [], [7], []⟩ 2 t rfl).mpr (by decide)⟩

/-- **Three records are four.** -/
theorem threeRecords_not_honoured :
    ∃ t, writeRecords 3 ints ⟨[], [], [7], []⟩ 3 = some t ∧ ¬ HonoursCount 3 t := by
  have hwrite : writeRecords 3 ints ⟨[], [], [7], []⟩ 3
      = some ⟨false, firstRecord ⟨[], [], [7], []⟩ ++ firstRecord ⟨[], [], [7], []⟩,
        secondRecord ++ secondRecord⟩ := rfl
  refine ⟨_, hwrite, ?_⟩
  rintro ⟨first, second, hfirst, hsecond, -, -, hcount⟩
  obtain ⟨hfirst', hsecond'⟩ := records_of_writeRecords hwrite
  obtain rfl := Option.some.inj (hfirst'.symm.trans hfirst)
  obtain rfl := Option.some.inj (hsecond'.symm.trans hsecond)
  exact absurd hcount (by decide)

/-! ## When the loops end -/

/-- **Every loop ends**, given time, and each loop that draws values has drawn
as many as it should if its kind is selected. -/
def LoopsEnd (filename : String) (g : Generators) (c : Counts) (repeats flags : BitVec 64) :
    Prop :=
  ∃ fuel v t, generate fuel g c flags = some (.ok v) ∧
    makeTestFile fuel true filename g c repeats flags = some (.ok t) ∧
    (Selected flags strings → v.stringValues.length = c.numStrings.toNat) ∧
    (Selected flags floats → v.doubleValues.length = c.numFloats.toNat) ∧
    (Selected flags ints → v.integerValues.length = c.numInts.toNat) ∧
    (Selected flags keywords → v.keywordsValues.length = c.numKeywords.toNat)

/-- **Every bound can be reached**: the number of values of a kind that is
selected by a counter of 32 bits, and the number of records by one that counts
in twos. -/
def Reachable (c : Counts) (repeats flags : BitVec 64) : Prop :=
  (Selected flags strings → c.numStrings.toNat < 2 ^ 32) ∧
    (Selected flags floats → c.numFloats.toNat < 2 ^ 32) ∧
    (Selected flags ints → c.numInts.toNat < 2 ^ 32) ∧
    (Selected flags keywords → c.numKeywords.toNat < 2 ^ 32) ∧
    repeats.toNat ≤ 2 ^ 32 - 2

/-- When a record loop ends. -/
theorem exists_recordLoop_iff (fuel : ℕ) (repeats : BitVec 64) (record : List HandlerEvent) :
    (∃ es, recordLoop fuel repeats record = some es)
      ↔ repeats.toNat ≤ 2 ^ 32 - 2 ∧ iterations 2#32 repeats.toNat < fuel := by
  have hbound : repeats.toNat + (2#32).toNat ≤ 2 ^ 32 ↔ repeats.toNat ≤ 2 ^ 32 - 2 :=
    (Nat.le_sub_iff_add_le (by decide)).symm
  have hpos : 0 < (2#32).toNat := by decide
  have hdvd : (2#32).toNat ∣ 2 ^ 32 := by decide
  simp only [recordLoop, countedLoop_eq_some_iff hpos hdvd, hbound, exists_and_left, exists_eq',
    and_true]

/-- The two record loops end together. -/
theorem exists_writeRecords_iff (fuel : ℕ) (flags : BitVec 64) (v : GeneratedValues)
    (repeats : BitVec 64) :
    (∃ t, writeRecords fuel flags v repeats = some t)
      ↔ repeats.toNat ≤ 2 ^ 32 - 2 ∧ iterations 2#32 repeats.toNat < fuel := by
  constructor
  · rintro ⟨t, h⟩
    obtain ⟨first, hfirst, -⟩ := Option.bind_eq_some_iff.mp h
    exact (exists_recordLoop_iff fuel repeats (firstRecord v)).mp ⟨first, hfirst⟩
  · intro h
    obtain ⟨first, hfirst⟩ := (exists_recordLoop_iff fuel repeats (firstRecord v)).mpr h
    obtain ⟨second, hsecond⟩ := (exists_recordLoop_iff fuel repeats secondRecord).mpr h
    exact ⟨_, by rw [writeRecords, hfirst, hsecond]; rfl⟩

/-- As many values are drawn as should be. -/
theorem length_drawn {α : Type} {flags kind : BitVec 64} (hsel : Selected flags kind)
    (num : BitVec 64) (draw : ℕ → α) : (drawn flags kind num draw).length = num.toNat := by
  unfold drawn
  rw [if_pos hsel, List.length_map, List.length_range]

/-- **If every bound can be reached then the file is made**, given time. -/
theorem exists_makeTestFile_of_reachable {c : Counts} {repeats flags : BitVec 64}
    (h : Reachable c repeats flags) (filename : String) (g : Generators) {fuel : ℕ}
    (hfuel : 2 ^ 32 ≤ fuel) :
    generate fuel g c flags = some (.ok (drawnValues g c flags)) ∧
      ∃ t, makeTestFile fuel true filename g c repeats flags = some (.ok t) := by
  obtain ⟨hss, hds, his, hks, hrepeats⟩ := h
  -- no counter takes more values than there are
  have hrounds : iterations 2#32 repeats.toNat < fuel := by
    have htwo : iterations 2#32 repeats.toNat = (repeats.toNat + 2 - 1) / 2 := rfl
    rw [htwo]
    omega
  have hv : generate fuel g c flags = some (.ok (drawnValues g c flags)) :=
    generate_eq_ok_iff.mpr ⟨⟨fun h => ⟨hss h, (hss h).trans_le hfuel⟩,
      fun h => ⟨hds h, (hds h).trans_le hfuel⟩, fun h => ⟨his h, (his h).trans_le hfuel⟩,
      fun h => ⟨hks h, (hks h).trans_le hfuel⟩⟩, rfl⟩
  obtain ⟨t, ht⟩ := (exists_writeRecords_iff fuel flags (drawnValues g c flags) repeats).mpr
    ⟨hrepeats, hrounds⟩
  exact ⟨hv, t, makeTestFile_eq_ok_iff.mpr ⟨_, hv, ht⟩⟩

/-- **Every loop of `make_test_file` ends exactly if every bound can be
reached**, for all arguments, flags and draws. -/
theorem loopsEnd_iff (filename : String) (g : Generators) (c : Counts)
    (repeats flags : BitVec 64) :
    LoopsEnd filename g c repeats flags ↔ Reachable c repeats flags := by
  constructor
  · rintro ⟨fuel, v, t, hv, ht, -⟩
    obtain ⟨⟨hss, hds, his, hks⟩, -⟩ := generate_eq_ok_iff.mp hv
    obtain ⟨v', -, ht⟩ := makeTestFile_eq_ok_iff.mp ht
    have hrecords := (exists_writeRecords_iff fuel flags v' repeats).mp ⟨t, ht⟩
    exact ⟨fun h => (hss h).1, fun h => (hds h).1, fun h => (his h).1, fun h => (hks h).1,
      hrecords.1⟩
  · intro h
    obtain ⟨hv, t, ht⟩ := exists_makeTestFile_of_reachable h filename g le_rfl
    exact ⟨2 ^ 32, _, t, hv, ht, fun h => length_drawn h _ _, fun h => length_drawn h _ _,
      fun h => length_drawn h _ _, fun h => length_drawn h _ _⟩

/-- **A record loop that cannot reach its bound**: the counter goes from
2^32 - 2 back to zero. -/
theorem oddBound_not_reached :
    ¬ LoopsEnd "data/output/testdata.json" ⟨fun _ => 0, fun _ => 7, fun _ => 2⟩ ⟨1, 0, 0, 0⟩
        4294967295 ints := by
  rintro ⟨fuel, v, t, -, ht, -⟩
  obtain ⟨v', -, ht⟩ := makeTestFile_eq_ok_iff.mp ht
  exact absurd ((exists_writeRecords_iff fuel ints v' 4294967295).mp ⟨t, ht⟩).1 (by decide)

/-! ## When a vector is refused -/

/-- A kind is selected of which there are to be more values than a vector may
have. -/
def Refused (flags kind : BitVec 64) (bytes : ℕ) (num : BitVec 64) : Prop :=
  Selected flags kind ∧ maxSize bytes < num.toNat

/-- **A vector is refused that is asked for**: all loops before it can reach
their bounds. There is no reservation for the strings. -/
def Overflows (c : Counts) (flags : BitVec 64) : Prop :=
  (Selected flags strings → c.numStrings.toNat < 2 ^ 32) ∧
    (Refused flags floats 8 c.numFloats ∨
      (Selected flags floats → c.numFloats.toNat < 2 ^ 32) ∧
        (Refused flags ints 8 c.numInts ∨
          (Selected flags ints → c.numInts.toNat < 2 ^ 32) ∧
            Refused flags keywords 1 c.numKeywords))

/-- The loop behind a reservation throws if the reservation does, or what
follows them. -/
theorem run_reserved_eq_error_iff {α β : Type} {fuel : ℕ} {flags num : BitVec 64} {draw : ℕ → α}
    {f : List α → ExceptT String Option β} {what : String} (bytes : ℕ) (kind : BitVec 64)
    (h : bytes ∈ [1, 8] ∧ (ints ||| floats ||| strings ||| keywords) &&& kind ≠ 0) :
    (do ofExcept (reserveKind flags kind bytes num)
        let vs ← ExceptT.lift (fillKind fuel flags kind num draw)
        f vs : ExceptT String Option β).run = some (.error what)
      ↔ Refused flags kind bytes num ∧ "vector::reserve" = what ∨
        (Selected flags kind → num.toNat < 2 ^ 32 ∧ num.toNat < fuel) ∧
          (f (drawn flags kind num draw)).run = some (.error what) := by
  rw [run_bind_eq_error_iff, run_ofExcept, Option.some.injEq, reserveKind_eq_error_iff h.2]
  refine or_congr Iff.rfl ?_
  simp only [run_bind_eq_error_iff, run_lift_ne_error, run_lift_eq_ok_iff,
    fillKind_eq_some_iff h.2, false_or]
  constructor
  · rintro ⟨-, -, vs, ⟨hbound, rfl⟩, hf⟩
    exact ⟨hbound, hf⟩
  · rintro ⟨hbound, hf⟩
    exact ⟨(), congrArg some (reserveKind_eq_ok h.1 h.2 fun hsel => (hbound hsel).1),
      _, ⟨hbound, rfl⟩, hf⟩

/-- **When a vector is refused**, given time. -/
theorem exists_generate_eq_error_iff (g : Generators) (c : Counts) (flags : BitVec 64)
    (what : String) :
    (∃ fuel, generate fuel g c flags = some (.error what)) ↔
      Overflows c flags ∧ "vector::reserve" = what := by
  have hreturn : ∀ v : GeneratedValues,
      (pure v : ExceptT String Option GeneratedValues).run ≠ some (.error what) :=
    fun v h => nomatch Option.some.inj h
  have hgenerate : ∀ fuel, generate fuel g c flags = some (.error what) ↔
      (Selected flags strings → c.numStrings.toNat < 2 ^ 32 ∧ c.numStrings.toNat < fuel) ∧
        (Refused flags floats 8 c.numFloats ∧ "vector::reserve" = what ∨
          (Selected flags floats → c.numFloats.toNat < 2 ^ 32 ∧ c.numFloats.toNat < fuel) ∧
            (Refused flags ints 8 c.numInts ∧ "vector::reserve" = what ∨
              (Selected flags ints → c.numInts.toNat < 2 ^ 32 ∧ c.numInts.toNat < fuel) ∧
                Refused flags keywords 1 c.numKeywords ∧ "vector::reserve" = what)) := by
    intro fuel
    have hstrings : ∀ ss, (ExceptT.lift (fillKind fuel flags strings c.numStrings
        fun _ => catsLikeMice) : ExceptT String Option (List String)).run = some (.ok ss) ↔
          (Selected flags strings → c.numStrings.toNat < 2 ^ 32 ∧ c.numStrings.toNat < fuel) ∧
            drawn flags strings c.numStrings (fun _ => catsLikeMice) = ss :=
      fun ss => run_lift_eq_ok_iff.trans (fillKind_eq_some_iff (by decide))
    unfold generate
    rw [run_bind_eq_error_iff, or_iff_right run_lift_ne_error]
    simp only [hstrings, run_reserved_eq_error_iff 8 floats (by decide),
      run_reserved_eq_error_iff 8 ints (by decide),
      run_reserved_eq_error_iff 1 keywords (by decide), hreturn, and_false, or_false]
    exact ⟨fun ⟨_, ⟨hss, _⟩, h⟩ => ⟨hss, h⟩, fun ⟨hss, h⟩ => ⟨_, ⟨hss, rfl⟩, h⟩⟩
  simp only [hgenerate, Overflows]
  constructor
  · rintro ⟨fuel, hss, ⟨hds, rfl⟩ | ⟨hds, ⟨his, rfl⟩ | ⟨his, hks, rfl⟩⟩⟩
    · exact ⟨⟨fun h => (hss h).1, Or.inl hds⟩, rfl⟩
    · exact ⟨⟨fun h => (hss h).1, Or.inr ⟨fun h => (hds h).1, Or.inl his⟩⟩, rfl⟩
    · exact ⟨⟨fun h => (hss h).1, Or.inr ⟨fun h => (hds h).1,
        Or.inr ⟨fun h => (his h).1, hks⟩⟩⟩, rfl⟩
  · -- no counter takes more values than there are
    have hfuel : ∀ {kind num : BitVec 64}, (Selected flags kind → num.toNat < 2 ^ 32) →
        Selected flags kind → num.toNat < 2 ^ 32 ∧ num.toNat < 2 ^ 32 :=
      fun h hsel => ⟨h hsel, h hsel⟩
    rintro ⟨⟨hss, hds | ⟨hds, his | ⟨his, hks⟩⟩⟩, rfl⟩
    · exact ⟨2 ^ 32, hfuel hss, Or.inl ⟨hds, rfl⟩⟩
    · exact ⟨2 ^ 32, hfuel hss, Or.inr ⟨hfuel hds, Or.inl ⟨his, rfl⟩⟩⟩
    · exact ⟨2 ^ 32, hfuel hss, Or.inr ⟨hfuel hds, Or.inr ⟨hfuel his, hks, rfl⟩⟩⟩

end JsonBenchmarks
