import JsonBenchmarks.StdStrings

/-!
# The option that selects the mode

The driver's first option names the mode in which the test data is generated.
Three pieces of code know the names: the validator accepts an argument, the
converter stores a mode for it, and `operator<<` prints the mode that was
stored. All three read one table, but not in the same way. The validator
compares no more characters than the argument has, and with all seven entries;
the converter compares whole strings, and with the first five.

An argument is therefore accepted as soon as it *begins* a name, and what is
not one of the first five names is stored as the sixth. The three agree on the
six names and on what the validator rejects, and nowhere else
(`roundTrips_iff`).
-/

namespace JsonBenchmarks

open StdStrings

namespace DataGeneratorMode

/-- `e_data_generator_mode::k_e`. -/
inductive KE
  | ints
  | floats
  | strings
  | keywords
  | mixed
  | smallfile
  | compacted
deriving DecidableEq

end DataGeneratorMode

open DataGeneratorMode (KE)

/-- `s_data_generator_mode`. -/
def sDataGeneratorMode : Vector String 7 :=
  #v["ints", "floats", "strings", "keywords", "mixed", "smallfile", "compacted"]

/-- `operator<<`. -/
def DataGeneratorMode.KE.print : KE → String
  | .ints => sDataGeneratorMode[0]
  | .floats => sDataGeneratorMode[1]
  | .strings => sDataGeneratorMode[2]
  | .keywords => sDataGeneratorMode[3]
  | .mixed => sDataGeneratorMode[4]
  | .smallfile => sDataGeneratorMode[5]
  | .compacted => sDataGeneratorMode[6]

/-- The names of the modes that exclude one another: all but the entry for the
bit that is added to them. -/
def modeNames : List String :=
  ["ints", "floats", "strings", "keywords", "mixed", "smallfile"]

/-- `kwords::mode`'s `validator_`. -/
def modeValidator (str : String) : Bool :=
  sDataGeneratorMode.toList.any fun it =>
    decide (strncmp it.toList str.toList str.toList.length = 0)

/-- `kwords::mode`'s `converter_`. -/
def modeConverter (s : String) : KE :=
  if s = sDataGeneratorMode[0] then .ints
  else if s = sDataGeneratorMode[1] then .floats
  else if s = sDataGeneratorMode[2] then .strings
  else if s = sDataGeneratorMode[3] then .keywords
  else if s = sDataGeneratorMode[4] then .mixed
  else .smallfile

/-- **The mode that an accepted argument selects is called like the argument**,
and all arguments that are called like a mode are accepted. -/
def RoundTrips (s : String) : Prop :=
  modeValidator s = true ↔ (modeConverter s).print = s

/-! ## What the converter does -/

/-- The converter stores one of the six modes. -/
theorem print_modeConverter_mem (s : String) : (modeConverter s).print ∈ modeNames := by
  unfold modeConverter
  repeat' split
  all_goals simp [KE.print, sDataGeneratorMode, modeNames]

/-- **The strings that the converter maps to themselves** are the six names. -/
theorem print_modeConverter_eq_iff (s : String) :
    (modeConverter s).print = s ↔ s ∈ modeNames := by
  constructor
  · intro h
    rw [← h]
    exact print_modeConverter_mem s
  · intro h
    simp only [modeNames, List.mem_cons, List.not_mem_nil, or_false] at h
    rcases h with rfl | rfl | rfl | rfl | rfl | rfl <;> rfl

/-! ## What the validator accepts -/

/-- No name has a NUL in it. -/
theorem nul_notMem : ∀ name ∈ sDataGeneratorMode.toList, '\x00' ∉ name.toList := by
  simp [sDataGeneratorMode]

/-- **The validator accepts what begins a name**. -/
theorem modeValidator_iff (s : String) :
    modeValidator s = true ↔
      ∃ name ∈ sDataGeneratorMode.toList, Comparable name.toList s.toList := by
  unfold modeValidator
  rw [List.any_eq_true]
  refine exists_congr fun name => and_congr_right fun hname => ?_
  rw [decide_eq_true_eq, strncmp_length_eq_zero_iff (nul_notMem name hname)]

/-- A name is accepted. -/
theorem modeValidator_of_mem {s : String} (h : s ∈ modeNames) : modeValidator s = true :=
  have htable : s ∈ sDataGeneratorMode.toList :=
    (List.prefix_append modeNames ["compacted"]).subset h
  (modeValidator_iff s).mpr ⟨s, htable, Or.inl (List.prefix_append _ _)⟩

/-! ## Where the three agree -/

/-- **The option round-trips exactly for the six names and for what does not
begin any entry of the table**, for every string. -/
theorem roundTrips_iff (s : String) :
    RoundTrips s ↔
      s ∈ modeNames ∨ ∀ name ∈ sDataGeneratorMode.toList, ¬ Comparable name.toList s.toList := by
  have hrejected : (∀ name ∈ sDataGeneratorMode.toList, ¬ Comparable name.toList s.toList)
      ↔ ¬ modeValidator s = true := by
    rw [modeValidator_iff]
    exact (not_exists.trans (forall_congr' fun _ => not_and)).symm
  unfold RoundTrips
  rw [print_modeConverter_eq_iff, hrejected]
  constructor
  · intro h
    rw [h]
    exact Classical.em _
  · rintro (hname | hrejects)
    · exact iff_of_true (modeValidator_of_mem hname) hname
    · exact iff_of_false hrejects fun hname => hrejects (modeValidator_of_mem hname)

/-- **An abbreviation of one mode selects another**: `in` is accepted, and
stored as `smallfile`. -/
theorem abbreviation_not_roundTrips : ¬ ∀ s, RoundTrips s := by
  intro h
  have haccepts : modeValidator "in" = true :=
    (modeValidator_iff "in").mpr ⟨"ints", by simp [sDataGeneratorMode], Or.inl (by simp)⟩
  exact absurd ((h "in").mp haccepts) (by decide)

end JsonBenchmarks
