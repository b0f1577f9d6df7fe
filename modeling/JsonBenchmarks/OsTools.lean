import JsonBenchmarks.FileStreams
import JsonBenchmarks.LoopRules
import JsonBenchmarks.StdStrings

/-!
# What the driver says about the machine

The header of the benchmark report names the operating system and the
processor. Both are found in text files of the system, by one loop: read lines
until one of them contains a key. What follows the loop does not ask whether a
line was found. It works on whatever the line holds, which is the line that was
found, or what stands behind the last newline of the file (`ends_scanRound`).

For the processor that is often harmless, since a file that ends with a newline
leaves an empty line, without a colon. For the operating system it is not: an
empty line is shorter than the key that is cut from it. The exception leaves
`get_os`, and the report that is being written, for the handler of
`benchmark()`, which returns false.
-/

namespace JsonBenchmarks

open FileStreams LoopRules StdStrings

/-- How a function that returns a string ends. What it does is undefined where
it takes the first or last character of an empty string. -/
inductive StringOutcome
  | returns (s : List Char)
  | throws
  | undefined
deriving DecidableEq

def unknown : List Char := "UNKNOWN".toList

/-! ## Scanning for a key -/

/-- **One round of the scan**: `while ( std::getline(is, line) )`, left where
`line.find(key)` finds something. -/
def scanRound (key : List Char) (st : List Char × IFileStream Char) :
    (List Char × IFileStream Char) ⊕ List Char :=
  let (line, is) := st.2.getline st.1
  if is.toBool then
    if (findStr key line).isSome then .inr line else .inl (line, is)
  else .inr line

/-- The first line that contains a key. -/
def lineWith (key content : List Char) : Option (List Char) :=
  (linesOf content).find? fun line => (findStr key line).isSome

/-- A round that reads a line. -/
theorem scanRound_line (key : List Char) {l : List Char} (hl : '\n' ∉ l) (line cs : List Char) :
    scanRound key (line, .opened (l ++ '\n' :: cs) false) =
      if (findStr key l).isSome then .inr l else .inl (l, .opened cs false) := by
  unfold scanRound
  rw [IFileStream.getline_opened_append hl]
  rfl

/-- The round that reads the last piece. -/
theorem scanRound_last (key : List Char) {cs : List Char} (hne : cs ≠ []) (hnl : '\n' ∉ cs)
    (line : List Char) :
    scanRound key (line, .opened cs false) =
      if (findStr key cs).isSome then .inr cs else .inl (cs, ⟨[], false, true, false, false⟩) := by
  unfold scanRound
  rw [IFileStream.getline_opened_of_notMem hnl, List.isEmpty_eq_false_iff.mpr hne]
  rfl

/-- **The scan ends with the first line that contains the key, or else with
what stands behind the last newline.** -/
theorem ends_scanRound (key content line : List Char) :
    Ends (scanRound key) (line, .opened content false)
      ((lineWith key content).getD (unterminated content)) := by
  induction content using text_induction generalizing line with
  | last cs hnl =>
    rw [unterminated_of_notMem hnl]
    by_cases hne : cs = []
    · subst hne
      exact Ends.of_inr (by rw [scanRound, IFileStream.getline_opened_of_notMem hnl]; rfl)
    · have hround := scanRound_last key hne hnl line
      rw [lineWith, linesOf_of_notMem hne hnl, List.find?_cons]
      cases hfound : (findStr key cs).isSome with
      | true =>
        rw [hfound] at hround
        exact Ends.of_inr hround
      | false =>
        rw [hfound] at hround
        rw [ends_inl_iff hround]
        -- one more round, at the end of the file, leaves the line as it is
        exact Ends.of_inr (by rw [scanRound, IFileStream.getline_of_eof cs rfl]; rfl)
  | line l cs hl ih =>
    have hround := scanRound_line key hl line cs
    rw [lineWith, linesOf_append_newline hl, unterminated_append_newline, List.find?_cons]
    cases hfound : (findStr key l).isSome with
    | true =>
      rw [hfound] at hround
      exact Ends.of_inr hround
    | false =>
      rw [hfound] at hround
      rw [ends_inl_iff hround]
      exact ih l

/-! ## The operating system -/

/-- `strid`. -/
def prettyNameKey : List Char := "PRETTY_NAME=".toList

/-- The suffix for the architecture. -/
def archSuffix (is64 : Bool) : List Char := if is64 then ", x86_64".toList else ", x86_32".toList

/-- What `get_os` does behind its loop. -/
def osOfLine (is64 : Bool) (line : List Char) : StringOutcome :=
  match substr line prettyNameKey.length with
  | none => .throws
  | some line =>
    match line with
    | [] => .undefined
    | c :: cs =>
      -- the first character is looked at, and then the last of what is left
      let line := if c = '"' then cs else c :: cs
      match line.getLast? with
      | none => .undefined
      | some c => .returns ((if c = '"' then line.dropLast else line) ++ archSuffix is64)

/-- `get_os`, of the content of `/etc/os-release` if that can be opened. -/
def getOs (is64 : Bool) (fuel : ℕ) : Option (List Char) → Option StringOutcome
  | none => some (.returns unknown)
  | some content =>
    (loop (scanRound prettyNameKey) fuel ([], .opened content false)).map (osOfLine is64)

/-- A value without a double quote at each end, where there is one. -/
def unquote (v : List Char) : List Char :=
  let v := if v.head? = some '"' then v.drop 1 else v
  if v.getLast? = some '"' then v.dropLast else v

/-- The first line that sets a key. -/
def settingOf (key content : List Char) : Option (List Char) :=
  (linesOf content).find? fun line => key.isPrefixOf line

/-- **The operating system that a content names.** -/
def osName (is64 : Bool) (content : List Char) : List Char :=
  match settingOf prettyNameKey content with
  | some line => unquote (line.drop prettyNameKey.length) ++ archSuffix is64
  | none => unknown

/-- **`get_os` returns the name** of the operating system, given time. -/
def GetsOs (is64 : Bool) (content : List Char) : Prop :=
  ∃ fuel, getOs is64 fuel (some content) = some (.returns (osName is64 content))

/-- Both suffixes are longer than what stands for an unknown system. -/
theorem append_archSuffix_ne_unknown (is64 : Bool) (v : List Char) :
    v ++ archSuffix is64 ≠ unknown := by
  have hlength : (archSuffix is64).length = 8 := by cases is64 <;> rfl
  intro h
  have hunknown : (v ++ archSuffix is64).length = 7 := by rw [h]; rfl
  rw [List.length_append, hlength] at hunknown
  omega

/-- Looking at the last character of a string that has one. -/
theorem match_getLast?_of_ne_nil {v : List Char} (hne : v ≠ []) (suffix : List Char) :
    (match v.getLast? with
      | none => StringOutcome.undefined
      | some c => .returns ((if c = '"' then v.dropLast else v) ++ suffix))
      = .returns ((if v.getLast? = some '"' then v.dropLast else v) ++ suffix) := by
  rw [List.getLast?_eq_some_getLast hne]
  simp only [Option.some.injEq]

/-- **What happens to a line**: it is too short, it has nothing to look at, or
its value is unquoted. -/
theorem osOfLine_eq (is64 : Bool) (line : List Char) :
    osOfLine is64 line =
      if prettyNameKey.length ≤ line.length then
        if line.drop prettyNameKey.length = [] ∨ line.drop prettyNameKey.length = ['"'] then
          .undefined
        else .returns (unquote (line.drop prettyNameKey.length) ++ archSuffix is64)
      else .throws := by
  unfold osOfLine
  rw [substr]
  by_cases hle : prettyNameKey.length ≤ line.length
  · rw [if_pos hle, if_pos hle]
    generalize line.drop prettyNameKey.length = v
    cases v with
    | nil => rfl
    | cons c cs =>
      by_cases hc : c = '"'
      · subst hc
        cases cs with
        | nil => rfl
        | cons d ds =>
          rw [if_neg (by simp)]
          exact match_getLast?_of_ne_nil (List.cons_ne_nil d ds) (archSuffix is64)
      · have hhead : ¬ (c :: cs).head? = some '"' := fun h => hc (Option.some.inj h)
        have hlone : ¬ (c :: cs = [] ∨ c :: cs = ['"']) := by
          rintro (h | h)
          · exact List.cons_ne_nil c cs h
          · exact hc (List.cons.inj h).1
        rw [if_neg hlone, unquote, if_neg hhead]
        dsimp only
        rw [if_neg hc]
        exact match_getLast?_of_ne_nil (List.cons_ne_nil c cs) (archSuffix is64)
  · rw [if_neg hle, if_neg hle]

/-- When a line gives a name. -/
theorem osOfLine_eq_returns_iff (is64 : Bool) (line s : List Char) :
    osOfLine is64 line = .returns s ↔
      prettyNameKey.length ≤ line.length ∧ line.drop prettyNameKey.length ≠ [] ∧
        line.drop prettyNameKey.length ≠ ['"'] ∧
          unquote (line.drop prettyNameKey.length) ++ archSuffix is64 = s := by
  rw [osOfLine_eq]
  by_cases hle : prettyNameKey.length ≤ line.length
  · rw [if_pos hle]
    by_cases hlone : line.drop prettyNameKey.length = [] ∨ line.drop prettyNameKey.length = ['"']
    · rw [if_pos hlone]
      exact iff_of_false (fun h => nomatch h) fun h => hlone.elim h.2.1 h.2.2.1
    · rw [if_neg hlone, StringOutcome.returns.injEq]
      exact ⟨fun h => ⟨hle, fun h' => hlone (Or.inl h'), fun h' => hlone (Or.inr h'), h⟩,
        fun h => h.2.2.2⟩
  · rw [if_neg hle]
    exact iff_of_false (fun h => nomatch h) fun h => hle h.1

/-- What `get_os` returns is decided by the line that its scan leaves. -/
theorem exists_getOs_iff (is64 : Bool) (content : List Char) (out : StringOutcome) :
    (∃ fuel, getOs is64 fuel (some content) = some out) ↔
      osOfLine is64 ((lineWith prettyNameKey content).getD (unterminated content)) = out :=
  (ends_scanRound prettyNameKey content []).exists_map_iff (osOfLine is64) out

/-- A line that sets the key contains it. -/
theorem exists_lineWith_of_settingOf {key content named : List Char}
    (h : settingOf key content = some named) : ∃ found, lineWith key content = some found := by
  refine Option.isSome_iff_exists.mp
    (List.find?_isSome.mpr ⟨named, List.mem_of_find?_eq_some h, ?_⟩)
  rw [isSome_findStr_iff]
  exact (List.isPrefixOf_iff_prefix.mp
    (List.find?_some (p := fun line => key.isPrefixOf line) h)).isInfix

/-- A line that contains the key is as long. -/
theorem length_le_of_lineWith {key content found : List Char}
    (h : lineWith key content = some found) : key.length ≤ found.length :=
  ((isSome_findStr_iff key found).mp
    (List.find?_some (p := fun line => (findStr key line).isSome) h)).length_le

/-- **`get_os` is right exactly if some line sets the key, and the first line
that contains the key has a value that is more than a quote and, without
quotes, that of the first line that sets it**, for every content. -/
theorem getsOs_iff (is64 : Bool) (content : List Char) :
    GetsOs is64 content ↔
      ∃ found named, lineWith prettyNameKey content = some found ∧
        settingOf prettyNameKey content = some named ∧
        found.drop prettyNameKey.length ≠ [] ∧ found.drop prettyNameKey.length ≠ ['"'] ∧
        unquote (found.drop prettyNameKey.length) = unquote (named.drop prettyNameKey.length) := by
  unfold GetsOs
  rw [exists_getOs_iff, osOfLine_eq_returns_iff, osName]
  cases hnamed : settingOf prettyNameKey content with
  | none =>
    refine iff_of_false (fun h => append_archSuffix_ne_unknown is64 _ h.2.2.2) ?_
    rintro ⟨found, named, -, hnone, -⟩
    exact nomatch hnone
  | some named =>
    obtain ⟨found, hfound⟩ := exists_lineWith_of_settingOf hnamed
    rw [hfound, Option.getD_some, List.append_cancel_right_eq]
    constructor
    · rintro ⟨-, hvalue⟩
      exact ⟨found, named, rfl, rfl, hvalue⟩
    · rintro ⟨found', named', hfound', hnamed', hvalue⟩
      obtain rfl := Option.some.inj hfound'
      obtain rfl := Option.some.inj hnamed'
      exact ⟨length_le_of_lineWith hfound, hvalue⟩

/-- **Without the key `substr` throws.** -/
theorem noPrettyName_not_returned :
    (∃ fuel, getOs true fuel (some "ID=alpine\n".toList) = some .throws) ∧
      ¬ GetsOs true "ID=alpine\n".toList := by
  have hthrows : osOfLine true ((lineWith prettyNameKey "ID=alpine\n".toList).getD
      (unterminated "ID=alpine\n".toList)) = .throws := by decide
  refine ⟨(exists_getOs_iff true _ _).mpr hthrows, ?_⟩
  unfold GetsOs
  rw [exists_getOs_iff, hthrows]
  exact fun h => nomatch h

/-! ## The processor -/

/-- One round of the loop that takes blanks from the front of a line. -/
def stripRound : List Char → List Char ⊕ List Char
  | [] => .inr []
  | c :: cs => if c = ' ' then .inl cs else .inr (c :: cs)

/-- What `get_cpu` and `get_cpu_type` do behind their loops. -/
def fieldOfLine (rename : List Char → List Char) (fuel : ℕ) (line : List Char) :
    Option StringOutcome :=
  match findStr [':'] line with
  | none => some (.returns unknown)
  | some pos =>
    match substr line (pos + 1) with
    | none => some .throws
    | some line => (loop stripRound fuel line).map fun line => .returns (rename line)

/-- What the two have in common: the field with a key, renamed, of the content
of `/proc/cpuinfo` if that can be opened. -/
def cpuField (key : List Char) (rename : List Char → List Char) (fuel : ℕ) :
    Option (List Char) → Option StringOutcome
  | none => some (.returns unknown)
  | some content =>
    (loop (scanRound key) fuel ([], .opened content false)).bind (fieldOfLine rename fuel)

/-- `get_cpu`. -/
def getCpu : ℕ → Option (List Char) → Option StringOutcome := cpuField "model name".toList id

/-- The names that `get_cpu_type` has for two vendors. -/
def vendorName (vendor : List Char) : List Char :=
  if vendor = "AuthenticAMD".toList then "AMD".toList
  else if vendor = "GenuineIntel".toList then "Intel".toList
  else vendor

/-- `get_cpu_type`. -/
def getCpuType : ℕ → Option (List Char) → Option StringOutcome :=
  cpuField "vendor_id".toList vendorName

/-- The value of a field: what stands behind the first colon and the blanks
behind that. -/
def fieldValue (line : List Char) : Option (List Char) :=
  match line.dropWhile (· ≠ ':') with
  | [] => none
  | _ :: value => some (value.dropWhile (· = ' '))

/-- What is told of a line. -/
def fieldText (rename : List Char → List Char) (line : List Char) : List Char :=
  ((fieldValue line).map rename).getD unknown

/-- **The field that a content has for a key.** -/
def cpuText (key : List Char) (rename : List Char → List Char) (content : List Char) :
    List Char :=
  match lineWith key content with
  | some line => fieldText rename line
  | none => unknown

/-- The stripping loop ends on every line, without its blanks. -/
theorem ends_stripRound (line : List Char) :
    Ends stripRound line (line.dropWhile (· = ' ')) := by
  induction line with
  | nil => exact Ends.of_inr rfl
  | cons c cs ih =>
    by_cases hc : c = ' '
    · have hround : stripRound (c :: cs) = .inl cs := if_pos hc
      rw [ends_inl_iff hround, List.dropWhile_cons, if_pos (decide_eq_true hc)]
      exact ih
    · rw [List.dropWhile_cons, if_neg (by rw [decide_eq_true_eq]; exact hc)]
      exact Ends.of_inr (if_neg hc)

/-- A line with a colon. -/
theorem fieldOfLine_append {l : List Char} (hl : ':' ∉ l) (rename : List Char → List Char)
    (fuel : ℕ) (v : List Char) :
    fieldOfLine rename fuel (l ++ ':' :: v)
      = (loop stripRound fuel v).map fun line => .returns (rename line) := by
  have hle : l.length + 1 ≤ (l ++ ':' :: v).length := by
    rw [List.length_append, List.length_cons]
    omega
  have hdrop : (l ++ ':' :: v).drop (l.length + 1) = v := by
    rw [← List.drop_drop, List.drop_left]
    rfl
  unfold fieldOfLine
  rw [findStr_singleton_append hl]
  dsimp only
  rw [substr, if_pos hle, hdrop]

/-- A line without one. -/
theorem fieldOfLine_of_notMem {line : List Char} (hline : ':' ∉ line)
    (rename : List Char → List Char) (fuel : ℕ) :
    fieldOfLine rename fuel line = some (.returns unknown) := by
  unfold fieldOfLine
  rw [findStr_singleton_of_notMem hline]

/-- More time changes nothing about a line. -/
theorem fieldOfLine_mono (rename : List Char → List Char) {line : List Char} {fuel fuel' : ℕ}
    {out : StringOutcome} (h : fieldOfLine rename fuel line = some out) (hle : fuel ≤ fuel') :
    fieldOfLine rename fuel' line = some out := by
  by_cases hcolon : ':' ∈ line
  · obtain ⟨l, v, rfl, hl⟩ := List.eq_append_cons_of_mem hcolon
    rw [fieldOfLine_append hl] at h ⊢
    obtain ⟨value, hvalue, hout⟩ := Option.map_eq_some_iff.mp h
    rw [loop_mono hvalue hle, Option.map_some, hout]
  · rw [fieldOfLine_of_notMem hcolon] at h ⊢
    exact h

/-- The value of a line with a colon. -/
theorem fieldValue_append {l : List Char} (hl : ':' ∉ l) (v : List Char) :
    fieldValue (l ++ ':' :: v) = some (v.dropWhile (· = ' ')) := by
  unfold fieldValue
  rw [dropWhile_ne_append hl]

theorem fieldValue_of_notMem {line : List Char} (hline : ':' ∉ line) : fieldValue line = none := by
  unfold fieldValue
  rw [dropWhile_ne_of_notMem hline]

/-- **The field functions always return**, and what they tell is decided by
the line that their scan leaves. -/
theorem exists_cpuField_iff (key : List Char) (rename : List Char → List Char)
    (content : List Char) (out : StringOutcome) :
    (∃ fuel, cpuField key rename fuel (some content) = some out) ↔
      StringOutcome.returns (fieldText rename ((lineWith key content).getD (unterminated content)))
        = out := by
  have hscan := ends_scanRound key content []
  refine (hscan.exists_bind_iff (fun _ _ _ h hle => fieldOfLine_mono rename h hle) out).trans ?_
  generalize (lineWith key content).getD (unterminated content) = line
  by_cases hcolon : ':' ∈ line
  · obtain ⟨l, v, rfl, hl⟩ := List.eq_append_cons_of_mem hcolon
    simp only [fieldOfLine_append hl]
    rw [(ends_stripRound v).exists_map_iff, fieldText, fieldValue_append hl]
    rfl
  · simp only [fieldOfLine_of_notMem hcolon, fieldText, fieldValue_of_notMem hcolon]
    rw [exists_const, Option.some.injEq]
    rfl

/-- **Nothing is told of a line without the key**: some line contains it, or
what stands behind the last newline has no value, or one that says so. -/
def Covered (key content : List Char) : Prop :=
  (∃ line ∈ linesOf content, key <:+: line) ∨
    ∀ v, fieldValue (unterminated content) = some v → v = unknown

/-- When a field function tells the field for its key. -/
theorem exists_cpuField_cpuText_iff (key : List Char) {rename : List Char → List Char}
    (hrename : ∀ v, rename v = unknown ↔ v = unknown) (content : List Char) :
    (∃ fuel, cpuField key rename fuel (some content)
        = some (.returns (cpuText key rename content))) ↔ Covered key content := by
  have hkey : (lineWith key content).isSome ↔ ∃ line ∈ linesOf content, key <:+: line := by
    simp only [lineWith, List.find?_isSome, isSome_findStr_iff]
  rw [exists_cpuField_iff, StringOutcome.returns.injEq, cpuText, Covered, ← hkey]
  cases lineWith key content with
  | some line => exact iff_of_true rfl (Or.inl rfl)
  | none =>
    rw [Option.getD_none, fieldText, Option.isSome_none, or_iff_right Bool.false_ne_true]
    cases fieldValue (unterminated content) with
    | none => exact iff_of_true rfl fun v hv => nomatch hv
    | some v =>
      show rename v = unknown ↔ _
      rw [hrename]
      exact ⟨fun h v' hv' => Option.some.inj hv' ▸ h, fun h => h v rfl⟩

/-- No vendor is renamed to what stands for an unknown one. -/
theorem vendorName_eq_unknown_iff (v : List Char) : vendorName v = unknown ↔ v = unknown := by
  unfold vendorName
  split
  · subst v
    decide
  · split
    · subst v
      decide
    · rfl

/-- **`get_cpu` and `get_cpu_type` tell the field of their key exactly if the
content has a line with the key, or ends without another field**, for every
content. -/
theorem cpu_told_iff (content : List Char) :
    ((∃ fuel, getCpu fuel (some content)
          = some (.returns (cpuText "model name".toList id content)))
        ↔ Covered "model name".toList content) ∧
      ((∃ fuel, getCpuType fuel (some content)
          = some (.returns (cpuText "vendor_id".toList vendorName content)))
        ↔ Covered "vendor_id".toList content) :=
  ⟨exists_cpuField_cpuText_iff "model name".toList (fun _ => Iff.rfl) content,
    exists_cpuField_cpuText_iff "vendor_id".toList vendorName_eq_unknown_iff content⟩

/-- **The last field of a content without a newline behind it is told as the
processor.** -/
theorem unterminatedField_told :
    (∃ fuel, getCpu fuel (some "flags : fpu".toList) = some (.returns "fpu".toList)) ∧
      ¬ (∃ fuel, getCpu fuel (some "flags : fpu".toList)
          = some (.returns (cpuText "model name".toList id "flags : fpu".toList))) ∧
      ¬ (∃ fuel, getCpuType fuel (some "flags : fpu".toList)
          = some (.returns (cpuText "vendor_id".toList vendorName "flags : fpu".toList))) := by
  simp only [getCpu, getCpuType, exists_cpuField_iff]
  decide

end JsonBenchmarks
