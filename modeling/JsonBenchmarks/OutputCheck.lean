import JsonBenchmarks.OutputDevices

/-!
# Comparing the output with the input

`benchmarks::check` takes what was printed out of the output device, leaves a
copy of it in a file, and has both documents compared by flatjson. It moves
the string out of a string device, which is empty from then on, while a stream
keeps its contents: `str()` returns a copy.

So it matters for a stream, and not for a string, whether the next pass resets
the device. Both devices hand over exactly the bytes of each pass, round after
round, as long as a round begins afresh whenever something was printed in the
one before it; for a stream this is also necessary (`checkRounds_exact_iff`).
-/

namespace JsonBenchmarks

open StringStreams

/-! ## The comparison -/

/-- What is asked of flatjson. -/
structure Flatjson where
  Parser : Type
  /-- `make_parser` and `parse`, if `is_valid` holds. -/
  parse : Bytes → Option Parser
  /-- `compare`, with the `compare_result_string` of a result that is not
  `equal`. -/
  compare : Parser → Parser → Option String

/-- How `check` ends: with a pair, with an exception, or in an assertion. -/
inductive CheckResult
  | returned (ok : Bool) (err : String)
  | threw
  | aborted
deriving DecidableEq

/-- The part of `check` that compares. -/
def compareDocuments (fj : Flatjson) (src dst : Bytes) : CheckResult :=
  match fj.parse src with
  | none => .aborted
  | some srcp =>
    match fj.parse dst with
    | none => .aborted
    | some dstp =>
      let err := (fj.compare srcp dstp).getD ""
      .returned (err == "") err

/-- A file that can be mapped. -/
abbrev NonemptyFile := {content : Bytes // content ≠ []}

/-- The types of input devices that `check` asserts. -/
abbrev SourceIoType := {type : IoType // type = .stringBuffer ∨ type = .mmapStreams}

/-- `srcptr` and `srcsize`, for a device of a type that is asserted. -/
def InputIo.source : InputIo → Option Bytes
  | .stringBuffer d => some d.stream
  | .mmapStreams d => some d.stream
  | .stdStrstreams _ => none

/-- The device behind the line that fills `dststring`. -/
def OutputIo.extracted : OutputIo → OutputIo
  | .stringBuffer d => .stringBuffer { d with ostream := [] }
  | .stdStrstreams d => .stdStrstreams d

/-- What is seen of a call of `check`: how it ends, and the new contents of
`test-output.json`. -/
structure Checked where
  result : CheckResult
  testOutput : Option Bytes
deriving DecidableEq

/-- `check` behind the line that fills `dststring`. -/
def checkOf (fj : Flatjson) (canOpen : Bool) (src dst : Bytes) : Checked :=
  if canOpen then ⟨compareDocuments fj src dst, some dst⟩ else ⟨.aborted, none⟩

/-- **`benchmarks::check`.** `canOpen` says whether `test-output.json` can be
opened. -/
def check (fj : Flatjson) (canOpen : Bool) (input : InputIo) (output : OutputIo) :
    Checked × OutputIo :=
  match input.source with
  | none => (⟨.aborted, none⟩, output)
  | some src =>
    match output.dststring with
    | none => (⟨.threw, none⟩, output)
    | some dst => (checkOf fj canOpen src dst, output.extracted)

/-! ## Rounds -/

/-- A pass over the output device and the check behind it. -/
structure CheckedRound where
  resets : Bool
  pass : Pass

/-- The output device behind a pass. -/
def OutputIo.printed (io : OutputIo) (r : CheckedRound) : OutputIo :=
  ((if r.resets then io.reset else io).runPass r.pass).2

/-- **Some rounds**, up to the first whose check does not return. -/
def checkRounds (fj : Flatjson) (canOpen : Bool) (input : InputIo) :
    OutputIo → List CheckedRound → List Checked
  | _, [] => []
  | io, r :: rs =>
    let (c, io') := check fj canOpen input (io.printed r)
    match c.result with
    | .returned _ _ => c :: checkRounds fj canOpen input io' rs
    | _ => [c]

/-- **What should be seen** of the checks, for the bytes that were printed in
each of the rounds. -/
def checksOf (fj : Flatjson) (canOpen : Bool) (src : Bytes) : List Bytes → List Checked
  | [] => []
  | dst :: dsts =>
    let c := checkOf fj canOpen src dst
    match c.result with
    | .returned _ _ => c :: checksOf fj canOpen src dsts
    | _ => [c]

namespace CheckedRound

/-- The bytes of a round. -/
def bytes (r : CheckedRound) : Bytes := r.pass.writes.flatten

/-- A stream begins afresh if it is reset, and if it has to reserve. -/
def fresh (r : CheckedRound) : Bool := r.resets || r.pass.reserve.isSome

/-- What a stream hands over in each of some rounds, of which the first finds
something in it. -/
def accumulated : Bytes → List CheckedRound → List Bytes
  | _, [] => []
  | w, r :: rs =>
    let w' := (if r.fresh then [] else w) ++ r.bytes
    w' :: accumulated w' rs

/-- A round that may be behind another. -/
def MayFollow (r r' : CheckedRound) : Prop := r'.fresh = true ∨ r.bytes = []

end CheckedRound

open CheckedRound

/-! ## What the devices hand over -/

namespace OutputIo

/-- A string hands over its pass and is empty. -/
theorem printed_stringBuffer (fname : String) (r : CheckedRound) :
    ((stringBuffer ⟨fname, []⟩).printed r).dststring = some r.bytes ∧
      ((stringBuffer ⟨fname, []⟩).printed r).extracted = stringBuffer ⟨fname, []⟩ := by
  have hwrites : ∀ (d : OutputStringBufferIo) (ws : List Bytes), ∃ s,
      ((stringBuffer d).runWrites ws).2 = stringBuffer ⟨d.ofname, s⟩ := by
    intro d ws
    induction ws generalizing d with
    | nil => exact ⟨d.ostream, rfl⟩
    | cons w ws ih => exact ih (d.write w)
  have hempty : (if r.resets then (stringBuffer ⟨fname, []⟩).reset else stringBuffer ⟨fname, []⟩)
      = stringBuffer ⟨fname, []⟩ := by
    split <;> rfl
  have hrep : (stringBuffer ⟨fname, []⟩).Represents [] := rfl
  have hpass : (stringBuffer ⟨fname, []⟩).runPass r.pass
      = (stringBuffer ⟨fname, []⟩).runWrites r.pass.writes := by
    unfold OutputIo.runPass
    cases r.pass.reserve <;> rfl
  obtain ⟨s, hs⟩ := hwrites ⟨fname, []⟩ r.pass.writes
  have hdst := (hrep.runPass r.pass).2.dststring_eq
  unfold printed
  rw [hempty, hpass, hs]
  rw [hpass, hs] at hdst
  exact ⟨hdst, rfl⟩

/-- A reservation empties a stream, whatever it represents. -/
theorem Represents.reserve_stdStrstreams {d : OutputStdStrstreamIo} {w : Bytes}
    (h : (stdStrstreams d).Represents w) (n : ℕ) :
    ((stdStrstreams d).reserve n).Represents [] :=
  (OStringStream.written_setStr h.1 _).symm

/-- A stream hands over what it found and its pass, and keeps it. -/
theorem Represents.printed_stdStrstreams {d : OutputStdStrstreamIo} {w : Bytes}
    (h : (stdStrstreams d).Represents w) (r : CheckedRound) :
    ∃ d', (stdStrstreams d).printed r = stdStrstreams d' ∧
      (stdStrstreams d').Represents ((if r.fresh then [] else w) ++ r.bytes) := by
  have hwrites : ∀ (d : OutputStdStrstreamIo) (ws : List Bytes), ∃ d',
      ((stdStrstreams d).runWrites ws).2 = stdStrstreams d' := by
    intro d ws
    induction ws generalizing d with
    | nil => exact ⟨d, rfl⟩
    | cons w ws ih => exact ih (d.write w)
  have hpass : ∀ {d : OutputStdStrstreamIo} {w : Bytes}, (stdStrstreams d).Represents w →
      ∃ d', ((stdStrstreams d).runPass r.pass).2 = stdStrstreams d' ∧
        (stdStrstreams d').Represents ((if r.pass.reserve.isSome then [] else w) ++ r.bytes) := by
    intro d w h
    unfold OutputIo.runPass
    cases r.pass.reserve with
    | none =>
      obtain ⟨d', hd'⟩ := hwrites d r.pass.writes
      exact ⟨d', hd', hd' ▸ (h.runWrites r.pass.writes).2⟩
    | some n =>
      obtain ⟨d', hd'⟩ := hwrites (d.reserve n) r.pass.writes
      exact ⟨d', hd', hd' ▸ ((h.reserve_stdStrstreams n).runWrites r.pass.writes).2⟩
  unfold printed CheckedRound.fresh
  cases r.resets with
  | false => exact hpass h
  | true =>
    obtain ⟨d', hd', hrep⟩ := hpass h.reset
    rw [ite_self] at hrep
    exact ⟨d', hd', hrep⟩

end OutputIo

/-! ## What the checks see -/

/-- A round whose device hands over something. -/
theorem checkRounds_cons {fj : Flatjson} {canOpen : Bool} {input : InputIo} {src dst : Bytes}
    (hsrc : input.source = some src) {io : OutputIo} {r : CheckedRound}
    (hdst : (io.printed r).dststring = some dst) (rs : List CheckedRound) :
    checkRounds fj canOpen input io (r :: rs)
      = match (checkOf fj canOpen src dst).result with
        | .returned _ _ => checkOf fj canOpen src dst
            :: checkRounds fj canOpen input (io.printed r).extracted rs
        | _ => [checkOf fj canOpen src dst] := by
  have hcheck : check fj canOpen input (io.printed r)
      = (checkOf fj canOpen src dst, (io.printed r).extracted) := by
    unfold check
    rw [hsrc, hdst]
  rw [checkRounds, hcheck]

/-- **The checks of a string device see exactly what was printed.** -/
theorem checkRounds_stringBuffer (fj : Flatjson) (canOpen : Bool) {input : InputIo} {src : Bytes}
    (hsrc : input.source = some src) (fname : String) (rs : List CheckedRound) :
    checkRounds fj canOpen input (.stringBuffer ⟨fname, []⟩) rs
      = checksOf fj canOpen src (rs.map bytes) := by
  induction rs with
  | nil => rfl
  | cons r rs ih =>
    obtain ⟨hdst, hext⟩ := OutputIo.printed_stringBuffer fname r
    rw [checkRounds_cons hsrc hdst, hext, ih]
    rfl

/-- **The checks of a stream device see what was accumulated.** -/
theorem checkRounds_stdStrstreams (fj : Flatjson) (canOpen : Bool) {input : InputIo}
    {src : Bytes} (hsrc : input.source = some src) {d : OutputStdStrstreamIo} {w : Bytes}
    (h : (OutputIo.stdStrstreams d).Represents w) (rs : List CheckedRound) :
    checkRounds fj canOpen input (.stdStrstreams d) rs
      = checksOf fj canOpen src (accumulated w rs) := by
  induction rs generalizing d w with
  | nil => rfl
  | cons r rs ih =>
    obtain ⟨d', hd', hrep⟩ := h.printed_stdStrstreams r
    rw [checkRounds_cons hsrc (hd' ▸ hrep.dststring_eq), hd']
    show (match (checkOf fj canOpen src _).result with
      | .returned _ _ => checkOf fj canOpen src _
          :: checkRounds fj canOpen input (.stdStrstreams d') rs
      | _ => _) = _
    rw [ih hrep]
    rfl

/-- What is accumulated is what was printed exactly if no round finds
something and does not begin afresh. -/
theorem accumulated_eq_iff (w : Bytes) (rs : List CheckedRound) :
    accumulated w rs = rs.map bytes ↔
      (∀ r ∈ rs.head?, r.fresh = true ∨ w = []) ∧ rs.IsChain MayFollow := by
  induction rs generalizing w with
  | nil => simp [accumulated]
  | cons r rs ih =>
    have hfirst : (if r.fresh then [] else w) ++ r.bytes = r.bytes ↔ r.fresh = true ∨ w = [] := by
      rw [List.append_left_eq_self]
      split
      · simp_all
      · simp_all
    unfold accumulated
    rw [List.map_cons, List.cons.injEq, hfirst, List.head?_cons, List.isChain_cons]
    constructor
    · rintro ⟨h, hrest⟩
      rw [hfirst.mpr h, ih] at hrest
      exact ⟨fun r' hr' => Option.some.inj hr' ▸ h, hrest.1, hrest.2⟩
    · rintro ⟨h, hhead, hchain⟩
      have hr := h r rfl
      refine ⟨hr, ?_⟩
      rw [hfirst.mpr hr, ih]
      exact ⟨hhead, hchain⟩

/-- A comparison that always returns. -/
def alwaysEqual : Flatjson := ⟨Unit, fun _ => some (), fun _ _ => none⟩

/-- It shows what it was given. -/
theorem testOutput_alwaysEqual (src : Bytes) (dsts : List Bytes) :
    (checksOf alwaysEqual true src dsts).map Checked.testOutput = dsts.map some := by
  induction dsts with
  | nil => rfl
  | cons dst dsts ih =>
    rw [List.map_cons, ← ih]
    rfl

/-- **Every check sees exactly what was printed in its round** exactly if the
device is a string, or every round begins afresh that has something printed in
the round before it. -/
theorem checkRounds_exact_iff (inputType : SourceIoType) (outputType : CheckedIoType)
    (inputFname outputFname : String) (content : NonemptyFile) (rs : List CheckedRound) :
    (∀ fj canOpen, checkRounds fj canOpen (createInputIo inputType.1 inputFname content.1)
        (createOutputIo outputType outputFname) rs
        = checksOf fj canOpen content.1 (rs.map bytes)) ↔
      outputType.1 = .stringBuffer ∨ rs.IsChain MayFollow := by
  have hsrc : (createInputIo inputType.1 inputFname content.1).source = some content.1 := by
    obtain ⟨type, rfl | rfl⟩ := inputType <;> rfl
  obtain ⟨type, htype⟩ := outputType
  cases type with
  | stringBuffer =>
    exact iff_of_true (fun fj canOpen => checkRounds_stringBuffer fj canOpen hsrc outputFname rs)
      (Or.inl rfl)
  | stdStrstreams =>
    have hnew : (OutputIo.stdStrstreams ⟨outputFname, .empty⟩).Represents [] :=
      OutputIo.represents_createOutputIo ⟨.stdStrstreams, htype⟩ outputFname
    have hchecks : ∀ fj canOpen, checkRounds fj canOpen
        (createInputIo inputType.1 inputFname content.1) (.stdStrstreams ⟨outputFname, .empty⟩) rs
        = checksOf fj canOpen content.1 (accumulated [] rs) :=
      fun fj canOpen => checkRounds_stdStrstreams fj canOpen hsrc hnew rs
    have haccumulated : accumulated [] rs = rs.map bytes ↔ rs.IsChain MayFollow := by
      rw [accumulated_eq_iff]
      exact and_iff_right fun r _ => Or.inr rfl
    show (∀ fj canOpen, checkRounds fj canOpen _ (.stdStrstreams _) rs = _) ↔ _
    rw [or_iff_right (fun h => nomatch h), ← haccumulated]
    constructor
    · intro h
      have hshown := congrArg (List.map Checked.testOutput) (h alwaysEqual true)
      rw [hchecks, testOutput_alwaysEqual, testOutput_alwaysEqual] at hshown
      exact List.map_injective_iff.mpr (Option.some_injective _) hshown
    · intro h fj canOpen
      rw [hchecks, h]
  | mmapStreams => exact absurd htype (by decide)

end JsonBenchmarks
