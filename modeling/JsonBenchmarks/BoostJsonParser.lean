import JsonBenchmarks.FileStreams
import JsonBenchmarks.LoopRules

/-!
# The parser driver for Boost.JSON

`boost_json_parser` is one of the programs that the test suite is run with. It
reads a file in blocks, feeds each of them to a stream parser, and tells by its
exit code whether the file is JSON. The parser is a parameter: what it accepts
is a function of the bytes that it was fed, however they were divided.

Its loop reads until the end of the file is met. Where a file ends with a whole
block, that takes one more read, which delivers nothing; the blocks and what is
left behind them are the content of the file (`ends_readRound`). On a stream
that breaks the end is never met (`loopEnds_iff`).

The exit code is not the outcome of parsing but a question about the value. The
document `null` is JSON, and is reported as if it were not (`decides_iff`).
-/

namespace JsonBenchmarks

open FileStreams LoopRules

/-- **`boost::json::stream_parser`**. An error is an exception. -/
structure StreamParser (V : Type) where
  State : Type
  init : State
  write : State → List UInt8 → Except String State
  finish : State → Except String State
  release : State → Except String V

namespace StreamParser

variable {V : Type} (p : StreamParser V)

/-- Chunk after chunk. -/
def feed (s : p.State) (chunks : List (List UInt8)) : Except String p.State :=
  chunks.foldlM p.write s

/-- What parsing some chunks gives. -/
def result (chunks : List (List UInt8)) : Except String V := do
  let s ← p.feed p.init chunks
  let s ← p.finish s
  p.release s

/-- The chunks up to the one that is refused. -/
def fedUntil (s : p.State) : List (List UInt8) → List (List UInt8)
  | [] => []
  | c :: cs =>
    match p.write s c with
    | .ok s' => c :: fedUntil s' cs
    | .error _ => [c]

/-- The state of the read loop, with the chunks that were fed. -/
structure Feeding where
  stream : IFileStream UInt8
  parser : p.State
  fed : List (List UInt8)

/-- **One round of the read loop**. An exception ends it. -/
def readRound (f : p.Feeding) :
    p.Feeding ⊕ Except String p.State × List (List UInt8) :=
  let (buf, is) := f.stream.read 4096
  match p.write f.parser buf with
  | .ok s => if is.eof then .inr (.ok s, f.fed ++ [buf]) else .inl ⟨is, s, f.fed ++ [buf]⟩
  | .error e => .inr (.error e, f.fed ++ [buf])

end StreamParser

/-- What a run of the program shows: its exit code, and what it fed. -/
structure ParserRun where
  exitCode : ℕ
  fed : List (List UInt8)

/-- What follows the read loop. -/
def conclude {V : Type} (p : StreamParser V) (isNull : V → Bool)
    (read : Except String p.State × List (List UInt8)) : ParserRun :=
  let val := do
    let s ← read.1
    let s ← p.finish s
    p.release s
  match val with
  | .ok val => ⟨(!(!isNull val)).toNat, read.2⟩
  | .error _ => ⟨1, read.2⟩

/-- `main`. -/
def boostJsonParser {V : Type} (p : StreamParser V) (isNull : V → Bool)
    (ifstream : String → Option (IFileStream UInt8)) (fuel : ℕ) : List String → Option ParserRun
  | [_, name] =>
    match ifstream name with
    | none => some ⟨1, []⟩
    | some is => (loop p.readRound fuel ⟨is, p.init, []⟩).map (conclude p isNull)
  | _ => some ⟨1, []⟩

/-! ## The read loop -/

section ReadLoop

variable {V : Type} (p : StreamParser V)

/-- The chunks in which a file is read. The last may be empty. -/
def readChunks (content : List UInt8) : List (List UInt8) :=
  wholeBlocks 4096 content ++ [remainder 4096 content]

theorem feed_nil_ne_error (s : p.State) (e : String) : p.feed s [] ≠ .error e := by
  show Except.ok s ≠ .error e
  exact fun h => nomatch h

theorem feed_cons_of_ok {s s' : p.State} {c : List UInt8} (h : p.write s c = .ok s')
    (cs : List (List UInt8)) : p.feed s (c :: cs) = p.feed s' cs := by
  unfold StreamParser.feed
  rw [List.foldlM_cons, h]
  rfl

theorem feed_cons_of_error {s : p.State} {c : List UInt8} {e : String} (h : p.write s c = .error e)
    (cs : List (List UInt8)) : p.feed s (c :: cs) = .error e := by
  unfold StreamParser.feed
  rw [List.foldlM_cons, h]
  rfl

/-- A round in which a whole block is read. -/
theorem readRound_block {b : List UInt8} (hb : b.length = 4096) (xs : List UInt8) (broken : Bool)
    (s : p.State) (fed : List (List UInt8)) :
    p.readRound ⟨.opened (b ++ xs) broken, s, fed⟩ =
      match p.write s b with
      | .ok s' => .inl ⟨.opened xs broken, s', fed ++ [b]⟩
      | .error e => .inr (.error e, fed ++ [b]) := by
  unfold StreamParser.readRound
  rw [IFileStream.read_opened_append hb]
  rfl

/-- The round in which the end of the file is met. -/
theorem readRound_last {xs : List UInt8} (hlt : xs.length < 4096) (s : p.State)
    (fed : List (List UInt8)) :
    p.readRound ⟨.opened xs false, s, fed⟩ = .inr (p.write s xs, fed ++ [xs]) := by
  unfold StreamParser.readRound
  rw [IFileStream.read_opened_of_lt hlt]
  show (match p.write s xs with
    | .ok s => _
    | .error e => _) = _
  cases p.write s xs <;> rfl

/-- **The read loop feeds the whole file**, until the parser throws. -/
theorem ends_readRound (content : List UInt8) (s : p.State) (fed : List (List UInt8)) :
    Ends p.readRound ⟨.opened content false, s, fed⟩
      (p.feed s (readChunks content), fed ++ p.fedUntil s (readChunks content)) := by
  induction content using block_induction (show 0 < 4096 by decide) generalizing s fed with
  | short xs hlt =>
    have hchunks : readChunks xs = [xs] := by
      rw [readChunks, wholeBlocks_of_lt hlt, remainder_of_lt hlt, List.nil_append]
    rw [hchunks]
    refine Ends.of_inr ((readRound_last p hlt s fed).trans ?_)
    cases hwrite : p.write s xs with
    | ok s' => rw [feed_cons_of_ok p hwrite, StreamParser.fedUntil, hwrite]; rfl
    | error e => rw [feed_cons_of_error p hwrite, StreamParser.fedUntil, hwrite]
  | block b xs hb ih =>
    have hchunks : readChunks (b ++ xs) = b :: readChunks xs := by
      rw [readChunks, wholeBlocks_append (by decide) hb, remainder_append (by decide) hb]
      rfl
    have hround := readRound_block p hb xs false s fed
    rw [hchunks, StreamParser.fedUntil]
    cases hwrite : p.write s b with
    | ok s' =>
      rw [hwrite] at hround
      rw [ends_inl_iff hround, feed_cons_of_ok p hwrite]
      have hrest := ih s' (fed ++ [b])
      rw [List.append_assoc] at hrest
      exact hrest
    | error e =>
      rw [hwrite] at hround
      rw [feed_cons_of_error p hwrite]
      exact Ends.of_inr hround

/-- A stream that is broken keeps the loop going. -/
theorem not_ends_of_bad (hempty : ∀ s, ∃ s', p.write s [] = .ok s') {f : p.Feeding}
    (hbad : f.stream.bad = true) (heof : f.stream.eof = false)
    (r : Except String p.State × List (List UInt8)) : ¬ Ends p.readRound f r := by
  refine not_ends_of_invariant (I := fun f => f.stream.bad = true ∧ f.stream.eof = false) ?_
    ⟨hbad, heof⟩ r
  rintro f ⟨hbad, heof⟩
  obtain ⟨s', hs'⟩ := hempty f.parser
  refine ⟨⟨{ f.stream with fail := true }, s', f.fed ++ [[]]⟩, ?_, hbad, heof⟩
  unfold StreamParser.readRound
  rw [IFileStream.read_of_bad 4096 hbad]
  show (match p.write f.parser [] with
    | .ok s => _
    | .error e => _) = _
  rw [hs']
  exact if_neg (by rw [heof]; exact Bool.false_ne_true)

/-- The read loop ends. -/
def LoopEnds (is : IFileStream UInt8) : Prop := ∃ r, Ends p.readRound ⟨is, p.init, []⟩ r

/-- When the read loop ends on a stream that breaks, wherever it starts. -/
theorem exists_ends_broken_iff (hempty : ∀ s, ∃ s', p.write s [] = .ok s') (content : List UInt8)
    (s : p.State) (fed : List (List UInt8)) :
    (∃ r, Ends p.readRound ⟨.opened content true, s, fed⟩ r)
      ↔ ∃ e, p.feed s (wholeBlocks 4096 content) = .error e := by
  induction content using block_induction (show 0 < 4096 by decide) generalizing s fed with
  | short xs hlt =>
    rw [wholeBlocks_of_lt hlt]
    refine iff_of_false ?_ (not_exists.mpr (feed_nil_ne_error p s))
    rintro ⟨r, hr⟩
    obtain ⟨s', hs'⟩ := hempty s
    -- what is less than a block is lost to the error
    have hround : p.readRound ⟨.opened xs true, s, fed⟩
        = .inl ⟨⟨[], true, false, false, true⟩, s', fed ++ [[]]⟩ := by
      unfold StreamParser.readRound
      rw [IFileStream.read_opened_of_lt hlt]
      show (match p.write s [] with
        | .ok s => _
        | .error e => _) = _
      rw [hs']
      rfl
    rw [ends_inl_iff hround] at hr
    exact not_ends_of_bad p hempty rfl rfl r hr
  | block b xs hb ih =>
    have hround := readRound_block p hb xs true s fed
    rw [wholeBlocks_append (by decide) hb]
    cases hwrite : p.write s b with
    | ok s' =>
      rw [hwrite] at hround
      rw [feed_cons_of_ok p hwrite, ← ih s' (fed ++ [b])]
      exact exists_congr fun r => ends_inl_iff hround r
    | error e =>
      rw [hwrite] at hround
      rw [feed_cons_of_error p hwrite]
      exact iff_of_true ⟨_, Ends.of_inr hround⟩ ⟨e, rfl⟩

end ReadLoop

/-- **The read loop ends exactly if reading does not break, or the parser
refuses what is read before it does**, for every content and every offset of
the error. -/
theorem loopEnds_iff {V : Type} (p : StreamParser V) (hempty : ∀ s, ∃ s', p.write s [] = .ok s')
    (content : List UInt8) (broken : Bool) :
    LoopEnds p (.opened content broken) ↔
      broken = false ∨ ∃ e, p.feed p.init (wholeBlocks 4096 content) = .error e := by
  cases broken with
  | false => exact iff_of_true ⟨_, ends_readRound p content p.init []⟩ (Or.inl rfl)
  | true =>
    unfold LoopEnds
    rw [exists_ends_broken_iff p hempty]
    exact (or_iff_right Bool.true_eq_false.mp).symm

/-! ## A parser of three documents -/

/-- The documents `null`, `true` and `false`. -/
def keyword (bytes : List UInt8) : Option (Option Bool) :=
  if bytes = [110, 117, 108, 108] then some none
  else if bytes = [116, 114, 117, 101] then some (some true)
  else if bytes = [102, 97, 108, 115, 101] then some (some false)
  else none

/-- A parser that reads them once it has all bytes. -/
def keywordParser : StreamParser (Option Bool) where
  State := List UInt8
  init := []
  write s buf := .ok (s ++ buf)
  finish s := .ok s
  release s :=
    match keyword s with
    | some v => .ok v
    | none => .error "incomplete JSON"

theorem feed_keywordParser (s : List UInt8) (chunks : List (List UInt8)) :
    keywordParser.feed s chunks = .ok (s ++ chunks.flatten) := by
  induction chunks generalizing s with
  | nil =>
    rw [List.flatten_nil, List.append_nil]
    rfl
  | cons c cs ih =>
    have hwrite : keywordParser.write s c = .ok (s ++ c) := rfl
    rw [feed_cons_of_ok keywordParser hwrite, List.flatten_cons, ← List.append_assoc]
    exact ih (s ++ c)

theorem toOption_result_keywordParser (chunks : List (List UInt8)) :
    (keywordParser.result chunks).toOption = keyword chunks.flatten := by
  have hfeed : keywordParser.feed keywordParser.init chunks = .ok chunks.flatten :=
    feed_keywordParser [] chunks
  unfold StreamParser.result
  rw [hfeed]
  show (match keyword chunks.flatten with
    | some v => Except.ok v
    | none => .error "incomplete JSON").toOption = _
  cases keyword chunks.flatten <;> rfl

/-- An empty chunk is no error. -/
theorem write_nil_keywordParser (s : keywordParser.State) :
    ∃ s', keywordParser.write s [] = .ok s' :=
  ⟨_, rfl⟩

/-- Reading a file with four bytes ends. -/
theorem loopEnds_true : LoopEnds keywordParser (.opened [116, 114, 117, 101] false) :=
  (loopEnds_iff keywordParser write_nil_keywordParser [116, 114, 117, 101] false).mpr (Or.inl rfl)

/-- **Reading a directory does not end**: it opens, and every read fails. -/
theorem directory_not_ends :
    (∀ s, ∃ s', keywordParser.write s [] = .ok s') ∧
      ¬ LoopEnds keywordParser (.opened [] true) := by
  refine ⟨write_nil_keywordParser, ?_⟩
  unfold LoopEnds
  rw [exists_ends_broken_iff keywordParser write_nil_keywordParser]
  rintro ⟨e, he⟩
  exact feed_nil_ne_error keywordParser [] e he

/-! ## What the program tells -/

section Decides

variable {V : Type} (p : StreamParser V)

/-- The parser throws before the last byte of some chunks. -/
def StopsIn (s : p.State) (chunks : List (List UInt8)) : Prop :=
  ∃ read rest, chunks = read ++ rest ∧ rest.flatten ≠ [] ∧ ∃ e, p.feed s read = .error e

/-- The parser throws while there are bytes of a file to be read. -/
def StopsEarly (content : List UInt8) : Prop := StopsIn p p.init (readChunks content)

theorem not_stopsIn_nil (s : p.State) : ¬ StopsIn p s [] := by
  rintro ⟨read, rest, hnil, hrest, -⟩
  obtain ⟨-, rfl⟩ := List.append_eq_nil_iff.mp hnil.symm
  exact hrest rfl

/-- A first chunk that is taken. -/
theorem stopsIn_cons_of_ok {s s' : p.State} {c : List UInt8} (h : p.write s c = .ok s')
    (cs : List (List UInt8)) : StopsIn p s (c :: cs) ↔ StopsIn p s' cs := by
  constructor
  · rintro ⟨read, rest, hcons, hrest, e, he⟩
    cases read with
    | nil => exact absurd he (feed_nil_ne_error p s e)
    | cons c' read =>
      obtain ⟨rfl, hcs⟩ := List.cons.inj hcons
      rw [feed_cons_of_ok p h] at he
      exact ⟨read, rest, hcs, hrest, e, he⟩
  · rintro ⟨read, rest, rfl, hrest, he⟩
    exact ⟨c :: read, rest, rfl, hrest, by rw [feed_cons_of_ok p h]; exact he⟩

/-- A first chunk that is refused. -/
theorem stopsIn_cons_of_error {s : p.State} {c : List UInt8} {e : String}
    (h : p.write s c = .error e) (cs : List (List UInt8)) :
    StopsIn p s (c :: cs) ↔ cs.flatten ≠ [] := by
  constructor
  · rintro ⟨read, rest, hcons, hrest, e', he⟩
    cases read with
    | nil => exact absurd he (feed_nil_ne_error p s e')
    | cons c' read =>
      have hcs : cs = read ++ rest := (List.cons.inj hcons).2
      rw [hcs, List.flatten_append]
      exact fun h => hrest (List.append_eq_nil_iff.mp h).2
  · intro hcs
    exact ⟨[c], cs, rfl, hcs, e, feed_cons_of_error p h []⟩

/-- **All bytes are fed exactly if the parser does not throw before the
last.** -/
theorem flatten_fedUntil_iff (chunks : List (List UInt8)) (s : p.State) :
    (p.fedUntil s chunks).flatten = chunks.flatten ↔ ¬ StopsIn p s chunks := by
  induction chunks generalizing s with
  | nil => exact iff_of_true rfl (not_stopsIn_nil p s)
  | cons c cs ih =>
    unfold StreamParser.fedUntil
    cases hwrite : p.write s c with
    | ok s' =>
      show (c :: p.fedUntil s' cs).flatten = _ ↔ _
      rw [stopsIn_cons_of_ok p hwrite, List.flatten_cons, List.flatten_cons,
        List.append_cancel_left_eq, ih]
    | error e =>
      show [c].flatten = _ ↔ _
      rw [stopsIn_cons_of_error p hwrite, List.flatten_singleton, List.flatten_cons,
        List.self_eq_append_right, not_ne_iff]

/-- **The program decides validity**: it feeds exactly the content of the file,
and its exit code is 0 if that is a document and 1 if not. -/
def Decides (isNull : V → Bool) (parse : List UInt8 → Option V)
    (ifstream : String → Option (IFileStream UInt8)) (argv : List String)
    (content : List UInt8) : Prop :=
  ∃ fuel r, boostJsonParser p isNull ifstream fuel argv = some r ∧
    r.fed.flatten = content ∧ r.exitCode = if (parse content).isSome then 0 else 1

theorem fed_conclude (isNull : V → Bool) (read : Except String p.State × List (List UInt8)) :
    (conclude p isNull read).fed = read.2 := by
  unfold conclude
  dsimp only
  split <;> rfl

/-- The exit code of a run. -/
theorem exitCode_conclude (isNull : V → Bool) (chunks fed : List (List UInt8)) :
    (conclude p isNull (p.feed p.init chunks, fed)).exitCode =
      match p.result chunks with
      | .ok v => (isNull v).toNat
      | .error _ => 1 := by
  show (match p.result chunks with
    | .ok val => (⟨(!(!isNull val)).toNat, fed⟩ : ParserRun)
    | .error _ => ⟨1, fed⟩).exitCode = _
  cases p.result chunks with
  | ok v => exact congrArg Bool.toNat (Bool.not_not (isNull v))
  | error e => rfl

/-- The exit code is right exactly if the document is not `null`. -/
theorem exitCode_conclude_iff (isNull : V → Bool) {parse : List UInt8 → Option V}
    {chunks : List (List UInt8)} (hparse : (p.result chunks).toOption = parse chunks.flatten)
    (fed : List (List UInt8)) :
    ((conclude p isNull (p.feed p.init chunks, fed)).exitCode
        = if (parse chunks.flatten).isSome then 0 else 1)
      ↔ ∀ v, parse chunks.flatten = some v → isNull v = false := by
  rw [exitCode_conclude, ← hparse]
  cases p.result chunks with
  | ok v =>
    show (isNull v).toNat = 0 ↔ ∀ v', some v = some v' → isNull v' = false
    rw [Bool.toNat_eq_zero]
    exact ⟨fun h v' hv => Option.some.inj hv ▸ h, fun h => h v rfl⟩
  | error e => exact iff_of_true rfl fun v hv => absurd hv (Option.some_ne_none v).symm

/-- **The program decides validity exactly if the document is not `null` and
the parser does not throw before the last byte is fed**, for every file. -/
theorem decides_iff (isNull : V → Bool) (parse : List UInt8 → Option V)
    (hparse : ∀ chunks, (p.result chunks).toOption = parse chunks.flatten)
    (ifstream : String → Option (IFileStream UInt8)) (argv0 name : String) (content : List UInt8)
    (hfile : ifstream name = some (.opened content false)) :
    Decides p isNull parse ifstream [argv0, name] content ↔
      (∀ v, parse content = some v → isNull v = false) ∧ ¬ StopsEarly p content := by
  have hflatten : (readChunks content).flatten = content :=
    flatten_wholeBlocks_append (by decide) content
  have hends := ends_readRound p content p.init []
  rw [List.nil_append] at hends
  have hrun : ∀ fuel, boostJsonParser p isNull ifstream fuel [argv0, name]
      = (loop p.readRound fuel ⟨.opened content false, p.init, []⟩).map (conclude p isNull) := by
    intro fuel
    rw [boostJsonParser, hfile]
  have hexit := exitCode_conclude_iff p isNull (hparse (readChunks content))
    (p.fedUntil p.init (readChunks content))
  have hfed := flatten_fedUntil_iff p (readChunks content) p.init
  rw [hflatten] at hexit hfed
  unfold StopsEarly
  rw [← hexit, ← hfed, and_comm]
  constructor
  · rintro ⟨fuel, r, hr, hr'⟩
    obtain rfl := (hends.exists_map_iff (conclude p isNull) r).mp ⟨fuel, by rw [← hrun]; exact hr⟩
    rw [fed_conclude] at hr'
    exact hr'
  · intro h
    obtain ⟨fuel, hr⟩ := (hends.exists_map_iff (conclude p isNull) _).mpr rfl
    exact ⟨fuel, _, by rw [hrun]; exact hr, by rw [fed_conclude]; exact h.1, h.2⟩

end Decides

/-- The document `true` is told to be one. -/
theorem decides_true :
    Decides keywordParser Option.isNone keyword
      (fun _ => some (.opened [116, 114, 117, 101] false))
      ["boost_json_parser", "y_structure_lonely_true.json"] [116, 114, 117, 101] := by
  refine (decides_iff keywordParser Option.isNone keyword toOption_result_keywordParser _ _ _ _
    rfl).mpr ⟨fun v hv => ?_, ?_⟩
  · have hv' : some (some true) = some v := hv
    obtain rfl := Option.some.inj hv'
    rfl
  · rintro ⟨read, rest, -, -, e, he⟩
    rw [show keywordParser.init = [] from rfl, feed_keywordParser] at he
    exact nomatch he

/-- **The document `null` is told not to be one.** -/
theorem lonelyNull_not_decided :
    (∀ chunks, (keywordParser.result chunks).toOption = keyword chunks.flatten) ∧
      ¬ Decides keywordParser Option.isNone keyword
          (fun _ => some (.opened [110, 117, 108, 108] false))
          ["boost_json_parser", "y_structure_lonely_null.json"] [110, 117, 108, 108] := by
  refine ⟨toOption_result_keywordParser, ?_⟩
  rintro ⟨fuel, r, hr, -, hexit⟩
  cases fuel with
  | zero => exact nomatch hr
  | succ fuel =>
    -- one round reads the file, and what is released is the null value
    have hrun : (⟨1, [[110, 117, 108, 108]]⟩ : ParserRun) = r := Option.some.inj hr
    rw [← hrun] at hexit
    exact absurd hexit (by decide)

end JsonBenchmarks
