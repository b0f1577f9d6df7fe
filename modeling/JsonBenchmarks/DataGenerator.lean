import JsonBenchmarks.CountedLoop
import JsonBenchmarks.FallibleRuns
import JsonBenchmarks.JsonEvents

/-!
# The data generator

`make_test_file` draws the values of up to four kinds, and then writes two
kinds of records, the first of which carry the values. It writes through a
streaming encoder: about a hundred calls that begin and end containers, name
keys and give values, in two record loops and four loops within the first.

The loops count in 32 bits while their bounds have 64. They are
`countedLoop`s, and so is everything that may not end. A vector gets the memory
that it asks for; only a reservation of more than any vector may have is an
exception. The encoder is modelled by the events that it is told, of which a
number is the number that it denotes: a call that takes a signed number denotes
a signed one, whatever the type of its argument was.
-/

namespace JsonBenchmarks

open CountedLoop JsonEvents

/-! ## The encoder -/

/-- The scalars of a document. A double is the bits that represent it. -/
inductive JsonScalar
  | string (s : String)
  | int (n : ℤ)
  | double (bits : BitVec 64)
  | bool (b : Bool)
  | null
deriving DecidableEq

/-- What `jsoncons::json_visitor` is told. -/
abbrev HandlerEvent := JsonEvent String JsonScalar

/-- What a file says. -/
abbrev Json := JsonTree String JsonScalar

namespace Handler

def stringValue (s : String) : HandlerEvent := .scalar (.string s)

/-- `int64_value(int64_t)`. An argument of another type is converted. -/
def int64Value (x : BitVec 64) : HandlerEvent := .scalar (.int x.toInt)

/-- `uint64_value(uint64_t)`. -/
def uint64Value (x : BitVec 64) : HandlerEvent := .scalar (.int x.toNat)

def doubleValue (x : BitVec 64) : HandlerEvent := .scalar (.double x)

def boolValue (b : Bool) : HandlerEvent := .scalar (.bool b)

def nullValue : HandlerEvent := .scalar .null

end Handler

/-! ## Drawing the values -/

namespace DataGeneratorMode

/-- The bits of `e_data_generator_mode`. -/
def ints : BitVec 64 := 1 <<< 0
def floats : BitVec 64 := 1 <<< 1
def strings : BitVec 64 := 1 <<< 2
def keywords : BitVec 64 := 1 <<< 3
def mixed : BitVec 64 := 1 <<< 4
def smallfile : BitVec 64 := 1 <<< 5
def compacted : BitVec 64 := 1 <<< 6

end DataGeneratorMode

open DataGeneratorMode

/-- `local_flags`. -/
def localFlags (flags : BitVec 64) : BitVec 64 :=
  if flags &&& mixed ≠ 0 then ints ||| floats ||| strings ||| keywords else flags

/-- What the random distributions return, each from its first call on. -/
structure Generators where
  real : ℕ → BitVec 64
  int : ℕ → BitVec 64
  keyword : ℕ → Fin 3

/-- The numbers of values to draw. -/
structure Counts where
  numInts : BitVec 64
  numFloats : BitVec 64
  numStrings : BitVec 64
  numKeywords : BitVec 64

/-- The vectors of values. -/
structure GeneratedValues where
  stringValues : List String
  doubleValues : List (BitVec 64)
  integerValues : List (BitVec 64)
  keywordsValues : List UInt8

/-- `keywords[]`. -/
def keywordCode : Fin 3 → UInt8
  | 0 => 0
  | 1 => 1
  | 2 => 2

/-- The text of every string value. -/
def catsLikeMice : String := "All cats like mice, \"\\uD800\\uDC00\""

/-- A loop that pushes `num` values, its counter having 32 bits. -/
def fill {α : Type} (fuel : ℕ) (num : BitVec 64) (draw : ℕ → α) : Option (List α) :=
  countedLoop 1#32 num.toNat (fun vs => vs ++ [draw vs.length]) fuel 0 []

/-- Such a loop, if its kind is selected. -/
def fillKind {α : Type} (fuel : ℕ) (flags kind num : BitVec 64) (draw : ℕ → α) :
    Option (List α) :=
  if localFlags flags &&& kind ≠ 0 then fill fuel num draw else some []

/-- `max_size()` of a vector whose elements have some bytes each. -/
def maxSize (bytes : ℕ) : ℕ := (2 ^ 63 - 1) / bytes

/-- `reserve()`. Up to `max_size()` there is memory for it. -/
def reserve (bytes : ℕ) (num : BitVec 64) : Except String Unit :=
  if maxSize bytes < num.toNat then .error "vector::reserve" else .ok ()

/-- The reservation before such a loop, if its kind is selected. -/
def reserveKind (flags kind : BitVec 64) (bytes : ℕ) (num : BitVec 64) : Except String Unit :=
  if localFlags flags &&& kind ≠ 0 then reserve bytes num else .ok ()

/-- The four loops that draw the values, and the reservations before three of
them. -/
def generate (fuel : ℕ) (g : Generators) (c : Counts) (flags : BitVec 64) :
    Option (Except String GeneratedValues) := ExceptT.run do
  let stringValues ← ExceptT.lift (fillKind fuel flags strings c.numStrings fun _ => catsLikeMice)
  ofExcept (reserveKind flags floats 8 c.numFloats)
  let doubleValues ← ExceptT.lift (fillKind fuel flags floats c.numFloats g.real)
  ofExcept (reserveKind flags ints 8 c.numInts)
  let integerValues ← ExceptT.lift (fillKind fuel flags ints c.numInts g.int)
  ofExcept (reserveKind flags keywords 1 c.numKeywords)
  let keywordsValues ← ExceptT.lift
    (fillKind fuel flags keywords c.numKeywords fun n => keywordCode (g.keyword n))
  return ⟨stringValues, doubleValues, integerValues, keywordsValues⟩

/-! ## Writing the records -/

open Handler

/-- The body of the loop over `keywords_values`. -/
def writeKeyword (x : UInt8) : List HandlerEvent :=
  (if x = 0 then [boolValue true] else [])
    ++ (if x = 1 then [boolValue false] else [])
    ++ (if x = 2 then [nullValue] else [])

/-- The body of the first record loop. -/
def firstRecord (v : GeneratedValues) : List HandlerEvent :=
  [ .beginObject,
      .key "person",
      .beginObject,
        .key "first_name",
        stringValue "John",
        .key "last_name",
        stringValue "Doe",
        .key "birthdate",
        stringValue "1998-05-13",
        .key "sex",
        stringValue "m",
        .key "salary",
        uint64Value 70000,
        .key "married",
        boolValue false,
        .key "interests",
        .beginArray,
        stringValue "Reading",
        stringValue "Mountain biking",
        stringValue "Hacking",
        .endArray,
        .key "favorites",
        .beginObject,
          .key "color",
          stringValue "blue",
          .key "sport",
          stringValue "soccer",
          .key "food",
          stringValue "spaghetti",
          .key "big_text",
            .beginArray ]
  ++ v.stringValues.map stringValue
  ++ [ .endArray,
          .key "integer_values",
            .beginArray ]
  ++ v.integerValues.map int64Value
  ++ [ .endArray,
          .key "double_values",
            .beginArray ]
  ++ v.doubleValues.map doubleValue
  ++ [ .endArray,
          .key "keywords_values",
            .beginArray ]
  ++ v.keywordsValues.flatMap writeKeyword
  ++ [ .endArray,
        .endObject,
      .endObject,
    .endObject ]

/-- The body of the second record loop. -/
def secondRecord : List HandlerEvent :=
  [ .beginObject,
      .key "person",
      .beginObject,
        .key "first_name",
        stringValue "jane",
        .key "last_name",
        stringValue "doe",
        .key "birthdate",
        stringValue "1998-05-13",
        .key "sex",
        stringValue "f",
        .key "salary",
        uint64Value 80000,
        .key "married",
        boolValue true,
        .key "pets",
        nullValue,
        .key "interests",
        .beginArray,
        stringValue "Skiing",
        stringValue "Hiking",
        stringValue "Camoing",
        .endArray,
        .key "favorites",
        .beginObject,
          .key "color",
          stringValue "Red",
          .key "sport",
          stringValue "skiing",
          .key "food",
          stringValue "risotto",
        .endObject,
      .endObject,
    .endObject ]

/-- A record loop. Its counter has 32 bits and counts in twos. -/
def recordLoop (fuel : ℕ) (repeats : BitVec 64) (record : List HandlerEvent) :
    Option (List HandlerEvent) :=
  countedLoop 2#32 repeats.toNat (fun es => es ++ record) fuel 0 []

/-- What the encoder was told: which of the two encoders it is, and the events
of the two record loops. -/
structure TestFile where
  compacted : Bool
  firstLoop : List HandlerEvent
  secondLoop : List HandlerEvent

/-- All of the events, in order. -/
def TestFile.events (t : TestFile) : List HandlerEvent :=
  [.beginArray] ++ t.firstLoop ++ t.secondLoop ++ [.endArray]

/-- The part of `make_test_file` that writes. -/
def writeRecords (fuel : ℕ) (flags : BitVec 64) (v : GeneratedValues) (repeats : BitVec 64) :
    Option TestFile := do
  let firstLoop ← recordLoop fuel repeats (firstRecord v)
  let secondLoop ← recordLoop fuel repeats secondRecord
  return ⟨flags &&& compacted != 0, firstLoop, secondLoop⟩

/-- **`make_test_file`.** It throws if the file cannot be created or a vector
cannot be so long, and returns nothing if a loop does not end within the
fuel. -/
def makeTestFile (fuel : ℕ) (canCreate : Bool) (filename : String) (g : Generators)
    (c : Counts) (repeats flags : BitVec 64) : Option (Except String TestFile) :=
  if canCreate then ExceptT.run do
    let v ← ExceptT.mk (generate fuel g c flags)
    ExceptT.lift (writeRecords fuel flags v repeats)
  else some (.error ("Cannot create file " ++ filename))

end JsonBenchmarks
