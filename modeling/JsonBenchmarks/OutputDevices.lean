import JsonBenchmarks.InputDevices

/-!
# Output devices

A library prints into a string or into an output string stream, many times
into the same device. Before each time the device is reset, and room may be
reserved.

The string device really clears and really reserves. The string stream device
emulates both: its `reserve()` fills the contents with NUL bytes, its
`reset()` only moves the put position to the start. So behind that position
there may be bytes of a reservation or of an earlier, longer pass, and it is
`benchmarks::check` that cuts them off. Both devices nevertheless represent
the same thing, the bytes written in the current pass
(`OutputIo.Represents`), and each operation does the same to it.
-/

namespace JsonBenchmarks

open StringStreams

/-- `std::string::resize`: cuts a string, or fills it up with NUL bytes. -/
def resizeString (s : Bytes) (n : ℕ) : Bytes :=
  s.take n ++ List.replicate (n - s.length) 0

/-! ## The two devices -/

/-- `output_string_buffer_io::impl`. -/
structure OutputStringBufferIo where
  ofname : String
  ostream : Bytes

/-- `output_std_strstream_io::impl`. -/
structure OutputStdStrstreamIo where
  ofname : String
  ostream : OStringStream UInt8

namespace OutputStringBufferIo

/-- `reset()` swaps the string with an empty one. -/
def reset (d : OutputStringBufferIo) : OutputStringBufferIo := { d with ostream := [] }

def size (d : OutputStringBufferIo) : ℕ := d.ostream.length

/-- `reserve()` changes the capacity only. -/
def reserve (d : OutputStringBufferIo) (_ : ℕ) : OutputStringBufferIo := d

/-- Appending to the string that `stream()` returns. -/
def write (d : OutputStringBufferIo) (w : Bytes) : OutputStringBufferIo :=
  { d with ostream := d.ostream ++ w }

end OutputStringBufferIo

namespace OutputStdStrstreamIo

/-- `reset()` moves the put position. -/
def reset (d : OutputStdStrstreamIo) : OutputStdStrstreamIo :=
  { d with ostream := d.ostream.seekp 0 }

/-- `size()` is `tellp()`, whose -1 is the largest `std::size_t`. -/
def size (d : OutputStdStrstreamIo) : ℕ := d.ostream.tellp.getD (2 ^ 64 - 1)

/-- `reserve()` replaces the contents by NUL bytes. -/
def reserve (d : OutputStdStrstreamIo) (size : ℕ) : OutputStdStrstreamIo :=
  { d with ostream := d.ostream.setStr (resizeString [] size) }

/-- Writing to the stream that `stream()` returns. -/
def write (d : OutputStdStrstreamIo) (w : Bytes) : OutputStdStrstreamIo :=
  { d with ostream := d.ostream.write w }

end OutputStdStrstreamIo

/-! ## One interface -/

/-- An output device of a type that `benchmarks::check` asserts. -/
inductive OutputIo
  | stringBuffer (d : OutputStringBufferIo)
  | stdStrstreams (d : OutputStdStrstreamIo)

/-- The types of output devices that `benchmarks::check` asserts. -/
abbrev CheckedIoType := {type : IoType // type = .stringBuffer ∨ type = .stdStrstreams}

/-- `create_io(io_direction::output, type, fname)`. -/
def createOutputIo (type : CheckedIoType) (fname : String) : OutputIo :=
  match type with
  | ⟨.stringBuffer, _⟩ => .stringBuffer ⟨fname, []⟩
  | ⟨.stdStrstreams, _⟩ => .stdStrstreams ⟨fname, .empty⟩
  | ⟨.mmapStreams, h⟩ => absurd h (by decide)

namespace OutputIo

/-- `reset()`. -/
def reset : OutputIo → OutputIo
  | .stringBuffer d => .stringBuffer d.reset
  | .stdStrstreams d => .stdStrstreams d.reset

/-- `size()`. -/
def size : OutputIo → ℕ
  | .stringBuffer d => d.size
  | .stdStrstreams d => d.size

/-- `reserve()`. -/
def reserve : OutputIo → ℕ → OutputIo
  | .stringBuffer d, n => .stringBuffer (d.reserve n)
  | .stdStrstreams d, n => .stdStrstreams (d.reserve n)

/-- A write through `stream()`. -/
def write : OutputIo → Bytes → OutputIo
  | .stringBuffer d, w => .stringBuffer (d.write w)
  | .stdStrstreams d, w => .stdStrstreams (d.write w)

/-- The `dststring` of `benchmarks::check`. The contents of a stream are
resized to `tellp()`, which throws if there is none. -/
def dststring : OutputIo → Option Bytes
  | .stringBuffer d => some d.ostream
  | .stdStrstreams d => d.ostream.tellp.map (resizeString d.ostream.str)

/-! ## What a device represents -/

/-- **The bytes written in the current pass**: all of a string, and the
contents of a stream before its put position. -/
def Represents : OutputIo → Bytes → Prop
  | .stringBuffer d, w => d.ostream = w
  | .stdStrstreams d, w => d.ostream.fail = false ∧ d.ostream.written = w

/-- A new device represents nothing. -/
theorem represents_createOutputIo (type : CheckedIoType) (fname : String) :
    (createOutputIo type fname).Represents [] := by
  obtain ⟨type, h⟩ := type
  cases type with
  | stringBuffer => rfl
  | stdStrstreams => exact ⟨OStringStream.fail_empty, OStringStream.written_empty⟩
  | mmapStreams => exact absurd h (by decide)

/-- Nor does one that was reset. -/
theorem Represents.reset {io : OutputIo} {w : Bytes} (h : io.Represents w) :
    io.reset.Represents [] := by
  cases io with
  | stringBuffer d => rfl
  | stdStrstreams d => exact (OStringStream.written_seekp_zero h.1).symm

/-- **A reservation before the first write is not seen**, whether it is one or
an emulation. -/
theorem Represents.reserve {io : OutputIo} (h : io.Represents []) (n : ℕ) :
    (io.reserve n).Represents [] := by
  cases io with
  | stringBuffer d => exact h
  | stdStrstreams d => exact (OStringStream.written_setStr h.1 _).symm

/-- Writing appends. -/
theorem Represents.write {io : OutputIo} {w : Bytes} (h : io.Represents w) (v : Bytes) :
    (io.write v).Represents (w ++ v) := by
  cases io with
  | stringBuffer d =>
    show d.ostream ++ v = w ++ v
    rw [show d.ostream = w from h]
  | stdStrstreams d =>
    obtain ⟨hok, rfl⟩ := h
    exact (OStringStream.written_write hok v).symm

/-- `size()` counts what a device represents. -/
theorem Represents.size_eq {io : OutputIo} {w : Bytes} (h : io.Represents w) :
    io.size = w.length := by
  cases io with
  | stringBuffer d => exact congrArg List.length h
  | stdStrstreams d =>
    obtain ⟨hok, rfl⟩ := h
    show d.ostream.tellp.getD _ = _
    rw [OStringStream.tellp_eq hok]
    rfl

/-- **`benchmarks::check` extracts what a device represents**: the resizing
cuts off whatever stands behind the put position. -/
theorem Represents.dststring_eq {io : OutputIo} {w : Bytes} (h : io.Represents w) :
    io.dststring = some w := by
  cases io with
  | stringBuffer d => exact congrArg some h
  | stdStrstreams d =>
    obtain ⟨hok, rfl⟩ := h
    -- the put position is within the contents, so nothing is filled up
    have hle : d.ostream.put - d.ostream.buf.length = 0 := Nat.sub_eq_zero_of_le d.ostream.put_le
    show d.ostream.tellp.map _ = _
    rw [OStringStream.tellp_eq hok, OStringStream.length_written, Option.map_some,
      resizeString, OStringStream.str, hle, List.replicate_zero, List.append_nil]
    rfl

end OutputIo

/-! ## Passes -/

/-- What is done to a device between two resets: an optional reservation, and
then writes. -/
structure Pass where
  reserve : Option ℕ
  writes : List Bytes

/-- The total numbers of bytes after each of some writes. -/
def totals : ℕ → List Bytes → List ℕ
  | _, [] => []
  | n, w :: ws => (n + w.length) :: totals (n + w.length) ws

/-- The sizes that should be reported in a pass. -/
def Pass.sizes (p : Pass) : List ℕ := totals 0 p.writes

namespace OutputIo

/-- Some writes, with `size()` after each. -/
def runWrites (io : OutputIo) : List Bytes → List ℕ × OutputIo
  | [] => ([], io)
  | w :: ws =>
    let r := (io.write w).runWrites ws
    ((io.write w).size :: r.1, r.2)

/-- A pass, without its reset. -/
def runPass (io : OutputIo) (p : Pass) : List ℕ × OutputIo :=
  (match p.reserve with
    | none => io
    | some n => io.reserve n).runWrites p.writes

/-- Some passes, each with its reset. -/
def runPasses (io : OutputIo) : List Pass → List (List ℕ) × OutputIo
  | [] => ([], io)
  | p :: ps =>
    let r := io.reset.runPass p
    let r' := r.2.runPasses ps
    (r.1 :: r'.1, r'.2)

/-- All of the passes over a device. The first need not reset it. -/
def runAll (io : OutputIo) (resetFirst : Bool) (first : Pass) (later : List Pass) :
    List (List ℕ) × OutputIo :=
  let r := (if resetFirst then io.reset else io).runPass first
  let r' := r.2.runPasses later
  (r.1 :: r'.1, r'.2)

/-- Writes report their running totals and append. -/
theorem Represents.runWrites {io : OutputIo} {w : Bytes} (h : io.Represents w)
    (ws : List Bytes) :
    (io.runWrites ws).1 = totals w.length ws ∧
      (io.runWrites ws).2.Represents (w ++ ws.flatten) := by
  induction ws generalizing io w with
  | nil => exact ⟨rfl, by rw [List.flatten_nil, List.append_nil]; exact h⟩
  | cons v ws ih =>
    obtain ⟨hsizes, hrep⟩ := ih (h.write v)
    rw [List.length_append] at hsizes
    refine ⟨?_, ?_⟩
    · show (io.write v).size :: ((io.write v).runWrites ws).1 = _
      rw [hsizes, (h.write v).size_eq, List.length_append]
      rfl
    · rw [List.flatten_cons, ← List.append_assoc]
      exact hrep

/-- A pass over a device that represents nothing reports its sizes and leaves
its bytes. -/
theorem Represents.runPass {io : OutputIo} (h : io.Represents []) (p : Pass) :
    (io.runPass p).1 = p.sizes ∧ (io.runPass p).2.Represents p.writes.flatten := by
  unfold OutputIo.runPass
  cases p.reserve with
  | none => exact h.runWrites p.writes
  | some n => exact (h.reserve n).runWrites p.writes

/-- Nothing of the passes before the last is left. -/
theorem Represents.runPasses {io : OutputIo} {w : Bytes} (h : io.Represents w)
    (ps : List Pass) :
    (io.runPasses ps).1 = ps.map Pass.sizes ∧
      (io.runPasses ps).2.Represents ((ps.map fun p => p.writes.flatten).getLastD w) := by
  induction ps generalizing io w with
  | nil => exact ⟨rfl, h⟩
  | cons p ps ih =>
    obtain ⟨hsizes, hrep⟩ := h.reset.runPass p
    obtain ⟨hsizes', hrep'⟩ := ih hrep
    refine ⟨?_, ?_⟩
    · show (io.reset.runPass p).1 :: ((io.reset.runPass p).2.runPasses ps).1 = _
      rw [hsizes, hsizes', List.map_cons]
    · rw [List.map_cons, List.getLastD_cons]
      exact hrep'

end OutputIo

/-- **An output device reports and hands over exactly what was written**: for
both types, any passes and any reservations in them, every write is followed
by the total of its pass, and what is extracted in the end are the bytes of
the last pass. -/
theorem outputDevices_exact (type : CheckedIoType) (fname : String) (resetFirst : Bool)
    (first : Pass) (later : List Pass) :
    let r := (createOutputIo type fname).runAll resetFirst first later
    r.1 = (first :: later).map Pass.sizes ∧
      r.2.dststring = some (later.getLastD first).writes.flatten := by
  have hnew := OutputIo.represents_createOutputIo type fname
  have hreset : (if resetFirst then (createOutputIo type fname).reset
      else createOutputIo type fname).Represents [] := by
    split
    · exact hnew.reset
    · exact hnew
  obtain ⟨hsizes, hrep⟩ := hreset.runPass first
  obtain ⟨hsizes', hrep'⟩ := hrep.runPasses later
  refine ⟨?_, ?_⟩
  · show _ :: _ = _
    rw [hsizes, hsizes', List.map_cons]
  · rw [List.getLastD_map (f := fun p : Pass => p.writes.flatten)] at hrep'
    exact hrep'.dststring_eq

end JsonBenchmarks
