import JsonBenchmarks.StringStreams

/-!
# Input devices

The benchmark hands every library the same file through one of three devices:
a string, an input string stream over a string, or a mapping. All three offer
`stream()`, `size()` and `reset()`, and a caller that starts its pass with
`stream()` should not have to know which of the three it holds.

Two of them let it notice. The `reset()` of the string device swaps the string
away, so nothing is left to present. The `stream()` and `reset()` of the
string stream device seek to the start, which a stream that was read past its
end refuses. `observe_inputAfter_iff` says exactly after which operations each kind
still presents the file; the mapping always does.
-/

namespace JsonBenchmarks

open StringStreams

/-- The bytes of a file. -/
abbrev Bytes := List UInt8

/-- `io_type`. -/
inductive IoType
  | stringBuffer
  | stdStrstreams
  | mmapStreams
deriving DecidableEq

/-! ## The three devices -/

/-- `input_string_buffer_io::impl`. -/
structure InputStringBufferIo where
  ifname : String
  istream : Bytes

/-- `input_std_strstream_io::impl`. The stream's buffer is `ibuffer`, by
`pubsetbuf()`. -/
structure InputStdStrstreamIo where
  ifname : String
  ibuffer : Bytes
  istream : IStringStream UInt8
  buf_eq : istream.buf = ibuffer

/-- `mmsource`, the mapping of a file. -/
structure Mmsource where
  mapped : Bytes

/-- `input_mmap_stream_io::impl`. -/
structure InputMmapStreamIo where
  ifname : String
  istream : Mmsource

namespace InputStringBufferIo

/-- The constructor reads the whole file. -/
def ofFile (inputFname : String) (content : Bytes) : InputStringBufferIo :=
  ⟨inputFname, content⟩

/-- `reset()` swaps the string with an empty one. -/
def reset (d : InputStringBufferIo) : InputStringBufferIo := { d with istream := [] }

def size (d : InputStringBufferIo) : ℕ := d.istream.length

def stream (d : InputStringBufferIo) : Bytes := d.istream

end InputStringBufferIo

namespace InputStdStrstreamIo

/-- The constructor reads the whole file and points the stream at it. -/
def ofFile (inputFname : String) (content : Bytes) : InputStdStrstreamIo :=
  ⟨inputFname, content, IStringStream.ofBuffer content, rfl⟩

/-- `reset()` rewinds the stream. -/
def reset (d : InputStdStrstreamIo) : InputStdStrstreamIo :=
  { d with istream := d.istream.seekg 0, buf_eq := by rw [IStringStream.seekg_buf, d.buf_eq] }

def size (d : InputStdStrstreamIo) : ℕ := d.ibuffer.length

/-- `stream()` rewinds the stream, too, and returns it. -/
def stream (d : InputStdStrstreamIo) : IStringStream UInt8 × InputStdStrstreamIo :=
  (d.istream.seekg 0, d.reset)

/-- The device after `n` bytes were read from the stream it returned. -/
def read (d : InputStdStrstreamIo) (n : ℕ) : InputStdStrstreamIo :=
  { d with
    istream := (d.istream.read n).2
    buf_eq := by rw [IStringStream.read_buf, d.buf_eq] }

end InputStdStrstreamIo

namespace InputMmapStreamIo

/-- The constructor maps the whole file. -/
def ofFile (inputFname : String) (content : Bytes) : InputMmapStreamIo :=
  ⟨inputFname, ⟨content⟩⟩

/-- `reset()` does nothing. -/
def reset (d : InputMmapStreamIo) : InputMmapStreamIo := d

def size (d : InputMmapStreamIo) : ℕ := d.istream.mapped.length

def stream (d : InputMmapStreamIo) : Bytes := d.istream.mapped

end InputMmapStreamIo

/-! ## One interface -/

/-- An `io_device` of direction `io_direction::input`. -/
inductive InputIo
  | stringBuffer (d : InputStringBufferIo)
  | stdStrstreams (d : InputStdStrstreamIo)
  | mmapStreams (d : InputMmapStreamIo)

/-- `create_io(io_direction::input, type, fname)`, for a file with the given
content. -/
def createInputIo (type : IoType) (fname : String) (content : Bytes) : InputIo :=
  match type with
  | .stringBuffer => .stringBuffer (.ofFile fname content)
  | .stdStrstreams => .stdStrstreams (.ofFile fname content)
  | .mmapStreams => .mmapStreams (.ofFile fname content)

namespace InputIo

/-- `reset()`. -/
def reset : InputIo → InputIo
  | .stringBuffer d => .stringBuffer d.reset
  | .stdStrstreams d => .stdStrstreams d.reset
  | .mmapStreams d => .mmapStreams d.reset

/-- `size()`. -/
def size : InputIo → ℕ
  | .stringBuffer d => d.size
  | .stdStrstreams d => d.size
  | .mmapStreams d => d.size

/-- `stream()`: the bytes its result presents, and the device afterwards. -/
def stream : InputIo → Bytes × InputIo
  | .stringBuffer d => (d.stream, .stringBuffer d)
  | .stdStrstreams d => (d.stream.1.rest, .stdStrstreams d.stream.2)
  | .mmapStreams d => (d.stream, .mmapStreams d)

/-- Reading `n` bytes through the result of `stream()`. A string and a mapping
are read as memory, which leaves the device alone; a stream is advanced. -/
def read : InputIo → ℕ → InputIo
  | .stringBuffer d, _ => .stringBuffer d
  | .stdStrstreams d, n => .stdStrstreams (d.read n)
  | .mmapStreams d, _ => .mmapStreams d

/-- What a caller that now asks for `stream()` and `size()` gets. -/
def observe (io : InputIo) : Bytes × ℕ := (io.stream.1, io.stream.2.size)

end InputIo

/-- What a user of an input device does with it. -/
inductive InputOp
  | stream
  | read (n : ℕ)
  | reset
deriving DecidableEq

/-- A device in use, and whether `stream()` has returned something to read
through. -/
structure InputSession where
  io : InputIo
  streamed : Bool

namespace InputSession

/-- One operation. There is nothing to read before the first `stream()`. -/
def step (s : InputSession) : InputOp → InputSession
  | .stream => ⟨s.io.stream.2, true⟩
  | .read n => if s.streamed then ⟨s.io.read n, true⟩ else s
  | .reset => ⟨s.io.reset, s.streamed⟩

/-- A sequence of operations. -/
def run (s : InputSession) (ops : List InputOp) : InputSession := ops.foldl step s

theorem run_cons (s : InputSession) (op : InputOp) (ops : List InputOp) :
    s.run (op :: ops) = (s.step op).run ops := rfl

end InputSession

/-- A device that was just created, after a sequence of operations. -/
def inputAfter (type : IoType) (fname : String) (content : Bytes) (ops : List InputOp) :
    InputIo :=
  (InputSession.run ⟨createInputIo type fname content, false⟩ ops).io

/-! ## When the file is still there -/

/-- No read asks for more bytes than are left of a file of the given length.
The position is the one in the last result of `stream()`, if there is one. -/
def WithinFile (len : ℕ) : Option ℕ → List InputOp → Prop
  | _, [] => True
  | _, .stream :: ops => WithinFile len (some 0) ops
  | none, .read _ :: ops => WithinFile len none ops
  | some p, .read n :: ops => p + n ≤ len ∧ WithinFile len (some (p + n)) ops
  | p, .reset :: ops => WithinFile len (p.map fun _ => 0) ops

/-- The operations after which a device of each kind still presents a file of
the given length. -/
def StillPresents (len : ℕ) (ops : List InputOp) : IoType → Prop
  | .stringBuffer => InputOp.reset ∉ ops
  | .stdStrstreams => WithinFile len none ops
  | .mmapStreams => True

/-- The string device keeps its string as long as it is not reset, and has
none from then on. -/
theorem run_stringBuffer (ops : List InputOp) (d : InputStringBufferIo) (streamed : Bool) :
    (InputSession.run ⟨.stringBuffer d, streamed⟩ ops).io
      = .stringBuffer (if InputOp.reset ∈ ops then d.reset else d) := by
  induction ops generalizing d streamed with
  | nil => rfl
  | cons op ops ih =>
    rw [InputSession.run_cons]
    cases op with
    | stream =>
      show (InputSession.run ⟨.stringBuffer d, true⟩ ops).io = _
      rw [ih]
      simp
    | read n =>
      cases streamed with
      | true =>
        show (InputSession.run ⟨.stringBuffer d, true⟩ ops).io = _
        rw [ih]
        simp
      | false =>
        show (InputSession.run ⟨.stringBuffer d, false⟩ ops).io = _
        rw [ih]
        simp
    | reset =>
      -- a second reset finds the string empty already
      have hreset : d.reset.reset = d.reset := rfl
      show (InputSession.run ⟨.stringBuffer d.reset, streamed⟩ ops).io = _
      rw [ih, hreset]
      simp

/-- The mapping never changes. -/
theorem run_mmapStreams (ops : List InputOp) (d : InputMmapStreamIo) (streamed : Bool) :
    (InputSession.run ⟨.mmapStreams d, streamed⟩ ops).io = .mmapStreams d := by
  induction ops generalizing streamed with
  | nil => rfl
  | cons op ops ih =>
    rw [InputSession.run_cons]
    cases op with
    | stream => exact ih true
    | read n =>
      cases streamed with
      | true => exact ih true
      | false => exact ih false
    | reset => exact ih streamed

namespace InputStdStrstreamIo

/-- Rewinding a device whose stream has not failed makes the stream good. -/
theorem reset_of_ok {d : InputStdStrstreamIo} (h : d.istream.fail = false) :
    d.reset.istream.good = true ∧ d.reset.istream.pos = 0 :=
  IStringStream.seekg_zero_of_ok h

/-- Rewinding a device whose stream has failed repairs nothing. -/
theorem reset_fail {d : InputStdStrstreamIo} (h : d.istream.fail = true) :
    d.reset.istream.fail = true :=
  IStringStream.seekg_fail h 0

/-- What `stream()` presents depends on `failbit` only. -/
theorem rest_stream (d : InputStdStrstreamIo) :
    d.stream.1.rest = if d.istream.fail then [] else d.ibuffer := by
  cases h : d.istream.fail with
  | true => exact IStringStream.rest_of_fail (IStringStream.seekg_fail h 0)
  | false => exact (IStringStream.rest_seekg_zero h).trans d.buf_eq

end InputStdStrstreamIo

/-- A string stream device that has failed stays failed. -/
theorem run_stdStrstreams_of_fail (ops : List InputOp) (d : InputStdStrstreamIo)
    (streamed : Bool) (h : d.istream.fail = true) :
    ∃ d', (InputSession.run ⟨.stdStrstreams d, streamed⟩ ops).io = .stdStrstreams d' ∧
      d'.ibuffer = d.ibuffer ∧ d'.istream.fail = true := by
  induction ops generalizing d streamed with
  | nil => exact ⟨d, rfl, rfl, h⟩
  | cons op ops ih =>
    rw [InputSession.run_cons]
    cases op with
    | stream => exact ih d.reset true (d.reset_fail h)
    | read n =>
      cases streamed with
      | true => exact ih (d.read n) true (IStringStream.read_fail h n)
      | false => exact ih d false h
    | reset => exact ih d.reset streamed (d.reset_fail h)

/-- **A string stream device fails exactly when a read passes the end.** The
invariant is that the stream is good and stands at the position that
`WithinFile` counts. -/
theorem run_stdStrstreams (ops : List InputOp) (d : InputStdStrstreamIo) (p : Option ℕ)
    (hgood : d.istream.good = true) (hpos : ∀ q, p = some q → d.istream.pos = q) :
    ∃ d', (InputSession.run ⟨.stdStrstreams d, p.isSome⟩ ops).io = .stdStrstreams d' ∧
      d'.ibuffer = d.ibuffer ∧ (d'.istream.fail = false ↔ WithinFile d.size p ops) := by
  induction ops generalizing d p with
  | nil => exact ⟨d, rfl, rfl, iff_of_true (IStringStream.fail_of_good hgood) trivial⟩
  | cons op ops ih =>
    have hreset := d.reset_of_ok (IStringStream.fail_of_good hgood)
    rw [InputSession.run_cons]
    cases op with
    | stream =>
      exact ih d.reset (some 0) hreset.1 (fun q hq => hreset.2.trans (Option.some.inj hq))
    | read n =>
      cases p with
      | none => exact ih d none hgood hpos
      | some p =>
        have hp : d.istream.pos = p := hpos p rfl
        have hlen : d.istream.buf.length = d.size := by rw [d.buf_eq]; rfl
        by_cases hn : p + n ≤ d.size
        · -- the read stays within the file and only advances
          have hread := IStringStream.read_of_le (n := n) hgood (by rw [hp, hlen]; exact hn)
          obtain ⟨d', hrun, hbuf, hfail⟩ := ih (d.read n) (some (p + n)) hread.1
            (fun q hq => by rw [← Option.some.inj hq, ← hp]; exact hread.2)
          exact ⟨d', hrun, hbuf, by rw [hfail, WithinFile, and_iff_right hn]; rfl⟩
        · have hread : (d.read n).istream.fail = true :=
            IStringStream.read_of_lt (by rw [hp, hlen]; exact Nat.lt_of_not_le hn)
          obtain ⟨d', hrun, hbuf, hfail⟩ := run_stdStrstreams_of_fail ops (d.read n) true hread
          exact ⟨d', hrun, hbuf, iff_of_false (by simp [hfail]) (fun h => hn h.1)⟩
    | reset =>
      have hpos' : ∀ q, (p.map fun _ => 0) = some q → d.reset.istream.pos = q := by
        intro q hq
        obtain ⟨_, _, rfl⟩ := Option.map_eq_some_iff.mp hq
        exact hreset.2
      have hsome : (p.map fun _ => 0).isSome = p.isSome := Option.isSome_map
      have h := ih d.reset (p.map fun _ => 0) hreset.1 hpos'
      rw [hsome] at h
      exact h

/-! ## When the devices are interchangeable -/

/-- **After any operations a device presents the file exactly when its kind
still has it.** -/
theorem observe_inputAfter_iff (type : IoType) (fname : String) {content : Bytes}
    (hcontent : content ≠ []) (ops : List InputOp) :
    (inputAfter type fname content ops).observe = (content, content.length)
      ↔ StillPresents content.length ops type := by
  cases type with
  | stringBuffer =>
    have hrun := run_stringBuffer ops (.ofFile fname content) false
    show InputIo.observe (InputSession.run ⟨.stringBuffer (.ofFile fname content), false⟩ ops).io
        = _ ↔ InputOp.reset ∉ ops
    rw [hrun]
    by_cases hreset : InputOp.reset ∈ ops
    · rw [if_pos hreset]
      refine iff_of_false (fun h => ?_) (not_not_intro hreset)
      exact hcontent (congrArg Prod.fst h).symm
    · rw [if_neg hreset]
      exact iff_of_true rfl hreset
  | stdStrstreams =>
    obtain ⟨d, hrun, hbuf, hfail⟩ :=
      run_stdStrstreams ops (.ofFile fname content) none rfl (fun q hq => nomatch hq)
    show InputIo.observe
        (InputSession.run ⟨.stdStrstreams (.ofFile fname content), false⟩ ops).io = _
      ↔ WithinFile content.length none ops
    refine Iff.trans ?_ hfail
    rw [show (InputSession.run ⟨.stdStrstreams (.ofFile fname content), false⟩ ops).io
        = .stdStrstreams d from hrun]
    show (d.stream.1.rest, d.ibuffer.length) = (content, content.length)
      ↔ d.istream.fail = false
    rw [hbuf, Prod.mk.injEq, d.rest_stream, hbuf]
    cases d.istream.fail with
    | true => exact iff_of_false (fun h => hcontent h.1.symm) Bool.noConfusion
    | false => exact iff_of_true ⟨rfl, rfl⟩ rfl
  | mmapStreams =>
    refine iff_of_true ?_ trivial
    rw [inputAfter, createInputIo, run_mmapStreams]
    rfl

/-- **The input devices are interchangeable exactly after the operations that
all of them survive**: a device of each kind presents the file exactly under
the condition of its kind, and the kinds agree with each other exactly when
all of these conditions hold. -/
theorem inputDevices_interchangeable_iff (fname : String) {content : Bytes}
    (hcontent : content ≠ []) (ops : List InputOp) :
    (∀ type, (inputAfter type fname content ops).observe = (content, content.length)
        ↔ StillPresents content.length ops type) ∧
    ((∀ type type', (inputAfter type fname content ops).observe
        = (inputAfter type' fname content ops).observe)
      ↔ ∀ type, StillPresents content.length ops type) := by
  have hiff := fun type => observe_inputAfter_iff type fname hcontent ops
  refine ⟨hiff, fun h type => ?_, fun h type type' => ?_⟩
  · -- the mapping presents the file in any case
    rw [← hiff type, h type .mmapStreams, hiff .mmapStreams]
    trivial
  · rw [(hiff type).mpr (h type), (hiff type').mpr (h type')]

/-- The file `[1]`, read one byte past its end in a second pass. -/
theorem inputDevices_interchangeable_reread :
    ([91, 49, 93] : Bytes) ≠ [] ∧
      ((∀ type, (inputAfter type "data/data.json" [91, 49, 93]
            [.stream, .read 3, .stream, .read 4]).observe = ([91, 49, 93], 3)
          ↔ StillPresents 3 [.stream, .read 3, .stream, .read 4] type) ∧
        ((∀ type type', (inputAfter type "data/data.json" [91, 49, 93]
              [.stream, .read 3, .stream, .read 4]).observe
            = (inputAfter type' "data/data.json" [91, 49, 93]
              [.stream, .read 3, .stream, .read 4]).observe)
          ↔ ∀ type, StillPresents 3 [.stream, .read 3, .stream, .read 4] type)) :=
  ⟨by decide, inputDevices_interchangeable_iff "data/data.json" (by decide) _⟩

/-- **The string device has no file after `reset()`**, and the string stream
device none after a read past the end. -/
theorem inputDevices_not_interchangeable :
    (inputAfter .stringBuffer "data/data.json" [91, 49, 93] [.stream, .read 3, .reset]).observe
        ≠ ([91, 49, 93], 3) ∧
      (inputAfter .stdStrstreams "data/data.json" [91, 49, 93] [.stream, .read 4]).observe
        ≠ ([91, 49, 93], 3) := by
  decide

end JsonBenchmarks
