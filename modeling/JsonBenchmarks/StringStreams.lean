import Mathlib.Tactic

/-!
# String streams

An input and an output stream over a sequence in memory, with the state bits
and the positions that the standard gives them.

The input stream reads from its position and remembers two failures: that it
met the end, and that an operation asked for more than there was. Seeking
forgets the first and is itself refused by the second, so a stream that was
once read past its end stays empty (`IStringStream.rest_of_fail`).

The output stream overwrites at its put position. What stands behind that
position may be left over from an earlier use, which is why the contents and
what was *written* are two things: `OStringStream.written` is the part before
the put position, and each operation is described by what it does to it.
-/

namespace StringStreams

variable {α : Type}

/-! ## Input -/

/-- **An input string stream**: a buffer, the get position in it, and the
state bits `eofbit` and `failbit`. -/
structure IStringStream (α : Type) where
  buf : List α
  pos : ℕ
  eof : Bool
  fail : Bool
  pos_le : pos ≤ buf.length

namespace IStringStream

/-- A stream over a buffer, at its first element. -/
def ofBuffer (buf : List α) : IStringStream α := ⟨buf, 0, false, false, Nat.zero_le _⟩

/-- No state bit is set. -/
def good (s : IStringStream α) : Bool := !s.eof && !s.fail

/-- `seekg`: forgets that the end was met, and moves unless the stream has
failed or there is no such position. -/
def seekg (s : IStringStream α) (p : ℕ) : IStringStream α :=
  if s.fail then { s with eof := false }
  else if h : p ≤ s.buf.length then { s with pos := p, eof := false, pos_le := h }
  else { s with eof := false, fail := true }

/-- `read`: up to `n` elements from the position. A stream that is not good
fails, and so does one that has fewer than `n` left. -/
def read (s : IStringStream α) (n : ℕ) : List α × IStringStream α :=
  if s.good then
    if h : s.pos + n ≤ s.buf.length then
      ((s.buf.drop s.pos).take n, { s with pos := s.pos + n, pos_le := h })
    else
      (s.buf.drop s.pos,
        { s with pos := s.buf.length, eof := true, fail := true, pos_le := le_rfl })
  else ([], { s with fail := true })

/-- Everything that can still be read. -/
def rest (s : IStringStream α) : List α := if s.good then s.buf.drop s.pos else []

@[simp] theorem seekg_buf (s : IStringStream α) (p : ℕ) : (s.seekg p).buf = s.buf := by
  unfold seekg
  split
  · rfl
  · split <;> rfl

@[simp] theorem read_buf (s : IStringStream α) (n : ℕ) : (s.read n).2.buf = s.buf := by
  unfold read
  split
  · split <;> rfl
  · rfl

theorem fail_of_good {s : IStringStream α} (h : s.good = true) : s.fail = false := by
  simpa [good] using (Bool.and_eq_true_iff.mp h).2

/-- A failed stream has nothing left to read. -/
theorem rest_of_fail {s : IStringStream α} (h : s.fail = true) : s.rest = [] := by
  simp [rest, good, h]

/-- **Seeking does not repair a failed stream.** -/
theorem seekg_fail {s : IStringStream α} (h : s.fail = true) (p : ℕ) :
    (s.seekg p).fail = true := by
  simp [seekg, h]

/-- Nor does reading. -/
theorem read_fail {s : IStringStream α} (h : s.fail = true) (n : ℕ) :
    (s.read n).2.fail = true := by
  simp [read, good, h]

/-- Rewinding a stream that has not failed makes it good, at its start. -/
theorem seekg_zero_of_ok {s : IStringStream α} (h : s.fail = false) :
    (s.seekg 0).good = true ∧ (s.seekg 0).pos = 0 := by
  simp [seekg, good, h]

/-- **Rewinding a stream that has not failed presents the whole buffer.** -/
theorem rest_seekg_zero {s : IStringStream α} (h : s.fail = false) :
    (s.seekg 0).rest = s.buf := by
  rw [rest, if_pos (seekg_zero_of_ok h).1, (seekg_zero_of_ok h).2, seekg_buf, List.drop_zero]

/-- A read that the buffer covers only advances. -/
theorem read_of_le {s : IStringStream α} {n : ℕ} (hg : s.good = true)
    (h : s.pos + n ≤ s.buf.length) :
    (s.read n).2.good = true ∧ (s.read n).2.pos = s.pos + n := by
  unfold read
  rw [if_pos hg, dif_pos h]
  exact ⟨hg, rfl⟩

/-- A read that the buffer does not cover fails. -/
theorem read_of_lt {s : IStringStream α} {n : ℕ} (h : s.buf.length < s.pos + n) :
    (s.read n).2.fail = true := by
  unfold read
  split
  · rw [dif_neg (Nat.not_le_of_lt h)]
  · rfl

end IStringStream

/-! ## Output -/

/-- **An output string stream**: its contents up to the high-water mark, the
put position in them, and `failbit`. -/
structure OStringStream (α : Type) where
  buf : List α
  put : ℕ
  fail : Bool
  put_le : put ≤ buf.length

namespace OStringStream

/-- A new stream. -/
def empty : OStringStream α := ⟨[], 0, false, le_rfl⟩

/-- Writing overwrites at the put position and extends the contents where
they end. -/
def write (s : OStringStream α) (w : List α) : OStringStream α :=
  if s.fail then s
  else
    { buf := s.buf.take s.put ++ w ++ s.buf.drop (s.put + w.length)
      put := s.put + w.length
      fail := false
      put_le := by
        have h := s.put_le
        simp only [List.length_append, List.length_take]
        omega }

/-- `seekp`. -/
def seekp (s : OStringStream α) (p : ℕ) : OStringStream α :=
  if s.fail then s
  else if h : p ≤ s.buf.length then { s with put := p, put_le := h }
  else { s with fail := true }

/-- `str(contents)`: replaces the contents and puts at their start. -/
def setStr (s : OStringStream α) (contents : List α) : OStringStream α :=
  { s with buf := contents, put := 0, put_le := Nat.zero_le _ }

/-- `str()`: all of the contents, also behind the put position. -/
def str (s : OStringStream α) : List α := s.buf

/-- `tellp`: the put position, or nothing for a failed stream. -/
def tellp (s : OStringStream α) : Option ℕ := if s.fail then none else some s.put

/-- **What was written**: the contents before the put position. -/
def written (s : OStringStream α) : List α := s.buf.take s.put

theorem length_written (s : OStringStream α) : s.written.length = s.put := by
  rw [written, List.length_take, min_eq_left s.put_le]

/-- `tellp` counts what was written. -/
theorem tellp_eq {s : OStringStream α} (h : s.fail = false) :
    s.tellp = some s.written.length := by
  rw [tellp, h, length_written]
  rfl

/-- **Writing appends to what was written**, whatever stands behind it. -/
theorem written_write {s : OStringStream α} (h : s.fail = false) (w : List α) :
    (s.write w).written = s.written ++ w ∧ (s.write w).fail = false := by
  have hlen : (s.buf.take s.put ++ w).length = s.put + w.length := by
    rw [List.length_append, ← written, length_written]
  simp only [write, h, Bool.false_eq_true, if_false, written, and_true]
  rw [← hlen, List.take_left]

/-- Going back to the start forgets what was written, although the contents
stay. -/
theorem written_seekp_zero {s : OStringStream α} (h : s.fail = false) :
    (s.seekp 0).written = [] ∧ (s.seekp 0).fail = false := by
  simp [seekp, h, written]

/-- So does replacing the contents, whatever they are replaced by. -/
theorem written_setStr {s : OStringStream α} (h : s.fail = false) (contents : List α) :
    (s.setStr contents).written = [] ∧ (s.setStr contents).fail = false := by
  simp [setStr, h, written]

@[simp] theorem written_empty : (empty : OStringStream α).written = [] := rfl

@[simp] theorem fail_empty : (empty : OStringStream α).fail = false := rfl

end OStringStream

end StringStreams
