import JsonBenchmarks.EditHistory
import JsonBenchmarks.OutputDevices

/-!
# The mapped output device

The third output device is a mapping of a file, `mmsink`, which a library writes
through a pointer. Its file is not truncated when it is opened, and it is
resized for every reservation, so the device does not know how much was written
into it: its size is that of the last reservation, and its bytes are those that
were written last, whenever that was (`outputMmap_history`).

So the device hands over what was written in a pass exactly if the reservation
of the pass is exact (`outputMmap_exact_iff`), where the other two devices
always do. The assertions are enabled: a reservation of nothing ends the
process, since a mapping cannot be empty, and it does so after the file was
emptied.
-/

namespace JsonBenchmarks

open EditHistory

/-! ## The mapping -/

/-- What the system calls do. They answer by the size that is asked for, so a
size that is refused once is always refused. A path cannot be empty, nor can a
mapping. -/
structure MappingHost where
  /-- `open` with `O_CREAT`. -/
  opens : String → Bool
  /-- `ftruncate`. -/
  holds : ℕ → Bool
  /-- `mmap` and `mremap`. -/
  maps : ℕ → Bool
  /-- `posix_madvise`. -/
  advises : ℕ → Bool
  opens_empty : opens "" = false
  maps_zero : maps 0 = false

/-- `mmsink`. The mapping is shared, so its bytes are those of the file. -/
structure Mmsink where
  ofname : String
  file : Bytes
  mSize : ℕ
  length_eq : file.length = mSize
  pos : 0 < mSize

/-- What becomes of a device. An assertion leaves the contents of the file, if
there is one. -/
inductive SinkRun
  | running (sink : Mmsink)
  | aborted (file : Option Bytes)
  | outside

theorem length_resizeString (s : Bytes) (n : ℕ) : (resizeString s n).length = n :=
  Edit.length_apply 0 s (.resize n)

theorem MappingHost.pos_of_maps (host : MappingHost) {n : ℕ} (h : host.maps n = true) : 0 < n := by
  refine Nat.pos_of_ne_zero ?_
  rintro rfl
  exact Bool.noConfusion (host.maps_zero.symm.trans h)

namespace Mmsink

/-- The constructor, by `open()`. What the file holds before is `old`. -/
def create (host : MappingHost) (ofname : String) (maxSize : ℕ) (old : Bytes) : SinkRun :=
  if host.opens ofname then
    if host.holds maxSize then
      if h : host.maps maxSize = true then
        if host.advises maxSize then
          .running ⟨ofname, resizeString old maxSize, maxSize, length_resizeString old maxSize,
            host.pos_of_maps h⟩
        else .aborted (some (resizeString old maxSize))
      else .aborted (some (resizeString old maxSize))
    else .aborted (some old)
  else .aborted none

/-- `resize()`. Its result is not used. -/
def resize (host : MappingHost) (d : Mmsink) (newSize : ℕ) : SinkRun :=
  if host.holds newSize then
    if h : host.maps newSize = true then
      .running ⟨d.ofname, resizeString d.file newSize, newSize,
        length_resizeString d.file newSize, host.pos_of_maps h⟩
    else .aborted (some (resizeString d.file newSize))
  else .aborted (some d.file)

/-- A write through `data()`, which must not leave the mapping. -/
def store (d : Mmsink) (offset : ℕ) (w : Bytes) : SinkRun :=
  if offset + w.length ≤ d.mSize then
    .running { d with
      file := (Edit.overwrite offset w).apply 0 d.file
      length_eq := (Edit.length_apply 0 d.file (.overwrite offset w)).trans d.length_eq }
  else .outside

end Mmsink

/-! ## The device -/

/-- What is done to an `output_mmap_stream_io`. -/
inductive SinkOp
  | reset
  | reserve (size : ℕ)
  | resize (size : ℕ)
  | store (offset : ℕ) (w : Bytes)

/-- One operation. `reset()` does nothing, and `resize()` reserves. -/
def SinkOp.run (host : MappingHost) (d : Mmsink) : SinkOp → SinkRun
  | .reset => .running d
  | .reserve size => d.resize host size
  | .resize size => d.resize host size
  | .store offset w => d.store offset w

/-- An operation on what has become of the device. -/
def SinkRun.step (host : MappingHost) (r : SinkRun) (op : SinkOp) : SinkRun :=
  match r with
  | .running d => op.run host d
  | r => r

/-- **Operations on a device**, which is opened with 1024 bytes. -/
def runOutputMmap (host : MappingHost) (ofname : String) (old : Bytes) (ops : List SinkOp) :
    SinkRun :=
  ops.foldl (SinkRun.step host) (Mmsink.create host ofname 1024 old)

/-! ## What the device holds -/

/-- The edit that an operation makes. -/
def SinkOp.edit : SinkOp → Option (Edit UInt8)
  | .reset => none
  | .reserve size => some (.resize size)
  | .resize size => some (.resize size)
  | .store offset w => some (.overwrite offset w)

/-- The edits of some operations. -/
def editsOf (ops : List SinkOp) : List (Edit UInt8) := .resize 1024 :: ops.filterMap SinkOp.edit

/-- The size of the last reservation. -/
def reservedSize (ops : List SinkOp) : ℕ :=
  (ops.filterMap SinkOp.edit).foldl Edit.sizeAfter 1024

/-- The system serves an edit. -/
def MappingHost.Serves (host : MappingHost) : Edit UInt8 → Prop
  | .overwrite _ _ => True
  | .resize size => host.holds size = true ∧ host.maps size = true

/-- **A run is possible**: the file is opened, the system serves what is asked
for, and nothing is written outside of the mapping. -/
structure MappingHost.Allows (host : MappingHost) (ofname : String) (old : Bytes)
    (ops : List SinkOp) : Prop where
  opens : host.opens ofname = true
  advises : host.advises 1024 = true
  serves : ∀ e ∈ editsOf ops, host.Serves e
  within : Edit.AllWithin old.length (editsOf ops)

/-- **When an operation leaves the device running**, and with what. -/
theorem SinkOp.run_running (host : MappingHost) (d : Mmsink) (op : SinkOp) :
    ((∃ d', op.run host d = .running d') ↔
        ∀ e ∈ op.edit, host.Serves e ∧ e.Within d.mSize) ∧
      ∀ d', op.run host d = .running d' →
        d'.file = op.edit.elim d.file (Edit.apply 0 d.file) := by
  have hresize : ∀ size, ((∃ d', d.resize host size = .running d') ↔
      ∀ e ∈ some (Edit.resize size), host.Serves e ∧ e.Within d.mSize) ∧
        ∀ d', d.resize host size = .running d' → d'.file = resizeString d.file size := by
    intro size
    simp only [Option.mem_some_iff, forall_eq', Edit.Within, and_true, MappingHost.Serves]
    unfold Mmsink.resize
    split_ifs with hholds hmaps
    · exact ⟨iff_of_true ⟨_, rfl⟩ ⟨hholds, hmaps⟩, fun d' h => SinkRun.running.inj h ▸ rfl⟩
    · exact ⟨iff_of_false (fun ⟨_, h⟩ => nomatch h) fun h => hmaps h.2, fun d' h => nomatch h⟩
    · exact ⟨iff_of_false (fun ⟨_, h⟩ => nomatch h) fun h => hholds h.1, fun d' h => nomatch h⟩
  cases op with
  | reset =>
    refine ⟨iff_of_true ⟨d, rfl⟩ (fun e he => nomatch he), fun d' h => ?_⟩
    exact SinkRun.running.inj h ▸ rfl
  | reserve size => exact hresize size
  | resize size => exact hresize size
  | store offset w =>
    show ((∃ d', d.store offset w = _) ↔ ∀ e ∈ some (Edit.overwrite offset w), _) ∧
      ∀ d', d.store offset w = _ → _
    simp only [Option.mem_some_iff, forall_eq', MappingHost.Serves, true_and, Edit.Within]
    unfold Mmsink.store
    split_ifs with hwithin
    · exact ⟨iff_of_true ⟨_, rfl⟩ hwithin, fun d' h => SinkRun.running.inj h ▸ rfl⟩
    · exact ⟨iff_of_false (fun ⟨_, h⟩ => nomatch h) hwithin, fun d' h => nomatch h⟩

/-- The first edit is made when the device is opened. -/
theorem Mmsink.create_running (host : MappingHost) (ofname : String) (maxSize : ℕ)
    (old : Bytes) :
    ((∃ d, Mmsink.create host ofname maxSize old = .running d) ↔
        host.opens ofname = true ∧ host.advises maxSize = true ∧ host.Serves (.resize maxSize)) ∧
      ∀ d, Mmsink.create host ofname maxSize old = .running d →
        d.file = resizeString old maxSize := by
  unfold Mmsink.create
  split_ifs with hopens hholds hmaps hadvises
  · exact ⟨iff_of_true ⟨_, rfl⟩ ⟨hopens, hadvises, hholds, hmaps⟩,
      fun d h => SinkRun.running.inj h ▸ rfl⟩
  · exact ⟨iff_of_false (fun ⟨_, h⟩ => nomatch h) fun h => hadvises h.2.1, fun d h => nomatch h⟩
  · exact ⟨iff_of_false (fun ⟨_, h⟩ => nomatch h) fun h => hmaps h.2.2.2, fun d h => nomatch h⟩
  · exact ⟨iff_of_false (fun ⟨_, h⟩ => nomatch h) fun h => hholds h.2.2.1, fun d h => nomatch h⟩
  · exact ⟨iff_of_false (fun ⟨_, h⟩ => nomatch h) fun h => hopens h.1, fun d h => nomatch h⟩

/-- A device that is gone stays so. -/
theorem SinkRun.step_eq_running_iff (host : MappingHost) (r : SinkRun) (op : SinkOp)
    (d : Mmsink) :
    r.step host op = .running d ↔ ∃ d₀, r = .running d₀ ∧ op.run host d₀ = .running d := by
  cases r with
  | running d₀ =>
    simp only [SinkRun.running.injEq, exists_eq_left']
    rfl
  | aborted file => exact iff_of_false (fun h => nomatch h) fun ⟨_, h, _⟩ => nomatch h
  | outside => exact iff_of_false (fun h => nomatch h) fun ⟨_, h, _⟩ => nomatch h

/-- One operation more. -/
theorem runOutputMmap_append_singleton (host : MappingHost) (ofname : String) (old : Bytes)
    (ops : List SinkOp) (op : SinkOp) :
    runOutputMmap host ofname old (ops ++ [op])
      = (runOutputMmap host ofname old ops).step host op := by
  rw [runOutputMmap, List.foldl_append]
  rfl

/-- The edits with one operation more. -/
theorem editsOf_append_singleton (ops : List SinkOp) (op : SinkOp) :
    editsOf (ops ++ [op]) = editsOf ops ++ op.edit.toList := by
  unfold editsOf
  rw [List.filterMap_append, List.cons_append]
  cases h : op.edit with
  | none => rw [List.filterMap_cons_none h]; rfl
  | some e => rw [List.filterMap_cons_some h]; rfl

/-- A run with one operation more is possible if the operation is. -/
theorem MappingHost.allows_append_singleton (host : MappingHost) (ofname : String) (old : Bytes)
    (ops : List SinkOp) (op : SinkOp) :
    host.Allows ofname old (ops ++ [op]) ↔ host.Allows ofname old ops ∧
      ∀ e ∈ op.edit, host.Serves e ∧ e.Within (reservedSize ops) := by
  have hedits := editsOf_append_singleton ops op
  cases hop : op.edit with
  | none =>
    rw [hop, Option.toList_none, List.append_nil] at hedits
    constructor
    · intro h
      exact ⟨⟨h.opens, h.advises, hedits ▸ h.serves, hedits ▸ h.within⟩, fun e he => nomatch he⟩
    · rintro ⟨h, -⟩
      exact ⟨h.opens, h.advises, hedits.symm ▸ h.serves, hedits.symm ▸ h.within⟩
  | some e =>
    rw [hop, Option.toList_some] at hedits
    simp only [Option.mem_some_iff, forall_eq']
    constructor
    · intro h
      have hserves := h.serves
      have hwithin := h.within
      rw [hedits] at hserves hwithin
      obtain ⟨hbefore, he⟩ := (Edit.allWithin_append_singleton _ _ _).mp hwithin
      exact ⟨⟨h.opens, h.advises, fun e' he' => hserves e' (List.mem_append_left _ he'), hbefore⟩,
        hserves e (List.mem_append_right _ List.mem_cons_self), he⟩
    · rintro ⟨h, hserve, he⟩
      refine ⟨h.opens, h.advises, ?_, ?_⟩
      · rw [hedits]
        exact List.forall_mem_append.mpr ⟨h.serves, List.forall_mem_singleton.mpr hserve⟩
      · rw [hedits]
        exact (Edit.allWithin_append_singleton _ _ _).mpr ⟨h.within, he⟩

/-- **The file holds what the edits make of it**, as long as the device is
there. -/
theorem file_of_runOutputMmap {host : MappingHost} {ofname : String} {old : Bytes}
    {ops : List SinkOp} {d : Mmsink} (h : runOutputMmap host ofname old ops = .running d) :
    d.file = Edit.applyAll 0 old (editsOf ops) := by
  induction ops using List.reverseRecOn generalizing d with
  | nil => exact (Mmsink.create_running host ofname 1024 old).2 d h
  | append_singleton ops op ih =>
    rw [runOutputMmap_append_singleton, SinkRun.step_eq_running_iff] at h
    obtain ⟨d₀, hd₀, hop⟩ := h
    rw [(op.run_running host d₀).2 d hop, ih hd₀, editsOf_append_singleton, Edit.applyAll,
      Edit.applyAll, List.foldl_append]
    cases op.edit <;> rfl

/-- Its size is that of the last reservation. -/
theorem mSize_of_runOutputMmap {host : MappingHost} {ofname : String} {old : Bytes}
    {ops : List SinkOp} {d : Mmsink} (h : runOutputMmap host ofname old ops = .running d) :
    d.mSize = reservedSize ops := by
  rw [← d.length_eq, file_of_runOutputMmap h, Edit.length_applyAll]
  rfl

/-- **The device is there exactly if the run is possible.** -/
theorem exists_running_iff (host : MappingHost) (ofname : String) (old : Bytes)
    (ops : List SinkOp) :
    (∃ d, runOutputMmap host ofname old ops = .running d) ↔ host.Allows ofname old ops := by
  induction ops using List.reverseRecOn with
  | nil =>
    refine (Mmsink.create_running host ofname 1024 old).1.trans ?_
    constructor
    · rintro ⟨hopens, hadvises, hserves⟩
      exact ⟨hopens, hadvises, List.forall_mem_singleton.mpr hserves, ⟨trivial, trivial⟩⟩
    · intro h
      exact ⟨h.opens, h.advises, h.serves _ List.mem_cons_self⟩
  | append_singleton ops op ih =>
    rw [host.allows_append_singleton, ← ih, runOutputMmap_append_singleton]
    simp only [SinkRun.step_eq_running_iff]
    constructor
    · rintro ⟨d, d₀, hd₀, hop⟩
      rw [← mSize_of_runOutputMmap hd₀]
      exact ⟨⟨d₀, hd₀⟩, (op.run_running host d₀).1.mp ⟨d, hop⟩⟩
    · rintro ⟨⟨d₀, hd₀⟩, hop⟩
      rw [← mSize_of_runOutputMmap hd₀] at hop
      obtain ⟨d, hd⟩ := (op.run_running host d₀).1.mpr hop
      exact ⟨d, d₀, hd₀, hd⟩

/-- **A mapped output device holds what was written last**, position by
position, in the file that it finds: it is there exactly as long as the system
serves it and nothing is written outside of it, its size is that of the last
reservation, and a position that no write has reached since it was last cut off
holds a NUL byte, or what the file held before. -/
theorem outputMmap_history (host : MappingHost) (ofname : String) (old : Bytes)
    (ops : List SinkOp) :
    ((∃ d, runOutputMmap host ofname old ops = .running d) ↔ host.Allows ofname old ops) ∧
      ∀ d, runOutputMmap host ofname old ops = .running d →
        d.mSize = reservedSize ops ∧
        ∀ i, d.file[i]? = if i < d.mSize then
          some (Edit.lastWritten 0 old (editsOf ops).reverse i) else none := by
  refine ⟨exists_running_iff host ofname old ops, fun d h => ?_⟩
  have hallows := (exists_running_iff host ofname old ops).mp ⟨d, h⟩
  refine ⟨mSize_of_runOutputMmap h, fun i => ?_⟩
  rw [file_of_runOutputMmap h, mSize_of_runOutputMmap h]
  exact Edit.getElem?_applyAll 0 old (editsOf ops) hallows.within i

/-- **No adapter can have this device**: `benchmarks::create_io` gives the output
no name. -/
theorem not_running_of_no_name (host : MappingHost) (old : Bytes) (ops : List SinkOp) :
    ¬ ∃ d, runOutputMmap host "" old ops = .running d := by
  rw [exists_running_iff]
  intro h
  exact Bool.noConfusion (host.opens_empty.symm.trans h.opens)

/-! ## Passes -/

/-- Writes of a library, one behind the other. -/
def storesFrom : ℕ → List Bytes → List SinkOp
  | _, [] => []
  | n, w :: ws => .store n w :: storesFrom (n + w.length) ws

/-- A pass over the device, with its reset. -/
def Pass.sinkOps (p : Pass) : List SinkOp :=
  .reset :: (p.reserve.map SinkOp.reserve).toList ++ storesFrom 0 p.writes

/-- What the writes make of a file. -/
theorem applyAll_storesFrom (s t : Bytes) (ws : List Bytes)
    (h : Edit.AllWithin (s ++ t).length ((storesFrom s.length ws).filterMap SinkOp.edit)) :
    Edit.applyAll 0 (s ++ t) ((storesFrom s.length ws).filterMap SinkOp.edit)
      = s ++ ws.flatten ++ t.drop ws.flatten.length := by
  induction ws generalizing s t with
  | nil => simp [storesFrom, Edit.applyAll]
  | cons w ws ih =>
    obtain ⟨hw, hws⟩ : s.length + w.length ≤ (s ++ t).length ∧ Edit.AllWithin (s ++ t).length
        ((storesFrom (s.length + w.length) ws).filterMap SinkOp.edit) := h
    have hle : w.length ≤ t.length := by
      rw [List.length_append] at hw
      exact Nat.add_le_add_iff_left.mp hw
    have hlength : (s ++ w ++ t.drop w.length).length = (s ++ t).length := by
      rw [List.length_append, List.length_append, List.length_append, List.length_drop]
      omega
    show Edit.applyAll 0 ((Edit.overwrite s.length w).apply 0 (s ++ t))
      ((storesFrom (s.length + w.length) ws).filterMap SinkOp.edit) = _
    rw [← List.length_append] at hws ⊢
    rw [Edit.apply_overwrite_append 0 s t hle, ih (s ++ w) _ (hlength ▸ hws), List.flatten_cons,
      List.drop_drop, List.length_append]
    simp only [List.append_assoc]

/-- They leave the size. -/
theorem foldl_sizeAfter_storesFrom (size n : ℕ) (ws : List Bytes) :
    ((storesFrom n ws).filterMap SinkOp.edit).foldl Edit.sizeAfter size = size := by
  induction ws generalizing n with
  | nil => rfl
  | cons w ws ih => exact ih (n + w.length)

/-- **A mapped output device hands over what was written in a pass exactly if the
last reservation is exact**, whatever was done to it before. Otherwise something
stands behind it. -/
theorem outputMmap_exact_iff (host : MappingHost) (ofname : String) (old : Bytes)
    (ops : List SinkOp) (p : Pass) (d : Mmsink)
    (h : runOutputMmap host ofname old (ops ++ p.sinkOps) = .running d) :
    p.writes.flatten <+: d.file ∧
      (d.file = p.writes.flatten ↔
        p.reserve.getD (reservedSize ops) = p.writes.flatten.length) := by
  let before := editsOf ops ++ ((p.reserve.map SinkOp.reserve).toList).filterMap SinkOp.edit
  have hedits : editsOf (ops ++ p.sinkOps)
      = before ++ (storesFrom 0 p.writes).filterMap SinkOp.edit := by
    unfold editsOf before Pass.sinkOps
    rw [List.filterMap_append, List.cons_append, List.filterMap_cons_none rfl,
      List.filterMap_append]
    simp only [editsOf, List.cons_append, List.append_assoc]
  have hwithin := ((exists_running_iff host ofname old _).mp ⟨d, h⟩).within
  rw [hedits, Edit.allWithin_append, ← Edit.length_applyAll 0] at hwithin
  have hfile : d.file = p.writes.flatten
      ++ (Edit.applyAll 0 old before).drop p.writes.flatten.length := by
    rw [file_of_runOutputMmap h, hedits, Edit.applyAll, List.foldl_append]
    exact applyAll_storesFrom [] _ p.writes hwithin.2
  have hsize : (Edit.applyAll 0 old before).length = p.reserve.getD (reservedSize ops) := by
    rw [Edit.length_applyAll, List.foldl_append]
    cases p.reserve <;> rfl
  refine ⟨⟨_, hfile.symm⟩, ?_⟩
  have hlength : d.file.length = p.reserve.getD (reservedSize ops) := by
    rw [file_of_runOutputMmap h, hedits, Edit.length_applyAll, List.foldl_append,
      foldl_sizeAfter_storesFrom, ← Edit.length_applyAll 0, hsize]
  constructor
  · intro heq
    rw [← hlength, heq]
  · intro heq
    rw [hfile, ← heq, ← hsize, List.drop_length, List.append_nil]

/-- A pass of two bytes, with room for four. -/
theorem outputMmap_exact_two :
    let host : MappingHost :=
      ⟨fun s => s != "", fun _ => true, fun n => n != 0, fun _ => true, rfl, rfl⟩
    let p : Pass := ⟨some 4, [[91], [93]]⟩
    ∃ d, runOutputMmap host "out.json" [123, 125] p.sinkOps = .running d ∧
      [91, 93] <+: d.file ∧ d.file ≠ [91, 93] := by
  intro host p
  have hallows : host.Allows "out.json" [123, 125] ([] ++ p.sinkOps) :=
    { opens := rfl
      advises := rfl
      serves := by
        show ∀ e ∈ [Edit.resize 1024, .resize 4, .overwrite 0 [91], .overwrite 1 [93]], _
        simp [MappingHost.Serves, host]
      within := ⟨trivial, trivial, by decide, by decide, trivial⟩ }
  obtain ⟨d, hd⟩ := (exists_running_iff host "out.json" [123, 125] _).mpr hallows
  obtain ⟨hbegins, hexact⟩ := outputMmap_exact_iff host "out.json" [123, 125] [] p d hd
  exact ⟨d, hd, hbegins, fun h => absurd (hexact.mp h) (by decide)⟩

end JsonBenchmarks
