import Mathlib
import Pintos.Filesys.InodeData
import Pintos.Lib.Ustar
import Pintos.Lib.String

/-!
# Archives on the scratch device

`fsutil_append` and `fsutil_extract` of `filesys/fsutil.c`.  Each `append` writes a file to
the scratch device as a ustar header sector and the file's bytes, a sector at a time with the
last one padded with zeros, from a position that a static variable keeps across calls.  It
then writes the end-of-archive marker at the position after the file without advancing past
it, so that the next `append` writes its header over it.  `extract` reads headers and data
sectors from sector 0 until a header parses as the end of the archive.

Each call has its own `malloc`ed buffer of `BLOCK_SECTOR_SIZE` bytes; `memory` is the memory
from that buffer on.  The marker is written twice to the same sector, the second time from
`buffer + 1`: that sector gets 511 zero bytes and then the byte past the buffer, and the
sector after it is never written.  `extract` reads the marker as the end of the archive only
when that stray byte is zero.

The file system is left out: `append` reads the bytes of an open file, and `extract`
returns the files it creates with their bytes.
-/

namespace Pintos.Fsutil

open Function Memory Ustar Pintos.Partition InodeData

/-- The copy loop of `fsutil_append`: `data` is the file from its current position on, and
`file_read` copies the next chunk of it to the buffer. -/
def appendLoop (memory : Nat → UInt8) (data : List UInt8) (device : Device) (sector size : Nat) :
    Except String (Device × (Nat → UInt8) × Nat) :=
  if size > 0 then do
    let chunkSize := min size blockSectorSize
    if sector ≥ device.size then throw "out of space on scratch device"
    if (data.take chunkSize).length ≠ chunkSize then throw "read failed"
    let memory := write memory 0 (data.take chunkSize)
    let memory := fill memory chunkSize (blockSectorSize - chunkSize) 0
    let device ← blockWrite device sector (Memory.read memory 0 blockSectorSize)
    appendLoop memory (data.drop chunkSize) device (sector + 1) (size - chunkSize)
  else pure (device, memory, sector)
termination_by size
decreasing_by
  all_goals
    simp only [blockSectorSize]
    omega

/-- `fsutil_append` of the file `fileName`, whose bytes are `file` (`none` when `filesys_open`
fails), at the position `sector`; `mallocOk` is whether `malloc` gave the buffer.  It returns
the device and the new position. -/
def fsutilAppend (device : Device) (sector : Nat) (mallocOk : Bool) (memory : Nat → UInt8)
    (fileName : List UInt8) (file : Option (List UInt8)) : Except String (Device × Nat) := do
  if !mallocOk then throw "couldn't allocate buffer"
  let some data := file | throw "open failed"
  let size := data.length
  let (made, memory) ← ustarMakeHeader fileName .regular size memory
  if !made then throw "name too long for ustar format"
  let device ← blockWrite device sector (Memory.read memory 0 blockSectorSize)
  let (device, memory, sector) ← appendLoop memory data device (sector + 1) size
  let memory := fill memory 0 blockSectorSize 0
  let device ← blockWrite device sector (Memory.read memory 0 blockSectorSize)
  let device ← blockWrite device sector (Memory.read memory 1 blockSectorSize)
  return (device, sector)

/-- The copy loop of `fsutil_extract`: the bytes of a file of `size` bytes stored from
`sector` on, and the sector after them. -/
def extractData (device : Device) (sector size : Nat) : Except String (List UInt8 × Nat) :=
  if size > 0 then do
    let chunkSize := min size blockSectorSize
    let data ← blockRead device sector
    let (rest, sector) ← extractData device (sector + 1) (size - chunkSize)
    return (data.take chunkSize ++ rest, sector)
  else pure ([], sector)
termination_by size
decreasing_by
  simp only [blockSectorSize]
  omega

/-- The loop of `fsutil_extract`, for at most `fuel` headers: the files created so far with
their bytes, and the position. -/
def extractLoop (device : Device) : Nat → (Nat → UInt8) → Nat → List (List UInt8 × List UInt8) →
    Except String (List (List UInt8 × List UInt8) × Nat)
  | 0, _, _, _ => throw "out of fuel"
  | fuel + 1, header, sector, files => do
    let bytes ← blockRead device sector
    let header := write header 0 bytes
    let parsed ← (ustarParseHeader header).mapError fun _ => "bad ustar header"
    match parsed.type with
    | .eof => return (files, sector + 1)
    | .directory => extractLoop device fuel header (sector + 1) files
    | .regular =>
      let (data, sector) ← extractData device (sector + 1) parsed.size
      extractLoop device fuel header sector (files ++ [(parsed.fileName.getD [], data)])

/-- `fsutil_extract` from the position `sector`, with `header` the buffer `malloc` gave for
headers: the files, the device after the archive's first two sectors are erased, and the new
position. -/
def fsutilExtract (device : Device) (header : Nat → UInt8) (fuel sector : Nat) :
    Except String (List (List UInt8 × List UInt8) × Device × Nat) := do
  let (files, sector) ← extractLoop device fuel header sector []
  let header := fill header 0 blockSectorSize 0
  let device ← blockWrite device 0 (Memory.read header 0 blockSectorSize)
  let device ← blockWrite device 1 (Memory.read header 0 blockSectorSize)
  return (files, device, sector)

/-! ## Runs of sectors -/

section Place

variable {β : Type}

/-- `f` with `written` stored from index `start` on. -/
def place (f : Nat → β) (start : Nat) : List β → Nat → β
  | [] => f
  | x :: xs => update (place f (start + 1) xs) start x

theorem place_apply (f : Nat → β) (start : Nat) (xs : List β) (i : Nat) :
    place f start xs i =
      if inside : start ≤ i ∧ i - start < xs.length then xs[i - start] else f i := by
  induction xs generalizing start with
  | nil => simp [place]
  | cons x xs ih =>
    rw [place]
    by_cases here : i = start
    · subst here
      simp
    · rw [update_of_ne here, ih]
      by_cases after : start + 1 ≤ i ∧ i - (start + 1) < xs.length
      · have inside : start ≤ i ∧ i - start < (x :: xs).length := by
          simp only [List.length_cons]
          omega
        have shifted : i - start = i - (start + 1) + 1 := by omega
        rw [dif_pos after, dif_pos inside]
        simp only [shifted, List.getElem_cons_succ]
      · have outside : ¬ (start ≤ i ∧ i - start < (x :: xs).length) := by
          simp only [List.length_cons]
          omega
        rw [dif_neg after, dif_neg outside]

theorem place_update (f : Nat → β) (start : Nat) (x : β) (xs : List β) :
    place (update f start x) (start + 1) xs = place f start (x :: xs) := by
  funext i
  rw [place]
  by_cases here : i = start
  · subst here
    rw [update_self, place_apply, dif_neg (by omega), update_self]
  · rw [update_of_ne here, place_apply, place_apply, update_of_ne here]

theorem update_place (f : Nat → β) (start : Nat) (xs : List β) (x : β) :
    update (place f start xs) (start + xs.length) x = place f start (xs ++ [x]) := by
  funext i
  rw [place_apply f start (xs ++ [x])]
  by_cases here : i = start + xs.length
  · subst here
    simp
  · rw [update_of_ne here, place_apply]
    by_cases inside : start ≤ i ∧ i - start < xs.length
    · have inside' : start ≤ i ∧ i - start < (xs ++ [x]).length := by
        simp only [List.length_append, List.length_singleton]
        omega
      rw [dif_pos inside, dif_pos inside', List.getElem_append_left inside.2]
    · have outside : ¬ (start ≤ i ∧ i - start < (xs ++ [x]).length) := by
        simp only [List.length_append, List.length_singleton]
        omega
      rw [dif_neg inside, dif_neg outside]

theorem place_place (f : Nat → β) (start : Nat) (xs : List β) (last : β) {ys : List β}
    (nonempty : ys ≠ []) :
    place (place f start (xs ++ [last])) (start + xs.length) ys = place f start (xs ++ ys) := by
  have long : 0 < ys.length := List.length_pos_iff.mpr nonempty
  funext i
  rw [place_apply, place_apply, place_apply f start (xs ++ ys)]
  by_cases second : start + xs.length ≤ i ∧ i - (start + xs.length) < ys.length
  · have inside : start ≤ i ∧ i - start < (xs ++ ys).length := by
      simp only [List.length_append]
      omega
    have shifted : i - (start + xs.length) = i - start - xs.length := by omega
    rw [dif_pos second, dif_pos inside, List.getElem_append_right (by omega)]
    simp only [shifted]
  · by_cases first : start ≤ i ∧ i - start < xs.length
    · have inside : start ≤ i ∧ i - start < (xs ++ [last]).length := by
        simp only [List.length_append, List.length_singleton]
        omega
      have inside' : start ≤ i ∧ i - start < (xs ++ ys).length := by
        simp only [List.length_append]
        omega
      rw [dif_neg second, dif_pos inside, dif_pos inside', List.getElem_append_left first.2,
        List.getElem_append_left first.2]
    · have outside : ¬ (start ≤ i ∧ i - start < (xs ++ [last]).length) := by
        simp only [List.length_append, List.length_singleton]
        omega
      have outside' : ¬ (start ≤ i ∧ i - start < (xs ++ ys).length) := by
        simp only [List.length_append]
        omega
      rw [dif_neg second, dif_neg outside, dif_neg outside']

/-- `f` holds `xs` from index `start` on. -/
def Stored (f : Nat → β) (start : Nat) (xs : List β) : Prop :=
  ∀ j (inside : j < xs.length), f (start + j) = xs[j]

theorem stored_place (f : Nat → β) (start : Nat) (xs : List β) : Stored (place f start xs) start xs := by
  intro j inside
  rw [place_apply, dif_pos ⟨Nat.le_add_right start j, by omega⟩]
  simp

namespace Stored

variable {f : Nat → β} {start : Nat}

theorem left {xs ys : List β} (stored : Stored f start (xs ++ ys)) : Stored f start xs := by
  intro j inside
  rw [stored j (by simp only [List.length_append]; omega), List.getElem_append_left inside]

theorem right {xs ys : List β} (stored : Stored f start (xs ++ ys)) :
    Stored f (start + xs.length) ys := by
  intro j inside
  rw [Nat.add_assoc, stored (xs.length + j) (by simp only [List.length_append]; omega),
    List.getElem_append_right (by omega)]
  simp

theorem head {x : β} {xs : List β} (stored : Stored f start (x :: xs)) : f start = x :=
  stored 0 (by simp)

theorem tail {x : β} {xs : List β} (stored : Stored f start (x :: xs)) : Stored f (start + 1) xs := by
  have split : Stored f start ([x] ++ xs) := stored
  exact split.right

end Stored

end Place

/-! ## Appending a file -/

/-- A chunk of a file padded with zeros to a sector. -/
def padSector (chunk : List UInt8) : List UInt8 :=
  chunk ++ List.replicate (blockSectorSize - chunk.length) 0

/-- The sectors a file's bytes take in an archive: `DIV_ROUND_UP (size, 512)` chunks of it,
the last padded with zeros. -/
def chunks (data : List UInt8) : List (List UInt8) :=
  (List.range ((data.length + blockSectorSize - 1) / blockSectorSize)).map fun j =>
    padSector ((data.drop (blockSectorSize * j)).take blockSectorSize)

@[simp]
theorem chunks_nil : chunks [] = [] := rfl

theorem length_chunks (data : List UInt8) :
    (chunks data).length = (data.length + blockSectorSize - 1) / blockSectorSize := by
  simp [chunks]

theorem chunks_of_ne_nil {data : List UInt8} (nonempty : data ≠ []) :
    chunks data = padSector (data.take blockSectorSize) :: chunks (data.drop blockSectorSize) := by
  have long : 0 < data.length := List.length_pos_iff.mpr nonempty
  -- the first sector holds the first chunk, and the rest hold the rest of the file
  have count : (data.length + blockSectorSize - 1) / blockSectorSize =
      ((data.drop blockSectorSize).length + blockSectorSize - 1) / blockSectorSize + 1 := by
    simp only [List.length_drop, blockSectorSize]
    omega
  simp only [chunks, count, List.range_succ_eq_map, List.map_cons, List.map_map]
  refine congrArg₂ _ (by simp) (List.map_congr_left fun j _ => ?_)
  simp only [Function.comp, List.drop_drop, Nat.mul_succ, Nat.add_comm]

/-- A chunk of at most a sector copied to the buffer and padded by `memset` is read back as
the padded chunk. -/
theorem read_padded (memory : Nat → UInt8) {chunk : List UInt8} (short : chunk.length ≤ blockSectorSize) :
    Memory.read (fill (write memory 0 chunk) chunk.length (blockSectorSize - chunk.length) 0) 0
      blockSectorSize = padSector chunk := by
  have whole : (padSector chunk).length = blockSectorSize := by
    simp only [padSector, List.length_append, List.length_replicate]
    omega
  have joined := write_append memory 0 chunk (List.replicate (blockSectorSize - chunk.length) 0)
  rw [Nat.zero_add] at joined
  rw [fill, joined]
  have self := read_write_self memory 0 (padSector chunk)
  rw [whole] at self
  exact self

theorem take_min_length (data : List UInt8) (count : Nat) :
    data.take (min data.length count) = data.take count := by
  rcases Nat.le_total data.length count with few | many
  · rw [Nat.min_eq_left few, List.take_of_length_le le_rfl, List.take_of_length_le few]
  · rw [Nat.min_eq_right many]

theorem drop_min_length (data : List UInt8) (count : Nat) :
    data.drop (min data.length count) = data.drop count := by
  rcases Nat.le_total data.length count with few | many
  · rw [Nat.min_eq_left few, List.drop_of_length_le le_rfl, List.drop_of_length_le few]
  · rw [Nat.min_eq_right many]

/-- The copy loop of `fsutil_append` writes the file's sectors one after another and touches no
memory past the buffer. -/
theorem appendLoop_eq (memory : Nat → UInt8) (data : List UInt8) (device : Device) (sector : Nat)
    (fits : sector + (chunks data).length ≤ device.size) :
    ∃ memory', appendLoop memory data device sector data.length =
        .ok ({ device with sectors := place device.sectors sector (chunks data) }, memory',
          sector + (chunks data).length) ∧
      ∀ location, blockSectorSize ≤ location → memory' location = memory location := by
  -- on the length of what is left of the file
  induction h : data.length using Nat.strong_induction_on generalizing data memory device sector with
  | _ n ih =>
    by_cases empty : data = []
    · subst empty
      subst h
      refine ⟨memory, ?_, fun _ _ => rfl⟩
      rw [appendLoop, if_neg (by simp)]
      rfl
    · have chunked := chunks_of_ne_nil empty
      have long : 0 < n := h ▸ List.length_pos_iff.mpr empty
      have inside : sector < device.size := by
        rw [chunked, List.length_cons] at fits
        omega
      -- the chunk of this turn: the whole rest of the file or a sector of it
      have took : (data.take (min n blockSectorSize)).length = min n blockSectorSize := by
        rw [List.length_take, h]
        exact Nat.min_eq_left (Nat.min_le_left _ _)
      have chunked' : chunks data = padSector (data.take (min n blockSectorSize)) ::
          chunks (data.drop (min n blockSectorSize)) := by
        rw [← h, take_min_length, drop_min_length]
        exact chunked
      have padded := read_padded memory (show (data.take (min n blockSectorSize)).length ≤ blockSectorSize by
        rw [took]
        exact Nat.min_le_right _ _)
      rw [took] at padded
      obtain ⟨memory', loop, frame⟩ := ih (n - min n blockSectorSize) (by simp only [blockSectorSize]; omega)
        (fill (write memory 0 (data.take (min n blockSectorSize))) (min n blockSectorSize)
          (blockSectorSize - min n blockSectorSize) 0)
        (data.drop (min n blockSectorSize))
        { device with sectors := update device.sectors sector (padSector (data.take (min n blockSectorSize))) }
        (sector + 1) (by rw [chunked', List.length_cons] at fits; show _ ≤ device.size; omega)
        (by rw [List.length_drop, h])
      refine ⟨memory', ?_, fun location beyond => ?_⟩
      · rw [appendLoop, if_pos long]
        simp only [ge_iff_le, Nat.not_le.mpr inside, if_false, took, ne_eq, not_true_eq_false,
          padded, blockWrite_eq inside, bind, Except.bind, loop]
        rw [chunked', ← place_update, List.length_cons, Nat.add_assoc, Nat.add_comm 1]
      · rw [frame location beyond, fill_outside _ _ (by omega), write_outside _ (by rw [took]; omega)]

/-- The header sector `fsutil_append` writes for a file. -/
def headerSector (fileName data : List UInt8) (memory : Nat → UInt8) : List UInt8 :=
  match ustarMakeHeader fileName .regular data.length memory with
  | .ok (_, made) => Memory.read made 0 blockSectorSize
  | .error _ => []

/-- What the two writes of the end-of-archive marker leave in its sector: 511 zero bytes, then
the byte past the buffer. -/
def marker (stray : UInt8) : List UInt8 := List.replicate (blockSectorSize - 1) 0 ++ [stray]

theorem read_marker (memory : Nat → UInt8) :
    Memory.read (fill memory 0 blockSectorSize 0) 1 blockSectorSize = marker (memory blockSectorSize) := by
  have zeros : Memory.read (fill memory 0 blockSectorSize 0) 1 (blockSectorSize - 1) =
      List.replicate (blockSectorSize - 1) 0 := by
    apply List.ext_getElem
    · simp [Memory.read]
    · intro i inside _
      simp only [Memory.read, List.getElem_map, List.getElem_range, List.getElem_replicate]
      simp only [Memory.read, List.length_map, List.length_range] at inside
      exact fill_of_mem memory 0 (by simp only [blockSectorSize] at inside ⊢; omega)
  have stray : Memory.read (fill memory 0 blockSectorSize 0) (1 + (blockSectorSize - 1)) 1 =
      [memory blockSectorSize] := by
    simp only [Memory.read, List.range_one, List.map_singleton, Nat.add_zero, List.cons.injEq, and_true]
    exact fill_outside memory 0 (by decide)
  have whole := read_add (fill memory 0 blockSectorSize 0) 1 (blockSectorSize - 1) 1
  rw [zeros, stray] at whole
  exact whole

theorem blockWrite_mk {size sector : Nat} (sectors : Nat → List UInt8) (inside : sector < size)
    (bytes : List UInt8) :
    blockWrite ⟨size, sectors⟩ sector bytes = .ok ⟨size, update sectors sector bytes⟩ :=
  blockWrite_eq inside bytes

/-- `fsutil_append` of a file whose name fits writes its header and its sectors from the
position on, then the marker after them, and returns the marker's position. -/
theorem fsutilAppend_eq (device : Device) (sector : Nat) (memory : Nat → UInt8)
    {fileName : List UInt8} (data : List UInt8) (short : (stripAntisocialPrefixes fileName).length ≤ 99)
    (fits : sector + 1 + (chunks data).length < device.size) :
    fsutilAppend device sector true memory fileName (some data) =
      .ok ({ device with
          sectors := place device.sectors sector
            (headerSector fileName data memory :: chunks data ++ [marker (memory blockSectorSize)]) },
        sector + 1 + (chunks data).length) := by
  have made := ustarMakeHeader_of_short (Or.inl rfl) short (data.length : Int) memory
  generalize snprintfOctal _ _ _ _ _ = header at made
  have headerBytes : headerSector fileName data memory = Memory.read header 0 blockSectorSize := by
    simp only [headerSector, made]
  have kept : ∀ location, blockSectorSize ≤ location → header location = memory location :=
    fun location beyond => ustarMakeHeader_outside made beyond
  have inside : sector < device.size := by omega
  obtain ⟨memory', loop, frame⟩ := appendLoop_eq header data
    { device with sectors := update device.sectors sector (Memory.read header 0 blockSectorSize) }
    (sector + 1) (by show _ ≤ device.size; omega)
  have atMarker : sector + 1 + (chunks data).length < device.size := fits
  have stray : memory' blockSectorSize = memory blockSectorSize := by
    rw [frame _ le_rfl, kept _ le_rfl]
  simp only [fsutilAppend, Bool.not_true, Bool.false_eq_true, if_false, made, blockWrite_eq inside,
    bind, Except.bind, loop, blockWrite_mk _ atMarker, read_marker, stray, pure, Except.pure]
  rw [update_idem, place_update, headerBytes, ← update_place]
  simp only [List.length_cons]
  rw [Nat.add_comm (chunks data).length 1, ← Nat.add_assoc]

/-! ## Runs of appends -/

/-- One `append` command: the file's name and bytes, and the memory from the buffer `malloc`
gives that call on. -/
structure Call where
  fileName : List UInt8
  data : List UInt8
  memory : Nat → UInt8

/-- Successive `append` commands, which share the position. -/
def appendAll (device : Device) (sector : Nat) : List Call → Except String (Device × Nat)
  | [] => pure (device, sector)
  | call :: calls => do
    let (device, sector) ← fsutilAppend device sector true call.memory call.fileName (some call.data)
    appendAll device sector calls

/-- The sectors of the archive of the files of the calls: each header, then the file's
sectors. -/
def archive : List Call → List (List UInt8)
  | [] => []
  | call :: calls => headerSector call.fileName call.data call.memory :: chunks call.data ++ archive calls

theorem length_archive_cons (call : Call) (calls : List Call) :
    (archive (call :: calls)).length = 1 + (chunks call.data).length + (archive calls).length := by
  simp only [archive, List.cons_append, List.length_cons, List.length_append]
  omega

/-- A run of appends writes the archive of its files from the first position on, and after it
the marker of the last call; each call's marker is overwritten by the next call's header. -/
theorem appendAll_eq (device : Device) (sector : Nat) {calls : List Call} (nonempty : calls ≠ [])
    (short : ∀ call ∈ calls, (stripAntisocialPrefixes call.fileName).length ≤ 99)
    (fits : sector + (archive calls).length < device.size) :
    appendAll device sector calls =
      .ok ({ device with
          sectors := place device.sectors sector
            (archive calls ++ [marker ((calls.getLast nonempty).memory blockSectorSize)]) },
        sector + (archive calls).length) := by
  induction calls generalizing device sector with
  | nil => exact absurd rfl nonempty
  | cons call calls ih =>
    rw [length_archive_cons] at fits
    have first := fsutilAppend_eq device sector call.memory call.data
      (short call List.mem_cons_self) (by omega)
    simp only [appendAll, first, bind, Except.bind]
    cases calls with
    | nil =>
      simp only [appendAll, archive, List.cons_append, List.append_nil, List.getLast_singleton,
        List.length_cons, pure, Except.pure]
      rw [Nat.add_assoc, Nat.add_comm 1]
    | cons next rest =>
      rw [ih _ _ (List.cons_ne_nil next rest) (fun c member => short c (List.mem_cons_of_mem call member))
        (by show _ < device.size; omega)]
      -- the next header lands on this call's marker
      rw [show sector + 1 + (chunks call.data).length =
          sector + (headerSector call.fileName call.data call.memory :: chunks call.data).length by
        simp only [List.length_cons]; omega,
        place_place _ _ _ _ (List.append_ne_nil_of_right_ne_nil _ (List.cons_ne_nil _ []))]
      simp only [archive, List.cons_append, List.append_assoc, List.getLast_cons (List.cons_ne_nil next rest),
        List.length_cons, List.length_append, Except.ok.injEq, Prod.mk.injEq, true_and]
      omega

/-! ## Extracting the archive -/

theorem take_padSector (chunk : List UInt8) : (padSector chunk).take chunk.length = chunk := by
  simp [padSector]

/-- The copy loop of `fsutil_extract` reads back the bytes of a file from its sectors. -/
theorem extractData_eq {device : Device} {sector : Nat} (data : List UInt8)
    (stored : Stored device.sectors sector (chunks data))
    (fits : sector + (chunks data).length ≤ device.size) :
    extractData device sector data.length = .ok (data, sector + (chunks data).length) := by
  induction h : data.length using Nat.strong_induction_on generalizing data sector with
  | _ n ih =>
    by_cases empty : data = []
    · subst empty
      subst h
      rw [extractData, if_neg (by simp)]
      rfl
    · have long : 0 < n := h ▸ List.length_pos_iff.mpr empty
      have took : (data.take (min n blockSectorSize)).length = min n blockSectorSize := by
        rw [List.length_take, h]
        exact Nat.min_eq_left (Nat.min_le_left _ _)
      have chunked : chunks data = padSector (data.take (min n blockSectorSize)) ::
          chunks (data.drop (min n blockSectorSize)) := by
        rw [← h, take_min_length, drop_min_length]
        exact chunks_of_ne_nil empty
      rw [chunked] at stored fits
      simp only [List.length_cons] at fits
      have inside : sector < device.size := by omega
      have rest := ih (n - min n blockSectorSize) (by simp only [blockSectorSize]; omega)
        (data.drop (min n blockSectorSize)) stored.tail (by omega) (by rw [List.length_drop, h])
      rw [extractData, if_pos long]
      simp only [blockRead_eq inside, stored.head, bind, Except.bind, rest, pure, Except.pure]
      have readBack : (padSector (data.take (min n blockSectorSize))).take (min n blockSectorSize) =
          data.take (min n blockSectorSize) := by
        have padded := take_padSector (data.take (min n blockSectorSize))
        rwa [took] at padded
      rw [readBack, List.take_append_drop, chunked, List.length_cons, Nat.add_assoc, Nat.add_comm 1]

/-- A header sector written by `fsutil_append` parses as the file's stripped name, a regular
file, and its size. -/
theorem parse_headerSector (header : Nat → UInt8) {fileName : List UInt8} (cString : 0 ∉ fileName)
    (short : (stripAntisocialPrefixes fileName).length ≤ 99) {data : List UInt8}
    (small : data.length ≤ 2147483647) (memory : Nat → UInt8) :
    ustarParseHeader (write header 0 (headerSector fileName data memory)) =
      .ok ⟨some (stripAntisocialPrefixes fileName), .regular, data.length⟩ := by
  have made := ustarMakeHeader_of_short (Or.inl rfl) short (data.length : Int) memory
  have parsed := @ustarParseHeader_made (stripAntisocialPrefixes fileName) .regular (data.length : Int)
    memory (zero_not_mem_stripAntisocialPrefixes cString) short (Or.inl rfl) (by omega) (by omega)
  generalize snprintfOctal _ _ _ _ _ = made' at made parsed
  have headerBytes : headerSector fileName data memory = Memory.read made' 0 blockSectorSize := by
    simp only [headerSector, made]
  -- the buffer holds the header's bytes where the parser reads
  have agree : ∀ i < ustarHeaderSize, write header 0 (Memory.read made' 0 blockSectorSize) i = made' i := by
    intro i inside
    have inRead : i < (Memory.read made' 0 blockSectorSize).length := by
      simp only [Memory.read, List.length_map, List.length_range]
      exact inside
    have written := write_inside header 0 inRead
    rw [Nat.zero_add] at written
    rw [written, List.getD_eq_getElem _ _ inRead]
    simp [Memory.read]
  rw [headerBytes, ustarParseHeader_congr agree, parsed, stripAntisocialPrefixes_idem]
  simp

/-- The marker sector parses as the end of the archive exactly when the stray byte is zero;
otherwise it has no ustar magic. -/
theorem parse_marker (header : Nat → UInt8) (stray : UInt8) :
    ustarParseHeader (write header 0 (marker stray)) =
      if stray = 0 then .ok ⟨none, .eof, 0⟩ else .error "not a ustar archive" := by
  have whole : (marker stray).length = ustarHeaderSize := by
    simp only [marker, List.length_append, List.length_replicate, List.length_singleton]
    rfl
  have zeros : isAllZeros (Memory.read (write header 0 (marker stray)) 0 ustarHeaderSize) = (stray == 0) := by
    rw [← whole, read_write_self]
    simp only [isAllZeros, marker, List.all_append, List.all_replicate]
    simp
  -- the magic lies among the zero bytes
  have magic : Memory.read (write header 0 (marker stray)) Field.magic.offsetof 6 = List.replicate 6 0 := rfl
  unfold ustarParseHeader
  rw [zeros]
  by_cases zero : stray = 0
  · simp only [zero, beq_self_eq_true, if_true]
    rfl
  · have notZero : (stray == 0) = false := by simpa using zero
    simp only [notZero, Bool.false_eq_true, if_false, magic, zero]
    rfl

/-- `fsutil_extract`'s loop over an archive that `fsutil_append` wrote creates its files, and
stops at the marker if the stray byte is zero; otherwise it panics there. -/
theorem extractLoop_archive {device : Device} (header : Nat → UInt8) {calls : List Call} {sector : Nat}
    (stray : UInt8) (stored : Stored device.sectors sector (archive calls ++ [marker stray]))
    (fits : sector + (archive calls).length < device.size)
    (cStrings : ∀ call ∈ calls, 0 ∉ call.fileName)
    (short : ∀ call ∈ calls, (stripAntisocialPrefixes call.fileName).length ≤ 99)
    (small : ∀ call ∈ calls, call.data.length ≤ 2147483647)
    (files : List (List UInt8 × List UInt8)) {fuel : Nat} (enough : calls.length < fuel) :
    extractLoop device fuel header sector files =
      if stray = 0 then
        .ok (files ++ calls.map fun call => (stripAntisocialPrefixes call.fileName, call.data),
          sector + (archive calls).length + 1)
      else .error "bad ustar header" := by
  obtain ⟨fuel, rfl⟩ : ∃ turns, fuel = turns + 1 := ⟨fuel - 1, by omega⟩
  induction calls generalizing header sector files fuel with
  | nil =>
    -- the marker's sector
    have inside : sector < device.size := by simpa [archive] using fits
    have atMarker : device.sectors sector = marker stray := stored.head
    simp only [extractLoop, blockRead_eq inside, atMarker, bind, Except.bind, parse_marker,
      Except.mapError]
    by_cases zero : stray = 0
    · simp only [zero, if_true, archive, List.map_nil, List.append_nil, List.length_nil, Nat.add_zero]
      rfl
    · simp only [zero, if_false]
  | cons call calls ih =>
    rw [length_archive_cons] at fits
    have inside : sector < device.size := by omega
    have split : Stored device.sectors sector
        (headerSector call.fileName call.data call.memory :: (chunks call.data ++ (archive calls ++ [marker stray]))) := by
      simpa [archive] using stored
    have atHeader : device.sectors sector = headerSector call.fileName call.data call.memory := split.head
    have parsed := parse_headerSector header (cStrings call List.mem_cons_self) (short call List.mem_cons_self)
      (small call List.mem_cons_self) call.memory
    have copied := extractData_eq call.data split.tail.left (by omega)
    obtain ⟨turns, rfl⟩ : ∃ turns, fuel = turns + 1 := ⟨fuel - 1, by simp at enough; omega⟩
    have rest := ih (write header 0 (headerSector call.fileName call.data call.memory))
      split.tail.right (by omega)
      (fun c member => cStrings c (List.mem_cons_of_mem call member))
      (fun c member => short c (List.mem_cons_of_mem call member))
      (fun c member => small c (List.mem_cons_of_mem call member))
      (files ++ [(stripAntisocialPrefixes call.fileName, call.data)]) turns (by simp at enough; omega)
    rw [extractLoop]
    simp only [blockRead_eq inside, atHeader, bind, Except.bind, parsed, Except.mapError, copied,
      Option.getD_some, rest]
    simp only [List.append_assoc, List.singleton_append, List.map_cons, length_archive_cons]
    by_cases zero : stray = 0
    · simp only [zero, if_true, Except.ok.injEq, Prod.mk.injEq, true_and]
      omega
    · simp only [zero, if_false]

/-! ## What the appends leave -/

/-- A run of `fsutil_append` calls on files whose names are C strings of at most 99 bytes
writes, from sector 0, each file's header and its sectors.  The sector after them holds 511
zero bytes and then the byte past the last call's buffer, and no sector after that is
written.  `fsutil_extract` on the device then creates every file, in order and with its bytes,
and stops at that sector when the stray byte is zero; when it is not, it panics there. -/
theorem appendAll_leaves_stray_marker {device : Device} {calls : List Call} (nonempty : calls ≠ [])
    (cStrings : ∀ call ∈ calls, 0 ∉ call.fileName) (short : ∀ call ∈ calls, call.fileName.length ≤ 99)
    (small : ∀ call ∈ calls, call.data.length ≤ 2147483647)
    (fits : (archive calls).length < device.size) :
    ∃ device', appendAll device 0 calls = .ok (device', (archive calls).length) ∧
      Stored device'.sectors 0 (archive calls) ∧
      device'.sectors (archive calls).length = marker ((calls.getLast nonempty).memory blockSectorSize) ∧
      (∀ i, (archive calls).length < i → device'.sectors i = device.sectors i) ∧
      ∀ header fuel, calls.length < fuel →
        ((calls.getLast nonempty).memory blockSectorSize = 0 →
          ∃ erased, fsutilExtract device' header fuel 0 =
            .ok (calls.map (fun call => (stripAntisocialPrefixes call.fileName, call.data)), erased,
              (archive calls).length + 1)) ∧
        ((calls.getLast nonempty).memory blockSectorSize ≠ 0 →
          fsutilExtract device' header fuel 0 = .error "bad ustar header") := by
  have short' : ∀ call ∈ calls, (stripAntisocialPrefixes call.fileName).length ≤ 99 :=
    fun call member => length_stripAntisocialPrefixes_le (by decide) (short call member)
  have ran := appendAll_eq device 0 nonempty short' (by rw [Nat.zero_add]; exact fits)
  generalize (calls.getLast nonempty).memory blockSectorSize = stray at ran ⊢
  have stored := stored_place device.sectors 0 (archive calls ++ [marker stray])
  have long : 0 < (archive calls).length := by
    obtain ⟨call, rest, rfl⟩ := List.exists_cons_of_ne_nil nonempty
    rw [length_archive_cons]
    omega
  refine ⟨_, by rw [ran, Nat.zero_add], stored.left, ?_, fun i beyond => ?_, fun header fuel enough => ?_⟩
  · have atMarker := stored.right.head
    rwa [Nat.zero_add] at atMarker
  · show place device.sectors 0 (archive calls ++ [marker stray]) i = device.sectors i
    rw [place_apply, dif_neg (by simp only [List.length_append, List.length_singleton]; omega)]
  · have loop := @extractLoop_archive { device with sectors := place device.sectors 0 (archive calls ++ [marker stray]) }
      header calls 0 stray stored (by show _ < device.size; omega) cStrings short' small [] fuel enough
    rw [Nat.zero_add, List.nil_append] at loop
    constructor
    · intro zero
      rw [if_pos zero] at loop
      simp only [fsutilExtract, loop, bind, Except.bind, blockWrite_mk _ (show 0 < device.size by omega),
        blockWrite_mk _ (show 1 < device.size by omega), pure, Except.pure]
      exact ⟨_, rfl⟩
    · intro notZero
      rw [if_neg notZero] at loop
      simp only [fsutilExtract, loop, bind, Except.bind]

/-- A scratch device of four sectors that hold stale bytes. -/
def staleScratch : Device := ⟨4, fun _ => List.replicate blockSectorSize 7⟩

/-- Appending the two bytes `hi` as `a`, from a buffer followed by the byte `0x0c`: the low byte
of the list pointer at the start of a free block of the same `malloc` arena. -/
def hiCall : Call := ⟨[97], [104, 105], fun i => if i = blockSectorSize then 12 else 0⟩

theorem appendHi_strands_extract :
    ∃ device', appendAll staleScratch 0 [hiCall] = .ok (device', 2) ∧
      device'.sectors 2 = marker 12 ∧ device'.sectors 3 = List.replicate blockSectorSize 7 ∧
      fsutilExtract device' (fun _ => 0) 2 0 = .error "bad ustar header" := by
  obtain ⟨device', ran, -, atMarker, beyond, extract⟩ :=
    @appendAll_leaves_stray_marker staleScratch [hiCall] (List.cons_ne_nil hiCall []) (by decide)
      (by decide) (by decide) (by decide)
  exact ⟨device', ran, atMarker, beyond 3 (by decide),
    (extract (fun _ => 0) 2 (by decide)).2 (by decide)⟩

end Pintos.Fsutil
