import Mathlib
import Pintos.Devices.Partition
import Pintos.Filesys.Inode

/-!
# Inode data on the disk

`inode_read_at` and `inode_write_at` of `filesys/inode.c` at the level of sectors.
`byte_to_sector` names the sector that holds a byte of the inode, and each turn of the
loops moves one chunk inside one sector: a whole sector straight between the disk and
the caller's buffer, or part of one through a bounce buffer, which a write first fills
with the sector's old bytes.  Whether `malloc` gives the bounce buffer is an input.

`fileBytes` reads the inode's `length` bytes off its sectors; it is the file's contents
of `Filesys`.  Chunk for chunk, the loops here read and write what the loops of
`Filesys.inodeReadAt` and `Filesys.inodeWriteAt` read from and write to those bytes: a
slice, and an `overwrite` of a range.  Over a run of writes from `inode_create`'s zeroed
sectors, each byte is then that of the last write covering it.
-/

namespace Pintos.InodeData

open Pintos.Partition Filesys

/-- `block_write`, with `check_sector`. -/
def blockWrite (device : Device) (sector : Nat) (bytes : List UInt8) : Except String Device :=
  if device.size ≤ sector then .error "Access past end of device"
  else .ok { device with sectors := Function.update device.sectors sector bytes }

/-- `byte_to_sector`: the sector of byte POS, or -1 past the end. -/
def byteToSector (data : InodeDisk) (pos : Int) : Nat :=
  if pos < data.length then ((data.start + pos.tdiv blockSectorSize) % 2 ^ 32).toNat
  else 2 ^ 32 - 1

def readAtLoop (device : Device) (data : InodeDisk) (mallocOk : Bool) :
    Nat → Int → Int → Bool → List UInt8 → Except String (List UInt8)
  | 0, _, _, _, _ => .error "out of fuel"
  | fuel + 1, size, offset, bounce, read =>
      if 0 < size then
        let sectorIdx := byteToSector data offset
        let sectorOfs := offset.tmod blockSectorSize
        let chunk := chunkSize data.length size offset
        if chunk ≤ 0 then .ok read
        else if sectorOfs = 0 ∧ chunk = blockSectorSize then do
          let sector ← blockRead device sectorIdx
          readAtLoop device data mallocOk fuel (size - chunk) (offset + chunk) bounce (read ++ sector)
        else if !bounce && !mallocOk then .ok read
        else do
          let sector ← blockRead device sectorIdx
          readAtLoop device data mallocOk fuel (size - chunk) (offset + chunk) true
            (read ++ (sector.drop sectorOfs.toNat).take chunk.toNat)
      else .ok read

/-- `inode_read_at`: the bytes read.  Each turn moves at least one byte, so `size` turns
are enough. -/
def inodeReadAt (device : Device) (inode : Inode) (mallocOk : Bool) (size offset : Int) :
    Except String (List UInt8) :=
  readAtLoop device inode.data mallocOk (size.toNat + 1) size offset false []

def writeAtLoop (buffer : List UInt8) (data : InodeDisk) (mallocOk : Bool) :
    Nat → Int → Int → Int → Bool → Device → Except String (Device × Int)
  | 0, _, _, _, _, _ => .error "out of fuel"
  | fuel + 1, size, offset, written, bounce, device =>
      if 0 < size then
        let sectorIdx := byteToSector data offset
        let sectorOfs := offset.tmod blockSectorSize
        let sectorLeft := blockSectorSize - sectorOfs
        let chunk := chunkSize data.length size offset
        let bytes := (buffer.drop written.toNat).take chunk.toNat
        if chunk ≤ 0 then .ok (device, written)
        else if sectorOfs = 0 ∧ chunk = blockSectorSize then do
          let device ← blockWrite device sectorIdx bytes
          writeAtLoop buffer data mallocOk fuel (size - chunk) (offset + chunk) (written + chunk)
            bounce device
        else if !bounce && !mallocOk then .ok (device, written)
        else do
          let sector ← if 0 < sectorOfs ∨ chunk < sectorLeft then blockRead device sectorIdx
            else .ok (List.replicate blockSectorSize 0)
          let sector := sector.take sectorOfs.toNat ++ bytes ++ sector.drop (sectorOfs + chunk).toNat
          let device ← blockWrite device sectorIdx sector
          writeAtLoop buffer data mallocOk fuel (size - chunk) (offset + chunk) (written + chunk)
            true device
      else .ok (device, written)

/-- `inode_write_at` of `size` bytes of `buffer`: the disk after, and the count written. -/
def inodeWriteAt (device : Device) (inode : Inode) (mallocOk : Bool) (buffer : List UInt8)
    (size offset : Int) : Except String (Device × Int) :=
  if inode.denyWriteCnt ≠ 0 then .ok (device, 0)
  else writeAtLoop buffer inode.data mallocOk (size.toNat + 1) size offset 0 false device

/-- The loop of `inode_create` that zeroes the first `count` data sectors. -/
def zeroSectors (device : Device) (start : Nat) : Nat → Except String Device
  | 0 => .ok device
  | i + 1 => do
      let device ← zeroSectors device start i
      blockWrite device (start + i) (List.replicate blockSectorSize 0)

/-- The inode's `length` bytes, read off its data sectors. -/
def fileBytes (device : Device) (data : InodeDisk) : List UInt8 :=
  (List.range data.length.toNat).map fun pos =>
    (device.sectors (data.start + pos / blockSectorSize)).getD (pos % blockSectorSize) 0

/-- Every data sector of the inode holds a whole sector of bytes. -/
def SectorsFull (device : Device) (data : InodeDisk) : Prop :=
  ∀ s < bytesToSectors data.length, (device.sectors (data.start + s)).length = blockSectorSize

/-- `bytes` written over `flat` from `offset` on. -/
def overwrite (flat : List UInt8) (offset : Nat) (bytes : List UInt8) : List UInt8 :=
  flat.take offset ++ bytes ++ flat.drop (offset + bytes.length)

/-- How many bytes a read or write of `size` bytes at `offset` moves. -/
def count (length size offset : Int) : Int := max 0 (min size (length - offset))

/-- A call of `inode_write_at`: `size` bytes of `buffer` at `offset`. -/
structure Write where
  buffer : List UInt8
  size : Int
  offset : Int
  sizeNonneg : 0 ≤ size
  offsetNonneg : 0 ≤ offset
  buffered : size ≤ buffer.length

/-- The writes one after the other, each on the disk the one before left. -/
def writeAll (inode : Inode) (device : Device) : List Write → Except String Device
  | [] => .ok device
  | write :: writes => do
      let (device, _) ← inodeWriteAt device inode true write.buffer write.size write.offset
      writeAll inode device writes

/-- Whether `write` puts a byte at `pos` of the inode. -/
def covers (inode : Inode) (pos : Nat) (write : Write) : Bool :=
  decide (inode.denyWriteCnt = 0 ∧ write.offset ≤ pos ∧
    pos < write.offset + count inode.data.length write.size write.offset)

/-- The byte at `pos` after `writes` on a new inode: that of the last write covering it,
or zero. -/
def lastWritten (inode : Inode) (writes : List Write) (pos : Nat) : UInt8 :=
  match writes.reverse.find? (covers inode pos) with
  | some write => write.buffer.getD (pos - write.offset.toNat) 0
  | none => 0

/-! ## One chunk -/

theorem chunkSize_le_zero {length size offset : Int} (positive : 0 < size) :
    chunkSize length size offset ≤ 0 ↔ length ≤ offset := by
  unfold chunkSize
  have : offset.tmod blockSectorSize < blockSectorSize :=
    Int.tmod_lt_of_pos offset (by decide)
  simp only
  omega

theorem chunkSize_spec {length size offset : Int} (start : 0 ≤ offset)
    (moved : 0 < chunkSize length size offset) :
    chunkSize length size offset ≤ size ∧ offset + chunkSize length size offset ≤ length ∧
      offset % blockSectorSize + chunkSize length size offset ≤ blockSectorSize ∧
      count length size offset =
        chunkSize length size offset +
          count length (size - chunkSize length size offset) (offset + chunkSize length size offset) := by
  have mod : offset.tmod blockSectorSize = offset % blockSectorSize :=
    Int.tmod_eq_emod_of_nonneg start
  unfold chunkSize count at *
  simp only [mod] at *
  omega

theorem byteToSector_eq {data : InodeDisk} {offset : Int} (start : 0 ≤ offset)
    (inside : offset < data.length) (fits : data.start + bytesToSectors data.length ≤ 2 ^ 32) :
    byteToSector data offset = data.start + offset.toNat / blockSectorSize := by
  unfold byteToSector bytesToSectors blockSectorSize at *
  rw [if_pos inside, Int.tdiv_eq_ediv_of_nonneg start]
  omega

/-! ## Flat arrays -/

theorem length_overwrite {flat bytes : List UInt8} {offset : Nat}
    (inside : offset + bytes.length ≤ flat.length) :
    (overwrite flat offset bytes).length = flat.length := by
  simp only [overwrite, List.length_append, List.length_take, List.length_drop]
  omega

theorem overwrite_getD {flat bytes : List UInt8} {offset : Nat}
    (inside : offset + bytes.length ≤ flat.length) (pos : Nat) :
    (overwrite flat offset bytes).getD pos 0 =
      if offset ≤ pos ∧ pos < offset + bytes.length then bytes.getD (pos - offset) 0
      else flat.getD pos 0 := by
  have taken : (flat.take offset).length = offset := by simp; omega
  unfold overwrite
  simp only [List.getD_eq_getElem?_getD]
  by_cases before : pos < offset
  · rw [if_neg (by omega), List.append_assoc, List.getElem?_append_left (by omega),
      List.getElem?_take_of_lt before]
  · by_cases within : pos < offset + bytes.length
    · rw [if_pos ⟨by omega, within⟩, List.append_assoc, List.getElem?_append_right (by omega),
        taken, List.getElem?_append_left (by omega)]
    · rw [if_neg (by omega), List.getElem?_append_right (by simp; omega), List.getElem?_drop]
      congr 2
      simp only [List.length_append, taken]
      omega

theorem ext_getD {l l' : List UInt8} (length : l.length = l'.length)
    (same : ∀ pos, pos < l.length → l.getD pos 0 = l'.getD pos 0) : l = l' :=
  List.ext_getElem length fun pos inside inside' => by
    have := same pos inside
    rwa [List.getD_eq_getElem _ _ inside, List.getD_eq_getElem _ _ inside'] at this

theorem overwrite_overwrite {flat first second : List UInt8} {offset : Nat}
    (inside : offset + first.length + second.length ≤ flat.length) :
    overwrite (overwrite flat offset first) (offset + first.length) second =
      overwrite flat offset (first ++ second) := by
  have firstInside : offset + first.length ≤ flat.length := by omega
  have bothInside : offset + (first ++ second).length ≤ flat.length := by simp; omega
  apply ext_getD
  · rw [length_overwrite (by rw [length_overwrite firstInside]; omega),
      length_overwrite firstInside, length_overwrite bothInside]
  · intro pos _
    rw [overwrite_getD (by rw [length_overwrite firstInside]; omega), overwrite_getD firstInside,
      overwrite_getD bothInside]
    simp only [List.length_append, List.getD_eq_getElem?_getD, List.getElem?_append]
    split_ifs <;> first | omega | (congr 2 <;> omega)

theorem overwrite_nil (flat : List UInt8) (offset : Nat) : overwrite flat offset [] = flat := by
  simp [overwrite]

theorem overwrite_whole {base bytes : List UInt8} (length : base.length = bytes.length) :
    overwrite base 0 bytes = bytes := by
  simp [overwrite, ← length]

/-! ## Sectors -/

theorem blockRead_eq {device : Device} {sector : Nat} (inside : sector < device.size) :
    blockRead device sector = .ok (device.sectors sector) := by
  rw [blockRead, if_neg (by omega)]

theorem blockWrite_eq {device : Device} {sector : Nat} (inside : sector < device.size)
    (bytes : List UInt8) :
    blockWrite device sector bytes =
      .ok { device with sectors := Function.update device.sectors sector bytes } := by
  rw [blockWrite, if_neg (by omega)]

theorem length_fileBytes (device : Device) (data : InodeDisk) :
    (fileBytes device data).length = data.length.toNat := by
  simp [fileBytes]

theorem fileBytes_getD (device : Device) (data : InodeDisk) (pos : Nat) :
    (fileBytes device data).getD pos 0 =
      if pos < data.length.toNat then
        (device.sectors (data.start + pos / blockSectorSize)).getD (pos % blockSectorSize) 0
      else 0 := by
  unfold fileBytes
  split_ifs with inside <;> simp [List.getD_eq_getElem?_getD, inside]

theorem sector_lt_bytesToSectors {data : InodeDisk} {pos : Nat} (inside : pos < data.length.toNat) :
    pos / blockSectorSize < bytesToSectors data.length := by
  unfold bytesToSectors blockSectorSize at *
  omega

theorem sector_slice {device : Device} {data : InodeDisk} (full : SectorsFull device data)
    {offset chunk : Nat} (inside : offset + chunk ≤ data.length.toNat)
    (within : offset % blockSectorSize + chunk ≤ blockSectorSize) :
    ((device.sectors (data.start + offset / blockSectorSize)).drop (offset % blockSectorSize)).take
        chunk =
      ((fileBytes device data).drop offset).take chunk := by
  rcases Nat.eq_zero_or_pos chunk with rfl | moved
  · simp
  have whole := full _ (sector_lt_bytesToSectors (show offset < data.length.toNat by omega))
  apply ext_getD
  · simp only [List.length_take, List.length_drop, whole, length_fileBytes]
    omega
  · intro pos below
    simp only [List.length_take, List.length_drop, whole] at below
    simp only [List.getD_eq_getElem?_getD, List.getElem?_take_of_lt (show pos < chunk by omega),
      List.getElem?_drop]
    rw [← List.getD_eq_getElem?_getD, ← List.getD_eq_getElem?_getD, fileBytes_getD,
      if_pos (by omega)]
    have sameSector : (offset + pos) / blockSectorSize = offset / blockSectorSize := by
      unfold blockSectorSize at *
      omega
    have sameByte : (offset + pos) % blockSectorSize = offset % blockSectorSize + pos := by
      unfold blockSectorSize at *
      omega
    rw [sameSector, sameByte]

/-- Writing a chunk inside one sector writes it over the inode's bytes, and keeps every
data sector whole. -/
theorem fileBytes_update {device : Device} {data : InodeDisk} (full : SectorsFull device data)
    {offset : Nat} {bytes : List UInt8} (inside : offset + bytes.length ≤ data.length.toNat)
    (within : offset % blockSectorSize + bytes.length ≤ blockSectorSize) (moved : 0 < bytes.length) :
    fileBytes { device with
        sectors := Function.update device.sectors (data.start + offset / blockSectorSize)
          (overwrite (device.sectors (data.start + offset / blockSectorSize))
            (offset % blockSectorSize) bytes) } data =
        overwrite (fileBytes device data) offset bytes ∧
      SectorsFull { device with
        sectors := Function.update device.sectors (data.start + offset / blockSectorSize)
          (overwrite (device.sectors (data.start + offset / blockSectorSize))
            (offset % blockSectorSize) bytes) } data := by
  have whole := full _ (sector_lt_bytesToSectors (show offset < data.length.toNat by omega))
  have fits : offset % blockSectorSize + bytes.length ≤
      (device.sectors (data.start + offset / blockSectorSize)).length := by omega
  constructor
  · apply ext_getD
    · rw [length_fileBytes, length_overwrite (by rw [length_fileBytes]; omega), length_fileBytes]
    · intro pos below
      rw [length_fileBytes] at below
      rw [overwrite_getD (by rw [length_fileBytes]; omega), fileBytes_getD, fileBytes_getD,
        if_pos below, if_pos below]
      dsimp only
      by_cases sameSector : pos / blockSectorSize = offset / blockSectorSize
      · rw [sameSector, Function.update_self, overwrite_getD fits]
        have written : offset % blockSectorSize ≤ pos % blockSectorSize ∧
            pos % blockSectorSize < offset % blockSectorSize + bytes.length ↔
            offset ≤ pos ∧ pos < offset + bytes.length := by
          unfold blockSectorSize at *
          omega
        by_cases hit : offset ≤ pos ∧ pos < offset + bytes.length
        · rw [if_pos (written.mpr hit), if_pos hit]
          congr 1
          unfold blockSectorSize at *
          omega
        · rw [if_neg (mt written.mp hit), if_neg hit, ← sameSector]
      · rw [Function.update_of_ne (by omega), if_neg]
        unfold blockSectorSize at *
        omega
  · intro s below
    by_cases same : data.start + s = data.start + offset / blockSectorSize
    · simp only
      rw [same, Function.update_self, length_overwrite fits, whole]
    · simp only
      rw [Function.update_of_ne same]
      exact full s below

/-! ## The loops -/

section Loops

variable {data : InodeDisk}

theorem count_of_not_pos {length size offset : Int} (stop : ¬ 0 < size) :
    count length size offset = 0 := by
  unfold count
  omega

theorem count_nonneg (length size offset : Int) : 0 ≤ count length size offset :=
  Int.le_max_left _ _

theorem count_of_le {length size offset : Int} (past : length ≤ offset) :
    count length size offset = 0 := by
  unfold count
  omega

/-! ### The flat loops of `Filesys` -/

/-- With fuel beyond `size`, the read loop of `Filesys.inodeReadAt` appends the next `count`
bytes. -/
theorem readLoop_spec {flat : List UInt8} {length : Int} {fuel : Nat} :
    ∀ {size offset : Int} {read : List UInt8}, 0 ≤ size → 0 ≤ offset → size.toNat < fuel →
      readLoop flat length fuel size offset read =
        read ++ (flat.drop offset.toNat).take (count length size offset).toNat := by
  induction fuel with
  | zero => intros; omega
  | succ fuel ih =>
    intro size offset read sizeNonneg start enough
    rw [readLoop]
    by_cases positive : 0 < size
    · rw [if_pos positive]
      dsimp only
      by_cases stop : chunkSize length size offset ≤ 0
      · rw [if_pos stop, count_of_le ((chunkSize_le_zero positive).mp stop)]
        simp
      · rw [if_neg stop]
        have moved : 0 < chunkSize length size offset := by omega
        obtain ⟨le, -, -, split⟩ := chunkSize_spec start moved
        generalize chunkSize length size offset = chunk at *
        have total : (count length size offset).toNat =
            chunk.toNat + (count length (size - chunk) (offset + chunk)).toNat := by
          have := count_nonneg length (size - chunk) (offset + chunk)
          omega
        rw [ih (by omega) (by omega) (by omega), total, List.take_add, List.drop_drop,
          List.append_assoc, show (offset + chunk).toNat = offset.toNat + chunk.toNat by omega]
    · rw [if_neg positive, count_of_not_pos positive]
      simp

/-- With fuel beyond `size` and `size` bytes of the buffer from `written` on, the write loop
of `Filesys.inodeWriteAt` writes the next `count` of them over the inode's bytes. -/
theorem writeLoop_spec {buffer : List UInt8} {length : Int} {fuel : Nat} :
    ∀ {size offset written : Int} {flat : List UInt8}, flat.length = length.toNat →
      0 ≤ size → 0 ≤ offset → 0 ≤ written → written + size ≤ buffer.length → size.toNat < fuel →
      writeLoop buffer length fuel size offset (flat, written) =
        (overwrite flat offset.toNat ((buffer.drop written.toNat).take (count length size offset).toNat),
          written + count length size offset) := by
  induction fuel with
  | zero => intros; omega
  | succ fuel ih =>
    intro size offset written flat flatLength sizeNonneg start writtenNonneg buffered enough
    rw [writeLoop]
    by_cases positive : 0 < size
    · rw [if_pos positive]
      dsimp only
      by_cases stop : chunkSize length size offset ≤ 0
      · rw [if_pos stop, count_of_le ((chunkSize_le_zero positive).mp stop)]
        simp [overwrite_nil]
      · rw [if_neg stop]
        have moved : 0 < chunkSize length size offset := by omega
        obtain ⟨le, inside, -, split⟩ := chunkSize_spec start moved
        generalize chunkSize length size offset = chunk at *
        obtain ⟨o, rfl⟩ : ∃ o : Nat, offset = o := ⟨offset.toNat, by omega⟩
        obtain ⟨k, rfl⟩ : ∃ k : Nat, chunk = k := ⟨chunk.toNat, by omega⟩
        obtain ⟨w, rfl⟩ : ∃ w : Nat, written = w := ⟨written.toNat, by omega⟩
        have bytesLength : ((buffer.drop w).take k).length = k := by
          simp only [List.length_take, List.length_drop]
          omega
        -- one chunk is one overwrite, and the rest of the loop writes on after it
        have first : flat.take o ++ (buffer.drop w).take k ++ flat.drop (o + k) =
            overwrite flat o ((buffer.drop w).take k) := by
          rw [overwrite, bytesLength]
        have total : (count length size o).toNat = k + (count length (size - k) (o + k)).toNat := by
          have := count_nonneg length (size - k) (o + k)
          omega
        have merged := @overwrite_overwrite flat ((buffer.drop w).take k)
          ((buffer.drop (w + k)).take (count length (size - k) (o + k)).toNat) o
          (by simp only [List.length_take, List.length_drop]; unfold count at *; omega)
        rw [bytesLength] at merged
        simp only [Int.toNat_natCast, show ((o : Int) + k).toNat = o + k by omega, first]
        rw [ih (by rw [length_overwrite (by omega)]; exact flatLength) (by omega) (by omega)
            (by omega) (by omega) (by omega),
          show ((o : Int) + k).toNat = o + k by omega, show ((w : Int) + k).toNat = w + k by omega,
          merged, total, List.take_add, List.drop_drop, split]
        congr 1
        omega
    · rw [if_neg positive, count_of_not_pos positive]
      simp [overwrite_nil]

/-! ### The sector loops refine them -/

/-- With the bounce buffer available, the read loop on the sectors reads, chunk for chunk,
what the loop of `Filesys.inodeReadAt` reads from the inode's bytes. -/
theorem readAtLoop_refines {device : Device} (full : SectorsFull device data)
    (onDevice : data.start + bytesToSectors data.length ≤ device.size) (fits : device.size ≤ 2 ^ 32)
    {fuel : Nat} :
    ∀ {size offset : Int} {bounce : Bool} {read : List UInt8}, 0 ≤ offset → size.toNat < fuel →
      readAtLoop device data true fuel size offset bounce read =
        .ok (readLoop (fileBytes device data) data.length fuel size offset read) := by
  induction fuel with
  | zero => intros; omega
  | succ fuel ih =>
    intro size offset bounce read start enough
    rw [readAtLoop, readLoop]
    by_cases positive : 0 < size
    · rw [if_pos positive, if_pos positive]
      dsimp only
      by_cases stop : chunkSize data.length size offset ≤ 0
      · rw [if_pos stop, if_pos stop]
      · rw [if_neg stop, if_neg stop]
        have moved : 0 < chunkSize data.length size offset := by omega
        obtain ⟨le, inside, within, -⟩ := chunkSize_spec start moved
        have sector : byteToSector data offset = data.start + offset.toNat / blockSectorSize :=
          byteToSector_eq start (by omega) (by omega)
        have mod : offset.tmod blockSectorSize = offset % blockSectorSize :=
          Int.tmod_eq_emod_of_nonneg start
        generalize chunkSize data.length size offset = chunk at *
        obtain ⟨o, rfl⟩ : ∃ o : Nat, offset = o := ⟨offset.toNat, by omega⟩
        obtain ⟨k, rfl⟩ : ∃ k : Nat, chunk = k := ⟨chunk.toNat, by omega⟩
        simp only [blockSectorSize, Int.toNat_natCast] at sector mod within ⊢
        have onSector : data.start + o / 512 < device.size := by
          have : o / 512 < bytesToSectors data.length := sector_lt_bytesToSectors (by omega)
          omega
        have slice : ((device.sectors (data.start + o / 512)).drop (o % 512)).take k =
            ((fileBytes device data).drop o).take k :=
          sector_slice full (by omega) (by unfold blockSectorSize; omega)
        have rest : ∀ bounce read, readAtLoop device data true fuel (size - k) (o + k) bounce read =
            .ok (readLoop (fileBytes device data) data.length fuel (size - k) (o + k) read) :=
          fun _ _ => ih (by omega) (by omega)
        simp only [sector, mod, blockRead_eq onSector, Bool.not_true, Bool.and_false,
          Bool.false_eq_true, if_false, bind, Except.bind]
        split_ifs with whole
        · -- the chunk is the whole sector, read straight into the buffer
          have length : (device.sectors (data.start + o / 512)).length = 512 :=
            full (o / 512) (sector_lt_bytesToSectors (show o < data.length.toNat by omega))
          have sectorWhole : device.sectors (data.start + o / 512) =
              ((fileBytes device data).drop o).take k := by
            rw [← slice, show o % 512 = 0 by omega, List.drop_zero,
              List.take_of_length_le (by omega)]
          rw [sectorWhole, rest]
        · rw [show ((o : Int) % ((512 : Nat) : Int)).toNat = o % 512 by omega, slice, rest]
    · rw [if_neg positive, if_neg positive]

/-- With the bounce buffer available and `size` bytes of the buffer from `written` on, the
write loop on the sectors writes, chunk for chunk, what the loop of `Filesys.inodeWriteAt`
writes over the inode's bytes, and touches no sector outside the inode's data. -/
theorem writeAtLoop_refines {buffer : List UInt8} {fuel : Nat} :
    ∀ {size offset written : Int} {bounce : Bool} {device : Device},
      SectorsFull device data → data.start + bytesToSectors data.length ≤ device.size →
      device.size ≤ 2 ^ 32 → 0 ≤ offset → 0 ≤ written → written + size ≤ buffer.length →
      size.toNat < fuel →
      ∃ device', writeAtLoop buffer data true fuel size offset written bounce device =
          .ok (device', (writeLoop buffer data.length fuel size offset
            (fileBytes device data, written)).2) ∧
        fileBytes device' data =
          (writeLoop buffer data.length fuel size offset (fileBytes device data, written)).1 ∧
        SectorsFull device' data ∧ device'.size = device.size ∧
        ∀ s, s < data.start ∨ data.start + bytesToSectors data.length ≤ s →
          device'.sectors s = device.sectors s := by
  induction fuel with
  | zero => intros; omega
  | succ fuel ih =>
    intro size offset written bounce device full onDevice fits start writtenNonneg buffered enough
    have unchanged : ∃ device', (Except.ok (device, written) : Except String (Device × Int)) =
        .ok (device', written) ∧ fileBytes device' data = fileBytes device data ∧
        SectorsFull device' data ∧ device'.size = device.size ∧
        ∀ s, s < data.start ∨ data.start + bytesToSectors data.length ≤ s →
          device'.sectors s = device.sectors s :=
      ⟨device, rfl, rfl, full, rfl, fun _ _ => rfl⟩
    rw [writeAtLoop, writeLoop]
    by_cases positive : 0 < size
    · rw [if_pos positive, if_pos positive]
      dsimp only
      by_cases stop : chunkSize data.length size offset ≤ 0
      · rw [if_pos stop, if_pos stop]
        exact unchanged
      · rw [if_neg stop, if_neg stop]
        have moved : 0 < chunkSize data.length size offset := by omega
        obtain ⟨le, inside, within, -⟩ := chunkSize_spec start moved
        have sector : byteToSector data offset = data.start + offset.toNat / blockSectorSize :=
          byteToSector_eq start (by omega) (by omega)
        have mod : offset.tmod blockSectorSize = offset % blockSectorSize :=
          Int.tmod_eq_emod_of_nonneg start
        generalize chunkSize data.length size offset = chunk at *
        obtain ⟨o, rfl⟩ : ∃ o : Nat, offset = o := ⟨offset.toNat, by omega⟩
        obtain ⟨k, rfl⟩ : ∃ k : Nat, chunk = k := ⟨chunk.toNat, by omega⟩
        obtain ⟨w, rfl⟩ : ∃ w : Nat, written = w := ⟨written.toNat, by omega⟩
        simp only [blockSectorSize, Int.toNat_natCast] at sector mod within ⊢
        have onSector : data.start + o / 512 < device.size := by
          have : o / 512 < bytesToSectors data.length := sector_lt_bytesToSectors (by omega)
          omega
        have bytesLength : ((buffer.drop w).take k).length = k := by
          simp only [List.length_take, List.length_drop]
          omega
        obtain ⟨written', sectorsFull'⟩ := fileBytes_update full
          (show o + ((buffer.drop w).take k).length ≤ data.length.toNat by omega)
          (show o % blockSectorSize + ((buffer.drop w).take k).length ≤ blockSectorSize by
            unfold blockSectorSize; omega)
          (by omega)
        simp only [blockSectorSize] at written' sectorsFull'
        have flat : overwrite (fileBytes device data) o ((buffer.drop w).take k) =
            (fileBytes device data).take o ++ (buffer.drop w).take k ++
              (fileBytes device data).drop (o + k) := by
          rw [overwrite, bytesLength]
        rw [show ((o : Int) + k).toNat = o + k by omega, ← flat]
        -- the rest of the loop, from the disk with this chunk written
        have next : ∀ bounce, ∃ device', writeAtLoop buffer data true fuel (size - k) (o + k)
              (w + k) bounce
              { device with
                sectors := Function.update device.sectors (data.start + o / 512)
                  (overwrite (device.sectors (data.start + o / 512)) (o % 512)
                    ((buffer.drop w).take k)) } =
              .ok (device', (writeLoop buffer data.length fuel (size - k) (o + k)
                (overwrite (fileBytes device data) o ((buffer.drop w).take k), w + k)).2) ∧
            fileBytes device' data = (writeLoop buffer data.length fuel (size - k) (o + k)
                (overwrite (fileBytes device data) o ((buffer.drop w).take k), w + k)).1 ∧
            SectorsFull device' data ∧ device'.size = device.size ∧
            ∀ s, s < data.start ∨ data.start + bytesToSectors data.length ≤ s →
              device'.sectors s = device.sectors s := by
          intro bounce
          obtain ⟨device', run, bytes', full', size', frame'⟩ :=
            @ih (size - k) (o + k) (w + k) bounce _ sectorsFull' onDevice fits (by omega) (by omega)
              (by omega) (by omega)
          rw [written'] at run bytes'
          refine ⟨device', run, bytes', full', size', fun s out => ?_⟩
          rw [frame' s out]
          dsimp only
          rw [Function.update_of_ne]
          have : o / 512 < bytesToSectors data.length := sector_lt_bytesToSectors (by omega)
          omega
        simp only [mod, sector]
        by_cases whole : (o : Int) % ((512 : Nat) : Int) = 0 ∧ (k : Int) = ((512 : Nat) : Int)
        · -- a whole sector straight from the buffer
          rw [if_pos whole]
          have length : (device.sectors (data.start + o / 512)).length = 512 :=
            full (o / 512) (sector_lt_bytesToSectors (show o < data.length.toNat by omega))
          have direct : (buffer.drop w).take k =
              overwrite (device.sectors (data.start + o / 512)) (o % 512) ((buffer.drop w).take k) := by
            rw [show o % 512 = 0 by omega, overwrite_whole (by omega)]
          rw [blockWrite_eq onSector]
          simp only [bind, Except.bind]
          obtain ⟨device', run, rest⟩ := next bounce
          rw [← direct] at run
          exact ⟨device', run, rest⟩
        · -- through the bounce buffer, filled with the sector's old bytes first
          simp only [whole, if_false, Bool.not_true, Bool.and_false, Bool.false_eq_true, if_false,
            if_pos (show 0 < (o : Int) % ((512 : Nat) : Int) ∨
              (k : Int) < ((512 : Nat) : Int) - (o : Int) % ((512 : Nat) : Int) by omega),
            blockRead_eq onSector, bind, Except.bind]
          have bounced : (device.sectors (data.start + o / 512)).take (o % 512) ++
              (buffer.drop w).take k ++ (device.sectors (data.start + o / 512)).drop (o % 512 + k) =
              overwrite (device.sectors (data.start + o / 512)) (o % 512) ((buffer.drop w).take k) := by
            rw [overwrite, bytesLength]
          rw [show ((o : Int) % ((512 : Nat) : Int)).toNat = o % 512 by omega,
            show ((o : Int) % ((512 : Nat) : Int) + k).toNat = o % 512 + k by omega, bounced,
            blockWrite_eq onSector]
          exact next true
    · rw [if_neg positive, if_neg positive]
      exact unchanged

/-! ### What the sector loops do -/

/-- With the bounce buffer available and fuel beyond `size`, the read loop appends the
next `count` bytes of the inode. -/
theorem readAtLoop_spec {device : Device} (full : SectorsFull device data)
    (onDevice : data.start + bytesToSectors data.length ≤ device.size) (fits : device.size ≤ 2 ^ 32)
    {fuel : Nat} {size offset : Int} {bounce : Bool} {read : List UInt8} (sizeNonneg : 0 ≤ size)
    (start : 0 ≤ offset) (enough : size.toNat < fuel) :
    readAtLoop device data true fuel size offset bounce read =
      .ok (read ++ ((fileBytes device data).drop offset.toNat).take
        (count data.length size offset).toNat) := by
  rw [readAtLoop_refines full onDevice fits start enough, readLoop_spec sizeNonneg start enough]

/-- With the bounce buffer available, fuel beyond `size`, and `size` bytes of the buffer
from `written` on, the write loop writes the next `count` of them over the inode's bytes
and touches no sector outside the inode's data. -/
theorem writeAtLoop_spec {buffer : List UInt8} {fuel : Nat} {size offset written : Int}
    {bounce : Bool} {device : Device} (full : SectorsFull device data)
    (onDevice : data.start + bytesToSectors data.length ≤ device.size) (fits : device.size ≤ 2 ^ 32)
    (sizeNonneg : 0 ≤ size) (start : 0 ≤ offset) (writtenNonneg : 0 ≤ written)
    (buffered : written + size ≤ buffer.length) (enough : size.toNat < fuel) :
    ∃ device', writeAtLoop buffer data true fuel size offset written bounce device =
        .ok (device', written + count data.length size offset) ∧
      fileBytes device' data = overwrite (fileBytes device data) offset.toNat
        ((buffer.drop written.toNat).take (count data.length size offset).toNat) ∧
      SectorsFull device' data ∧ device'.size = device.size ∧
      ∀ s, s < data.start ∨ data.start + bytesToSectors data.length ≤ s →
        device'.sectors s = device.sectors s := by
  have flat := @writeLoop_spec buffer data.length fuel size offset written (fileBytes device data)
    (length_fileBytes device data) sizeNonneg start writtenNonneg buffered enough
  obtain ⟨device', run, bytes', full', size', frame'⟩ :=
    @writeAtLoop_refines data buffer fuel size offset written bounce device full onDevice fits start
      writtenNonneg buffered enough
  rw [flat] at run bytes'
  exact ⟨device', run, bytes', full', size', frame'⟩

/-- `inode_read_at` with the bounce buffer available reads the next `count` bytes of the
inode. -/
theorem inodeReadAt_spec {device : Device} {inode : Inode} (full : SectorsFull device inode.data)
    (onDevice : inode.data.start + bytesToSectors inode.data.length ≤ device.size)
    (fits : device.size ≤ 2 ^ 32) {size offset : Int} (sizeNonneg : 0 ≤ size) (start : 0 ≤ offset) :
    inodeReadAt device inode true size offset =
      .ok (((fileBytes device inode.data).drop offset.toNat).take
        (count inode.data.length size offset).toNat) :=
  readAtLoop_spec full onDevice fits sizeNonneg start (by omega)

/-- `inode_write_at` with the bounce buffer available writes the next `count` bytes of the
buffer over the inode's bytes, or nothing while writes are denied. -/
theorem inodeWriteAt_spec {device : Device} {inode : Inode} (full : SectorsFull device inode.data)
    (onDevice : inode.data.start + bytesToSectors inode.data.length ≤ device.size)
    (fits : device.size ≤ 2 ^ 32) (write : Write) :
    ∃ device', inodeWriteAt device inode true write.buffer write.size write.offset =
        .ok (device', if inode.denyWriteCnt = 0 then
          count inode.data.length write.size write.offset else 0) ∧
      (∀ pos, (fileBytes device' inode.data).getD pos 0 =
        if covers inode pos write then write.buffer.getD (pos - write.offset.toNat) 0
        else (fileBytes device inode.data).getD pos 0) ∧
      SectorsFull device' inode.data ∧ device'.size = device.size := by
  by_cases denied : inode.denyWriteCnt = 0
  · obtain ⟨device', run, bytes', full', size', -⟩ := @writeAtLoop_spec inode.data write.buffer
      (write.size.toNat + 1) write.size write.offset 0 false device full onDevice fits
      write.sizeNonneg write.offsetNonneg (Int.le_refl 0) (by have := write.buffered; omega) (by omega)
    refine ⟨device', ?_, fun pos => ?_, full', size'⟩
    · rw [inodeWriteAt, if_neg (by omega), run, if_pos denied, Int.zero_add]
    · have taken : ((write.buffer.drop 0).take (count inode.data.length write.size write.offset).toNat).length =
          (count inode.data.length write.size write.offset).toNat := by
        have := write.buffered
        have := count_nonneg inode.data.length write.size write.offset
        simp only [List.drop_zero, List.length_take]
        unfold count at *
        omega
      have start := write.offsetNonneg
      rw [bytes', Int.toNat_zero]
      by_cases empty : count inode.data.length write.size write.offset = 0
      · simp only [empty, Int.toNat_zero, List.take_zero, overwrite_nil, covers]
        rw [if_neg (by simp only [decide_eq_true_eq]; omega)]
      · have inside : write.offset.toNat + (count inode.data.length write.size write.offset).toNat ≤
            (fileBytes device inode.data).length := by
          have := count_nonneg inode.data.length write.size write.offset
          have := write.sizeNonneg
          rw [length_fileBytes]
          unfold count at *
          omega
        rw [overwrite_getD (by rwa [taken]), taken]
        simp only [covers, denied, true_and, decide_eq_true_eq, List.drop_zero]
        by_cases hit : write.offset.toNat ≤ pos ∧
            pos < write.offset.toNat + (count inode.data.length write.size write.offset).toNat
        · rw [if_pos hit, if_pos (by omega), List.getD_eq_getElem?_getD, List.getD_eq_getElem?_getD,
            List.getElem?_take_of_lt (by omega)]
        · rw [if_neg hit, if_neg (by omega)]
  · refine ⟨device, by rw [inodeWriteAt, if_pos denied, if_neg denied], fun pos => ?_, full, rfl⟩
    simp [covers, denied]

/-- The loop of `inode_create` zeroes its `n` sectors and no other. -/
theorem zeroSectors_spec {device : Device} {start : Nat} {n : Nat} (inside : start + n ≤ device.size) :
    ∃ device', zeroSectors device start n = .ok device' ∧ device'.size = device.size ∧
      ∀ s, device'.sectors s =
        if start ≤ s ∧ s < start + n then List.replicate blockSectorSize 0 else device.sectors s := by
  induction n with
  | zero => exact ⟨device, rfl, rfl, fun s => by rw [if_neg (by omega)]⟩
  | succ n ih =>
    obtain ⟨device', run, size', sectors'⟩ := ih (by omega)
    refine ⟨{ device' with
        sectors := Function.update device'.sectors (start + n) (List.replicate blockSectorSize 0) },
      ?_, size', fun s => ?_⟩
    · rw [zeroSectors, run]
      exact blockWrite_eq (by omega) _
    · dsimp only
      by_cases last : s = start + n
      · rw [last, Function.update_self, if_pos (by omega)]
      · rw [Function.update_of_ne last, sectors']
        by_cases earlier : start ≤ s ∧ s < start + n
        · rw [if_pos earlier, if_pos (by omega)]
        · rw [if_neg earlier, if_neg (by omega)]

/-- After `inode_create`'s loop every byte of the inode is zero. -/
theorem zeroSectors_fileBytes {device : Device} {data : InodeDisk}
    (onDevice : data.start + bytesToSectors data.length ≤ device.size) :
    ∃ device', zeroSectors device data.start (bytesToSectors data.length) = .ok device' ∧
      device'.size = device.size ∧ SectorsFull device' data ∧
      fileBytes device' data = List.replicate data.length.toNat 0 := by
  obtain ⟨device', run, size', sectors'⟩ := zeroSectors_spec onDevice
  refine ⟨device', run, size', fun s below => ?_, ?_⟩
  · rw [sectors', if_pos (by omega), List.length_replicate]
  · apply ext_getD
    · rw [length_fileBytes, List.length_replicate]
    · intro pos below
      rw [length_fileBytes] at below
      have sector := sector_lt_bytesToSectors below
      have within : pos % blockSectorSize < blockSectorSize := Nat.mod_lt pos (by decide)
      rw [fileBytes_getD, if_pos below, sectors',
        if_pos ⟨Nat.le_add_right _ _, Nat.add_lt_add_left sector _⟩, List.getD_replicate (h := within),
        List.getD_replicate (h := below)]

end Loops

/-! ## Runs of writes -/

section Runs

variable {inode : Inode}

theorem lastWritten_nil (pos : Nat) : lastWritten inode [] pos = 0 := rfl

theorem lastWritten_append (writes : List Write) (write : Write) (pos : Nat) :
    lastWritten inode (writes ++ [write]) pos =
      if covers inode pos write then write.buffer.getD (pos - write.offset.toNat) 0
      else lastWritten inode writes pos := by
  unfold lastWritten
  rw [List.reverse_append, List.reverse_singleton, List.singleton_append, List.find?_cons]
  cases covers inode pos write <;> rfl

/-- The inode's bytes as `lastWritten` gives them. -/
def written (inode : Inode) (writes : List Write) : List UInt8 :=
  (List.range inode.data.length.toNat).map (lastWritten inode writes)

theorem written_getD (writes : List Write) (pos : Nat) :
    (written inode writes).getD pos 0 =
      if pos < inode.data.length.toNat then lastWritten inode writes pos else 0 := by
  unfold written
  split_ifs with inside <;> simp [List.getD_eq_getElem?_getD, inside]

theorem written_nil : written inode [] = List.replicate inode.data.length.toNat 0 := by
  rw [written, show lastWritten inode [] = fun _ => 0 from rfl, List.map_const', List.length_range]

theorem written_slice (writes : List Write) {size offset : Int} (start : 0 ≤ offset) :
    ((written inode writes).drop offset.toNat).take (count inode.data.length size offset).toNat =
      (List.range (count inode.data.length size offset).toNat).map fun i =>
        lastWritten inode writes (offset.toNat + i) := by
  have length : (written inode writes).length = inode.data.length.toNat := by
    rw [written, List.length_map, List.length_range]
  have inside : (count inode.data.length size offset).toNat = 0 ∨
      offset.toNat + (count inode.data.length size offset).toNat ≤ inode.data.length.toNat := by
    unfold count
    omega
  apply ext_getD
  · rw [List.length_take, List.length_drop, length, List.length_map, List.length_range]
    omega
  · intro i below
    rw [List.length_take, List.length_drop, length] at below
    have index : ((List.range (count inode.data.length size offset).toNat).map fun i =>
        lastWritten inode writes (offset.toNat + i)).getD i 0 = lastWritten inode writes (offset.toNat + i) := by
      simp [List.getD_eq_getElem?_getD, show i < (count inode.data.length size offset).toNat by omega]
    rw [index, List.getD_eq_getElem?_getD, List.getElem?_take_of_lt (by omega), List.getElem?_drop,
      ← List.getD_eq_getElem?_getD, written_getD, if_pos (by omega)]

/-- A run of writes leaves on the inode, byte by byte, what the last write covering each byte
put there. -/
theorem writeAll_spec :
    ∀ {writes before : List Write} {device : Device},
      inode.data.start + bytesToSectors inode.data.length ≤ device.size → device.size ≤ 2 ^ 32 →
      SectorsFull device inode.data → fileBytes device inode.data = written inode before →
      ∃ device', writeAll inode device writes = .ok device' ∧ device'.size = device.size ∧
        SectorsFull device' inode.data ∧ fileBytes device' inode.data = written inode (before ++ writes)
  | [], before, device, _, _, full, bytes => ⟨device, rfl, rfl, full, by rw [List.append_nil, bytes]⟩
  | write :: writes, before, device, onDevice, fits, full, bytes => by
    obtain ⟨device', run, step, full', size'⟩ := inodeWriteAt_spec full onDevice fits write
    have bytes' : fileBytes device' inode.data = written inode (before ++ [write]) := by
      apply ext_getD
      · rw [length_fileBytes, written, List.length_map, List.length_range]
      · intro pos below
        rw [length_fileBytes] at below
        rw [step, written_getD, if_pos below, lastWritten_append, bytes, written_getD, if_pos below]
    obtain ⟨device'', rest, size'', full'', bytes''⟩ :=
      @writeAll_spec writes (before ++ [write]) device' (by omega) (by omega) full' bytes'
    refine ⟨device'', ?_, by rw [size'', size'], full'', by rw [bytes'', List.append_assoc,
      List.singleton_append]⟩
    rw [writeAll, run]
    exact rest

theorem inodeAccess_flat {device : Device} {inode : Inode}
    (onDevice : inode.data.start + bytesToSectors inode.data.length ≤ device.size)
    (fits : device.size ≤ 2 ^ 32) (writes : List Write) :
    ∃ device', (zeroSectors device inode.data.start (bytesToSectors inode.data.length) >>=
        fun device => writeAll inode device writes) = .ok device' ∧
      (∀ write : Write, ∃ device'',
        inodeWriteAt device' inode true write.buffer write.size write.offset =
          .ok (device'', if inode.denyWriteCnt = 0 then
            count inode.data.length write.size write.offset else 0)) ∧
      ∀ size offset : Int, 0 ≤ size → 0 ≤ offset →
        inodeReadAt device' inode true size offset =
          .ok ((List.range (count inode.data.length size offset).toNat).map fun i =>
            lastWritten inode writes (offset.toNat + i)) := by
  obtain ⟨created, zero, size₀, full₀, bytes₀⟩ := zeroSectors_fileBytes onDevice
  obtain ⟨device', run, size', full', bytes'⟩ := @writeAll_spec inode writes [] created
    (by omega) (by omega) full₀ (by rw [bytes₀, written_nil])
  refine ⟨device', by rw [zero]; exact run, fun write => ?_, fun size offset sizeNonneg start => ?_⟩
  · obtain ⟨device'', call, -⟩ := inodeWriteAt_spec full' (by omega) (by omega) write
    exact ⟨device'', call⟩
  · rw [inodeReadAt_spec full' (by omega) (by omega) sizeNonneg start, bytes', List.nil_append,
      written_slice writes start]

end Runs

/-- A disk of four sectors, and an inode of 700 bytes on its second and third. -/
def sampleDevice : Device := { size := 4, sectors := fun _ => [] }

def sampleInode : Inode :=
  { sector := 0, openCnt := 1, removed := false, denyWriteCnt := 0, data := { start := 1, length := 700 } }

/-- Three bytes written across the boundary of the inode's two sectors. -/
def sampleWrite : Write := ⟨[1, 2, 3], 3, 510, by decide, by decide, by decide⟩

theorem sampleInode_access :
    ∃ device', (zeroSectors sampleDevice sampleInode.data.start
        (bytesToSectors sampleInode.data.length) >>=
        fun device => writeAll sampleInode device [sampleWrite]) = .ok device' ∧
      (∀ write : Write, ∃ device'',
        inodeWriteAt device' sampleInode true write.buffer write.size write.offset =
          .ok (device'', if sampleInode.denyWriteCnt = 0 then
            count sampleInode.data.length write.size write.offset else 0)) ∧
      ∀ size offset : Int, 0 ≤ size → 0 ≤ offset →
        inodeReadAt device' sampleInode true size offset =
          .ok ((List.range (count sampleInode.data.length size offset).toNat).map fun i =>
            lastWritten sampleInode [sampleWrite] (offset.toNat + i)) :=
  inodeAccess_flat (by decide) (by decide) [sampleWrite]

example : (do
    let device ← zeroSectors sampleDevice 1 2
    let device ← writeAll sampleInode device [sampleWrite]
    inodeReadAt device sampleInode true 6 507).toOption = some [0, 0, 0, 1, 2, 3] := by
  decide +kernel

end Pintos.InodeData
