import Mathlib
import Pintos.Devices.Block

/-!
# Partition scanning

`devices/partition.c`.  `partition_scan` reads the partition table of a block
device and registers each non-empty entry that is not an extended partition; an
extended entry makes `read_partition_table` call itself on the table that entry
names.  A partition is registered only when it lies inside the device.  Console
messages are not modelled, nor the names and type strings of the registered
devices; their numbers, types and extents are.

The recursion of `read_partition_table` is given fuel, one unit a level.  Each
level `malloc`s its table before it recurses and frees it after, so the tables of
the levels open at once are held together: `room` is how many more `malloc` can
give, and a level that finds none panics.
-/

namespace Pintos.Partition

/-- A block device: its number of sectors and the bytes of each. -/
structure Device where
  size : Nat
  sectors : Nat → List UInt8

/-- `block_read`, with `check_sector`. -/
def blockRead (device : Device) (sector : Nat) : Except String (List UInt8) :=
  if device.size ≤ sector then .error "Access past end of device" else .ok (device.sectors sector)

/-- The `n`-byte little-endian field at `offset`. -/
def readField (bytes : List UInt8) (offset : Nat) : Nat → Nat
  | 0 => 0
  | n + 1 => (bytes.getD offset 0).toNat + 0x100 * readField bytes (offset + 1) n

/-- `struct partition_table_entry` without its CHS fields. -/
structure Entry where
  bootable : Nat
  type : Nat
  offset : Nat
  size : Nat
  deriving DecidableEq, Repr

/-- Entry `i` of `struct partition_table`, after the 446 bytes of `loader`. -/
def entryAt (bytes : List UInt8) (i : Nat) : Entry :=
  let base := 446 + 16 * i
  { bootable := readField bytes base 1, type := readField bytes (base + 4) 1
    offset := readField bytes (base + 8) 4, size := readField bytes (base + 12) 4 }

def entries (bytes : List UInt8) : List Entry := (List.range 4).map (entryAt bytes)

def signature (bytes : List UInt8) : Nat := readField bytes 510 2

def isExtended (type : Nat) : Bool :=
  type == 0x05 || type == 0x0f || type == 0x85 || type == 0xc5

/-- `enum block_type`, as `found_partition` assigns it. -/
inductive BlockType where
  | kernel
  | filesys
  | scratch
  | swap
  | foreign
  deriving DecidableEq, Repr

def blockType (partType : Nat) : BlockType :=
  if partType = 0x20 then .kernel
  else if partType = 0x21 then .filesys
  else if partType = 0x22 then .scratch
  else if partType = 0x23 then .swap
  else .foreign

/-- What `found_partition` registers with `block_register`. -/
structure Found where
  partNr : Nat
  type : BlockType
  start : Nat
  size : Nat
  deriving DecidableEq, Repr

/-- `found_partition`: the partition registered, if it lies inside the device. -/
def foundPartition (device : Device) (partType start size partNr : Nat) : Option Found :=
  if device.size ≤ start then none
  else if (start + size) % 2 ^ 32 < start ∨ device.size < (start + size) % 2 ^ 32 then none
  else some { partNr, type := blockType partType, start, size }

section Scan

variable (device : Device)

/-- The loop of `read_partition_table` over the entries of the table it read for
`sector`; `recurse` is its call on an extended entry.  Returns `*part_nr` and the
partitions registered. -/
def scanEntries (recurse : Nat → Nat → Nat → Except String (Nat × List Found))
    (sector primaryExtendedSector : Nat) : List Entry → Nat → Except String (Nat × List Found)
  | [], partNr => .ok (partNr, [])
  | e :: rest, partNr =>
      if e.size = 0 ∨ e.type = 0 then scanEntries recurse sector primaryExtendedSector rest partNr
      else if isExtended e.type then do
        let (partNr, nested) ←
          if sector = 0 then recurse e.offset e.offset partNr
          else recurse ((e.offset + primaryExtendedSector) % 2 ^ 32) primaryExtendedSector partNr
        let (partNr, later) ← scanEntries recurse sector primaryExtendedSector rest partNr
        return (partNr, nested ++ later)
      else do
        let found := foundPartition device e.type ((e.offset + sector) % 2 ^ 32) e.size (partNr + 1)
        let (partNr, later) ← scanEntries recurse sector primaryExtendedSector rest (partNr + 1)
        return (partNr, found.toList ++ later)

/-- `read_partition_table (block, sector, primary_extended_sector, part_nr)`, with
`room` tables left to `malloc`. -/
def readPartitionTable : Nat → Nat → Nat → Nat → Nat → Except String (Nat × List Found)
  | 0, _, _, _, _ => .error "out of fuel"
  | fuel + 1, room, sector, primaryExtendedSector, partNr =>
      if device.size ≤ sector then .ok (partNr, [])
      else if room = 0 then .error "Failed to allocate memory for partition table."
      else do
        -- the sector read is 0, whichever table `sector` names
        let pt ← blockRead device 0
        if signature pt ≠ 0xaa55 then return (partNr, [])
        scanEntries device (readPartitionTable fuel (room - 1)) sector primaryExtendedSector
          (entries pt) partNr

def partitionScan (room fuel : Nat) : Except String (List Found) :=
  (fun result => result.2) <$> readPartitionTable device fuel room 0 0 0

/-- An entry `read_partition_table` does not recurse into. -/
def Ordinary (e : Entry) : Prop := e.size = 0 ∨ e.type = 0 ∨ isExtended e.type = false

/-- When the loop fails from an entry on, whatever `*part_nr` it reaches there, it fails
from any run of ordinary entries before it. -/
theorem scanEntries_error_of_ordinary
    (recurse : Nat → Nat → Nat → Except String (Nat × List Found))
    (sector primaryExtendedSector : Nat) {xs ys : List Entry} (ordinary : ∀ x ∈ xs, Ordinary x)
    {message : String}
    (failing : ∀ partNr, scanEntries device recurse sector primaryExtendedSector ys partNr =
      .error message) (partNr : Nat) :
    scanEntries device recurse sector primaryExtendedSector (xs ++ ys) partNr = .error message := by
  induction xs generalizing partNr with
  | nil => exact failing partNr
  | cons e rest ih =>
    have later := ih fun x member => ordinary x (List.mem_cons_of_mem e member)
    by_cases empty : e.size = 0 ∨ e.type = 0
    · simpa [scanEntries, empty] using later partNr
    · have plain : isExtended e.type = false := by
        rcases ordinary e List.mem_cons_self with skipped | skipped | plain
        · exact absurd (.inl skipped) empty
        · exact absurd (.inr skipped) empty
        · exact plain
      simp only [List.cons_append, scanEntries, empty, plain, if_false, Bool.false_eq_true,
        later, bind, Except.bind]

theorem scanEntries_error_of_extended
    (recurse : Nat → Nat → Nat → Except String (Nat × List Found))
    (sector primaryExtendedSector : Nat) {e : Entry} (rest : List Entry)
    (extended : e.size ≠ 0 ∧ e.type ≠ 0 ∧ isExtended e.type = true) {partNr : Nat}
    {message : String}
    (nested : (if sector = 0 then recurse e.offset e.offset partNr
      else recurse ((e.offset + primaryExtendedSector) % 2 ^ 32) primaryExtendedSector partNr) =
        .error message) :
    scanEntries device recurse sector primaryExtendedSector (e :: rest) partNr = .error message := by
  have kept : ¬ (e.size = 0 ∨ e.type = 0) := by
    rintro (empty | empty)
    · exact extended.1 empty
    · exact extended.2.1 empty
  simp only [scanEntries, kept, extended.2.2, if_false, if_true, bind, Except.bind]
  split_ifs at nested ⊢ <;> simp only [nested]

end Scan

/-! ## An extended entry read back from sector 0 -/

section Loop

variable {device : Device} {before after : List Entry} {e : Entry}

/-- The arguments `read_partition_table` is called with once the table in sector 0
has an extended entry `e`: the first call, the call on `e`, and the calls on
`e.offset + primary_extended_sector`. -/
def LoopArgs (e : Entry) (sector primaryExtendedSector : Nat) : Prop :=
  sector = 0 ∧ primaryExtendedSector = 0 ∨
    primaryExtendedSector = e.offset ∧ (sector = e.offset ∨ sector = (e.offset + e.offset) % 2 ^ 32)

/-- The next call, made from `sector` on the table of sector 0. -/
def nextSector (e : Entry) (sector primaryExtendedSector : Nat) : Nat × Nat :=
  if sector = 0 then (e.offset, e.offset)
  else ((e.offset + primaryExtendedSector) % 2 ^ 32, primaryExtendedSector)

theorem loopArgs_next {sector primaryExtendedSector : Nat}
    (args : LoopArgs e sector primaryExtendedSector) :
    LoopArgs e (nextSector e sector primaryExtendedSector).1
      (nextSector e sector primaryExtendedSector).2 := by
  unfold nextSector
  split_ifs with zero
  · exact .inr ⟨rfl, .inl rfl⟩
  · rcases args with ⟨rfl, -⟩ | ⟨rfl, -⟩
    · exact absurd rfl zero
    · exact .inr ⟨rfl, .inr rfl⟩

theorem loopArgs_inside (inside : e.offset < device.size)
    (twiceInside : (e.offset + e.offset) % 2 ^ 32 < device.size) {sector primaryExtendedSector : Nat}
    (args : LoopArgs e sector primaryExtendedSector) : sector < device.size := by
  rcases args with ⟨rfl, -⟩ | ⟨-, rfl | rfl⟩ <;> omega

variable (signed : signature (device.sectors 0) = 0xaa55)
  (table : entries (device.sectors 0) = before ++ e :: after)
  (ordinary : ∀ x ∈ before, Ordinary x)
  (extended : e.size ≠ 0 ∧ e.type ≠ 0 ∧ isExtended e.type = true)
  (inside : e.offset < device.size) (twiceInside : (e.offset + e.offset) % 2 ^ 32 < device.size)
include signed table ordinary extended inside twiceInside

/-- One level with a table to spare: the table read is sector 0's, whose extended entry `e`
makes the call `nextSector`; whatever that call ends in, this one does. -/
theorem readPartitionTable_succ {fuel room sector primaryExtendedSector : Nat} (partNr : Nat)
    (args : LoopArgs e sector primaryExtendedSector) {message : String}
    (nested : ∀ partNr, readPartitionTable device fuel room (nextSector e sector primaryExtendedSector).1
      (nextSector e sector primaryExtendedSector).2 partNr = .error message) :
    readPartitionTable device (fuel + 1) (room + 1) sector primaryExtendedSector partNr =
      .error message := by
  have within := loopArgs_inside inside twiceInside args
  have read : blockRead device 0 = .ok (device.sectors 0) := by
    simp only [blockRead, ite_eq_right_iff, reduceCtorEq, imp_false, Nat.not_le]
    omega
  have scanned : scanEntries device (readPartitionTable device fuel room) sector primaryExtendedSector
      (before ++ e :: after) partNr = .error message := by
    apply scanEntries_error_of_ordinary device _ _ _ ordinary
    intro partNr'
    apply scanEntries_error_of_extended device _ _ _ after extended
    have failing := nested partNr'
    unfold nextSector at failing
    split_ifs at failing ⊢ <;> exact failing
  simp only [readPartitionTable, Nat.not_le.mpr within, if_false, Nat.add_one_ne_zero,
    Nat.add_sub_cancel, read, signed, ne_eq,
    not_true_eq_false, table, scanned, bind, Except.bind]

theorem readPartitionTable_stuck (fuel : Nat) :
    ∀ room sector primaryExtendedSector partNr, LoopArgs e sector primaryExtendedSector →
      readPartitionTable device fuel room sector primaryExtendedSector partNr =
        .error (if fuel ≤ room then "out of fuel" else "Failed to allocate memory for partition table.") := by
  -- induction on the fuel, for every room, since each level takes one of each
  induction fuel with
  | zero => intro room sector primaryExtendedSector partNr _; rfl
  | succ fuel ih =>
    intro room sector primaryExtendedSector partNr args
    cases room with
    | zero =>
      have within := loopArgs_inside inside twiceInside args
      simp [readPartitionTable, Nat.not_le.mpr within]
    | succ room =>
      rw [readPartitionTable_succ signed table ordinary extended inside twiceInside partNr args
        fun partNr => ih room _ _ partNr (loopArgs_next args)]
      simp only [Nat.add_le_add_iff_right]

end Loop

/-- For every device whose sector 0 holds a table with a valid signature whose first
extended entry names a sector `e` inside the device, with `2 e` inside it too,
`partition_scan` never returns: every level reads sector 0 again, the levels
below the first call themselves on the same sector, and each holds its table, so the
scan ends out of fuel or in the `PANIC` of a failed `malloc`. -/
theorem partitionScan_never_returns {device : Device} {before after : List Entry} {e : Entry}
    (signed : signature (device.sectors 0) = 0xaa55)
    (table : entries (device.sectors 0) = before ++ e :: after)
    (ordinary : ∀ x ∈ before, Ordinary x)
    (extended : e.size ≠ 0 ∧ e.type ≠ 0 ∧ isExtended e.type = true)
    (inside : e.offset < device.size) (twiceInside : (e.offset + e.offset) % 2 ^ 32 < device.size)
    (room fuel : Nat) :
    partitionScan device room fuel =
      .error (if fuel ≤ room then "out of fuel" else "Failed to allocate memory for partition table.") := by
  have looping := readPartitionTable_stuck signed table ordinary extended inside twiceInside
    fuel room 0 0 0 (.inl ⟨rfl, rfl⟩)
  simp [partitionScan, looping, Functor.map, Except.map]

/-- A table with one extended partition, from sector 2 for 6 sectors. -/
def extendedMbr : List UInt8 :=
  List.replicate 450 0 ++ [0x05, 0, 0, 0, 2, 0, 0, 0, 6, 0, 0, 0] ++ List.replicate 48 0 ++ [0x55, 0xaa]

/-- An 8-sector disk with that table in sector 0 and a table in sector 2 holding a file
system partition of 2 sectors from sector 3. -/
def extendedDisk : Device where
  size := 8
  sectors sector :=
    if sector = 0 then extendedMbr
    else if sector = 2 then
      List.replicate 450 0 ++ [0x21, 0, 0, 0, 1, 0, 0, 0, 2, 0, 0, 0] ++ List.replicate 48 0 ++
        [0x55, 0xaa]
    else List.replicate 512 0

theorem extendedDisk_never_scanned :
    (signature (extendedDisk.sectors 0) = 0xaa55 ∧
      entries (extendedDisk.sectors 0) =
        [] ++ ⟨0, 0x05, 2, 6⟩ :: [⟨0, 0, 0, 0⟩, ⟨0, 0, 0, 0⟩, ⟨0, 0, 0, 0⟩]) ∧
      ∀ room fuel, partitionScan extendedDisk room fuel =
        .error (if fuel ≤ room then "out of fuel" else "Failed to allocate memory for partition table.") := by
  have signed : signature (extendedDisk.sectors 0) = 0xaa55 := by decide +kernel
  have table : entries (extendedDisk.sectors 0) =
      [] ++ ⟨0, 0x05, 2, 6⟩ :: [⟨0, 0, 0, 0⟩, ⟨0, 0, 0, 0⟩, ⟨0, 0, 0, 0⟩] := by decide +kernel
  exact ⟨⟨signed, table⟩, partitionScan_never_returns signed table (by simp)
    (by decide) (by decide) (by decide)⟩

end Pintos.Partition
