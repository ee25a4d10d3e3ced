import Mathlib
import Pintos.Filesys.InodeData
import Pintos.Filesys.OpenTable

/-!
# Directories

`filesys/directory.c` over the bytes of a directory's file.  A `struct dir_entry` is
`dirEntrySize` bytes of it: the inode's sector in four little-endian bytes, the name in
`nameMax + 1` bytes ended by a null byte, and `in_use`.  `lookup`, the free-slot loop of
`dir_add` and `dir_readdir` read the entries one after another with `inode_read_at` until a
read comes back short at the end of the file; `dir_add` and `dir_remove` write one entry
back with `inode_write_at`, which does not grow the file, so a full directory shows as a
short write at its end.  A `struct dir` is the address of its inode, with `pos` passed to
and returned by `dir_readdir`.

What a directory is for is a finite map from names to sectors with room for as many names
as its file has entries (`Names`).  `Holds` says which bytes hold which map.
-/

namespace Pintos.Directory

open Filesys InodeData

/-! ## `directory.c` -/

/-- The offset of `in_use` in a `struct dir_entry`. -/
def inUseOffset : Nat := 4 + (nameMax + 1)

def inodeSectorOf (e : List UInt8) : Nat := Partition.readField e 0 4

def nameOf (e : List UInt8) : List UInt8 := ((e.drop 4).take (nameMax + 1)).takeWhile (· ≠ 0)

def inUseOf (e : List UInt8) : Bool := e.getD inUseOffset 0 != 0

/-- The four little-endian bytes of a `block_sector_t`. -/
def sectorBytes (sector : Nat) : List UInt8 := (List.range 4).map fun i => UInt8.ofNat (sector / 256 ^ i)

/-- `inode_read_at (dir->inode, &e, sizeof e, ofs)`: the bytes read land at the front of
`e`, and the read is whole when it returns `sizeof e`. -/
def readEntry (fs : Filesys) (dir : Nat) (e : List UInt8) (ofs : Int) :
    Except String (List UInt8 × Bool) := do
  let bytes ← fs.inodeReadAt dir dirEntrySize ofs
  return (bytes ++ e.drop bytes.length, bytes.length == dirEntrySize)

/-- The loop `lookup`, `dir_add` and `dir_readdir` share: read the entries from `ofs` on
until one satisfies `stop` or a read comes back short.  The offset reached, `e` as the
reads left it, and whether an entry stopped the loop. -/
def entryLoop (fs : Filesys) (dir : Nat) (stop : List UInt8 → Bool) :
    Nat → Int → List UInt8 → Except String (Int × List UInt8 × Bool)
  | 0, _, _ => throw "out of fuel"
  | fuel + 1, ofs, e => do
      let (e, whole) ← readEntry fs dir e ofs
      if !whole then return (ofs, e, false)
      if stop e then return (ofs, e, true)
      entryLoop fs dir stop fuel (ofs + dirEntrySize) e

/-- Turns enough for the loop: one per entry of the file and one for the short read at
its end. -/
def turns (fs : Filesys) (dir : Nat) : Nat :=
  match fs.inodes.get dir with
  | some inode => inode.data.length.toNat / dirEntrySize + 1
  | none => 1

/-- The `struct dir_entry e` on the stack before a read; its bytes are taken as zeros. -/
def blankEntry : List UInt8 := List.replicate dirEntrySize 0

/-- `lookup`: the entry in use named `name`, and its offset. -/
def lookup (fs : Filesys) (dir : Nat) (name : List UInt8) :
    Except String (Option (List UInt8 × Int)) := do
  let (ofs, e, found) ←
    entryLoop fs dir (fun e => inUseOf e && nameOf e == name) (turns fs dir) 0 blankEntry
  return if found then some (e, ofs) else none

/-- `dir_lookup`: the inode of the file named `name`, opened. -/
def dirLookup (fs : Filesys) (dir : Nat) (name : List UInt8) :
    Except String (Filesys × Option Nat) := do
  match ← lookup fs dir name with
  | some (e, _) =>
      let (fs, inode) ← fs.inodeOpen (inodeSectorOf e)
      return (fs, some inode)
  | none => return (fs, none)

/-- The entry `dir_add` writes: `e` in use, `strlcpy (e.name, name, sizeof e.name)`, and
the sector. -/
def addedEntry (e name : List UInt8) (inodeSector : Nat) : List UInt8 :=
  overwrite (overwrite (e.set inUseOffset 1) 4 (name.take nameMax ++ [0])) 0
    (sectorBytes inodeSector)

def dirAdd (fs : Filesys) (dir : Nat) (name : List UInt8) (inodeSector : Nat) :
    Except String (Filesys × Bool) := do
  if name = [] ∨ nameMax < name.length then return (fs, false)
  if (← lookup fs dir name).isSome then return (fs, false)
  let (ofs, e, _) ← entryLoop fs dir (fun e => !inUseOf e) (turns fs dir) 0 blankEntry
  let (fs, written) ← fs.inodeWriteAt dir (addedEntry e name inodeSector) dirEntrySize ofs
  return (fs, written == dirEntrySize)

def dirRemove (fs : Filesys) (dir : Nat) (name : List UInt8) :
    Except String (Filesys × Bool) := do
  let some (e, ofs) ← lookup fs dir name | return (fs, false)
  let (fs, inode) ← fs.inodeOpen (inodeSectorOf e)
  let (fs, written) ← fs.inodeWriteAt dir (e.set inUseOffset 0) dirEntrySize ofs
  if written ≠ dirEntrySize then
    let fs ← fs.inodeClose inode
    return (fs, false)
  let fs ← fs.inodeRemove inode
  let fs ← fs.inodeClose inode
  return (fs, true)

/-- Entry `i` of a directory's bytes. -/
def slot (bytes : List UInt8) (i : Nat) : List UInt8 :=
  (bytes.drop (i * dirEntrySize)).take dirEntrySize

def decode (e : List UInt8) : DirEntry :=
  { inodeSector := inodeSectorOf e, name := nameOf e, inUse := inUseOf e }

/-- The entries of a directory's bytes, as `Filesys.rootDir` lists them. -/
def entries (bytes : List UInt8) : List DirEntry :=
  (List.range (bytes.length / dirEntrySize)).map fun i => decode (slot bytes i)

/-- The name `dir_readdir` gives for an entry in use. -/
def listed (entry : DirEntry) : Option (List UInt8) :=
  if entry.inUse then some (entry.name.take nameMax) else none

theorem dirEntrySize_eq : dirEntrySize = 20 := rfl

theorem length_blankEntry : blankEntry.length = dirEntrySize := List.length_replicate

/-! ## Reading and writing the directory's file -/

section File

variable {fs : Filesys} {address : Nat} {inode : Inode}

theorem inodeReadAt_eq (found : fs.inodes.get address = some inode) {size offset : Int}
    (sizeNonneg : 0 ≤ size) (start : 0 ≤ offset) :
    fs.inodeReadAt address size offset =
      .ok (((fs.contents inode.sector).drop offset.toNat).take
        (count inode.data.length size offset).toNat) := by
  simp only [Filesys.inodeReadAt, found]
  rw [readLoop_spec sizeNonneg start (by omega), List.nil_append]
  rfl

theorem inodeWriteAt_eq (found : fs.inodes.get address = some inode)
    (writable : inode.denyWriteCnt = 0)
    (length : (fs.contents inode.sector).length = inode.data.length.toNat)
    {buffer : List UInt8} {size offset : Int} (sizeNonneg : 0 ≤ size) (start : 0 ≤ offset)
    (buffered : size ≤ buffer.length) :
    fs.inodeWriteAt address buffer size offset =
      .ok ({ fs with
          contents := Function.update fs.contents inode.sector
            (overwrite (fs.contents inode.sector) offset.toNat
              (buffer.take (count inode.data.length size offset).toNat)) },
        count inode.data.length size offset) := by
  simp only [Filesys.inodeWriteAt, found, writable, ne_eq, not_true_eq_false, if_false]
  rw [writeLoop_spec length sizeNonneg start (Int.le_refl 0) (by omega) (by omega)]
  simp only [Int.toNat_zero, List.drop_zero, Int.zero_add]
  rfl

end File

/-! ## The loop over the entries -/

section Loop

variable {fs : Filesys} {dir : Nat} {inode : Inode} {slots : Nat}
  (found : fs.inodes.get dir = some inode)
  (length : inode.data.length = (slots * dirEntrySize : Nat))
  (sized : (fs.contents inode.sector).length = slots * dirEntrySize)

theorem length_slot {bytes : List UInt8} (sized : bytes.length = slots * dirEntrySize) {i : Nat}
    (inside : i < slots) : (slot bytes i).length = dirEntrySize := by
  simp only [slot, List.length_take, List.length_drop, sized, dirEntrySize_eq]
  omega

theorem length_entries {bytes : List UInt8} (sized : bytes.length = slots * dirEntrySize) :
    (entries bytes).length = slots := by
  simp [entries, sized, dirEntrySize_eq]

theorem getElem_entries (bytes : List UInt8) {i : Nat} (inside : i < (entries bytes).length) :
    (entries bytes)[i] = decode (slot bytes i) := by
  simp [entries]

include found length sized

omit sized in
theorem turns_eq : turns fs dir = slots + 1 := by
  simp only [turns, found, length, Int.toNat_natCast, dirEntrySize_eq]
  omega

theorem readEntry_slot {e : List UInt8} (short : e.length ≤ dirEntrySize) {i : Nat}
    (inside : i < slots) :
    readEntry fs dir e (i * dirEntrySize : Nat) = .ok (slot (fs.contents inode.sector) i, true) := by
  have whole : count inode.data.length dirEntrySize (i * dirEntrySize : Nat) = dirEntrySize := by
    rw [length]
    unfold count
    rw [dirEntrySize_eq]
    omega
  have read : fs.inodeReadAt dir dirEntrySize (i * dirEntrySize : Nat) =
      .ok (slot (fs.contents inode.sector) i) := by
    rw [inodeReadAt_eq found (by decide) (by omega), whole, Int.toNat_natCast, Int.toNat_natCast]
    rfl
  rw [readEntry, read]
  simp only [bind, Except.bind, pure, Except.pure, length_slot sized inside,
    List.drop_eq_nil_of_le short, List.append_nil, beq_self_eq_true]

theorem readEntry_end (e : List UInt8) :
    readEntry fs dir e (slots * dirEntrySize : Nat) = .ok (e, false) := by
  have empty : count inode.data.length dirEntrySize (slots * dirEntrySize : Nat) = 0 := by
    rw [length]
    unfold count
    omega
  have read : fs.inodeReadAt dir dirEntrySize (slots * dirEntrySize : Nat) = .ok [] := by
    rw [inodeReadAt_eq found (by decide) (by omega), empty, Int.toNat_zero, List.take_zero]
  rw [readEntry, read]
  rfl

theorem entryLoop_slot {stop : List UInt8 → Bool} {fuel : Nat} {e : List UInt8}
    (short : e.length ≤ dirEntrySize) {i : Nat} (inside : i < slots) :
    entryLoop fs dir stop (fuel + 1) (i * dirEntrySize : Nat) e =
      if stop (slot (fs.contents inode.sector) i) then
        .ok ((i * dirEntrySize : Nat), slot (fs.contents inode.sector) i, true)
      else entryLoop fs dir stop fuel ((i + 1) * dirEntrySize : Nat) (slot (fs.contents inode.sector) i) := by
  rw [entryLoop, readEntry_slot found length sized short inside]
  simp only [bind, Except.bind, Bool.not_true, Bool.false_eq_true, if_false, pure, Except.pure]
  split
  · rfl
  · rw [Nat.add_mul, Nat.one_mul, Int.natCast_add]

theorem entryLoop_end {stop : List UInt8 → Bool} {fuel : Nat} (e : List UInt8) :
    entryLoop fs dir stop (fuel + 1) (slots * dirEntrySize : Nat) e =
      .ok ((slots * dirEntrySize : Nat), e, false) := by
  rw [entryLoop, readEntry_end found length sized]
  rfl

theorem entryLoop_found {stop : List UInt8 → Bool} {j : Nat} (inside : j < slots)
    (stops : stop (slot (fs.contents inode.sector) j) = true) {fuel : Nat} :
    ∀ {i : Nat} {e : List UInt8}, i ≤ j →
      (∀ k, i ≤ k → k < j → stop (slot (fs.contents inode.sector) k) = false) →
      j - i < fuel → e.length ≤ dirEntrySize →
      entryLoop fs dir stop fuel (i * dirEntrySize : Nat) e =
        .ok ((j * dirEntrySize : Nat), slot (fs.contents inode.sector) j, true) := by
  induction fuel with
  | zero => intros; omega
  | succ fuel ih =>
    intro i e before passes enough short
    rw [entryLoop_slot found length sized short (by omega)]
    rcases Nat.lt_or_eq_of_le before with earlier | rfl
    · rw [passes i (Nat.le_refl i) earlier, if_neg Bool.false_ne_true]
      exact ih (by omega) (fun k above below => passes k (by omega) below) (by omega)
        (Nat.le_of_eq (length_slot sized (by omega)))
    · rw [if_pos stops]

theorem entryLoop_none {stop : List UInt8 → Bool} {fuel : Nat} :
    ∀ {i : Nat} {e : List UInt8}, i ≤ slots →
      (∀ k, i ≤ k → k < slots → stop (slot (fs.contents inode.sector) k) = false) →
      slots - i < fuel → e.length = dirEntrySize →
      ∃ e', entryLoop fs dir stop fuel (i * dirEntrySize : Nat) e =
        .ok ((slots * dirEntrySize : Nat), e', false) ∧ e'.length = dirEntrySize := by
  induction fuel with
  | zero => intros; omega
  | succ fuel ih =>
    intro i e start passes enough short
    rcases Nat.lt_or_eq_of_le start with inside | rfl
    · rw [entryLoop_slot found length sized (Nat.le_of_eq short) inside,
        passes i (Nat.le_refl i) inside, if_neg Bool.false_ne_true]
      exact ih (by omega) (fun k above below => passes k (by omega) below) (by omega)
        (length_slot sized inside)
    · exact ⟨e, entryLoop_end found length sized e, short⟩

theorem entryLoop_findIdx_some (p : DirEntry → Bool) {j : Nat}
    (first : (entries (fs.contents inode.sector)).findIdx? p = some j) {fuel : Nat}
    (enough : slots < fuel) :
    entryLoop fs dir (fun e => p (decode e)) fuel 0 blankEntry =
      .ok ((j * dirEntrySize : Nat), slot (fs.contents inode.sector) j, true) := by
  obtain ⟨inside, holds, before⟩ := List.findIdx?_eq_some_iff_getElem.mp first
  rw [length_entries sized] at inside
  have start : ((0 * dirEntrySize : Nat) : Int) = 0 := rfl
  rw [← start]
  refine entryLoop_found found length sized inside ?_ (Nat.zero_le j) (fun k _ below => ?_)
    (by omega) (Nat.le_of_eq length_blankEntry)
  · rwa [getElem_entries] at holds
  · have passed := before k below
    rw [getElem_entries] at passed
    simpa using passed

theorem entryLoop_findIdx_none (p : DirEntry → Bool)
    (none : (entries (fs.contents inode.sector)).findIdx? p = none) {fuel : Nat}
    (enough : slots < fuel) :
    ∃ e, entryLoop fs dir (fun e => p (decode e)) fuel 0 blankEntry =
      .ok ((slots * dirEntrySize : Nat), e, false) ∧ e.length = dirEntrySize := by
  have start : ((0 * dirEntrySize : Nat) : Int) = 0 := rfl
  rw [← start]
  refine entryLoop_none found length sized (Nat.zero_le slots) (fun k _ below => ?_) (by omega)
    length_blankEntry
  have inside : k < (entries (fs.contents inode.sector)).length := by
    rwa [length_entries sized]
  have passed := List.findIdx?_eq_none_iff.mp none _ (List.getElem_mem inside)
  rwa [getElem_entries] at passed

theorem writeEntry_slot (writable : inode.denyWriteCnt = 0) {e : List UInt8}
    (short : e.length = dirEntrySize) {j : Nat} (inside : j < slots) :
    fs.inodeWriteAt dir e dirEntrySize (j * dirEntrySize : Nat) =
      .ok ({ fs with
          contents := Function.update fs.contents inode.sector
            (overwrite (fs.contents inode.sector) (j * dirEntrySize) e) }, dirEntrySize) := by
  have whole : count inode.data.length dirEntrySize (j * dirEntrySize : Nat) = dirEntrySize := by
    rw [length]
    unfold count
    rw [dirEntrySize_eq]
    omega
  rw [inodeWriteAt_eq found writable (by rw [sized, length, Int.toNat_natCast]) (by decide) (by omega)
    (Int.le_of_eq (by rw [short])), whole, Int.toNat_natCast, Int.toNat_natCast, ← short, List.take_length]

theorem writeEntry_end (writable : inode.denyWriteCnt = 0) {e : List UInt8}
    (short : e.length = dirEntrySize) :
    fs.inodeWriteAt dir e dirEntrySize (slots * dirEntrySize : Nat) = .ok (fs, 0) := by
  have empty : count inode.data.length dirEntrySize (slots * dirEntrySize : Nat) = 0 := by
    rw [length]
    unfold count
    omega
  rw [inodeWriteAt_eq found writable (by rw [sized, length, Int.toNat_natCast]) (by decide) (by omega)
    (Int.le_of_eq (by rw [short])), empty, Int.toNat_zero, List.take_zero, overwrite_nil, Function.update_eq_self]

theorem lookup_eq (name : List UInt8) :
    lookup fs dir name =
      .ok ((Filesys.lookup { fs with rootDir := entries (fs.contents inode.sector) } name).map
        fun j => (slot (fs.contents inode.sector) j, ((j * dirEntrySize : Nat) : Int))) := by
  rw [lookup, turns_eq found length]
  cases first : Filesys.lookup { fs with rootDir := entries (fs.contents inode.sector) } name with
  | some j =>
    have run : entryLoop fs dir (fun e => inUseOf e && nameOf e == name) (slots + 1) 0 blankEntry =
        .ok ((j * dirEntrySize : Nat), slot (fs.contents inode.sector) j, true) :=
      entryLoop_findIdx_some found length sized (fun entry => entry.inUse && entry.name == name)
        first (by omega)
    rw [run]
    rfl
  | none =>
    obtain ⟨e, run, -⟩ : ∃ e, entryLoop fs dir (fun e => inUseOf e && nameOf e == name) (slots + 1)
        0 blankEntry = .ok ((slots * dirEntrySize : Nat), e, false) ∧ e.length = dirEntrySize :=
      entryLoop_findIdx_none found length sized (fun entry => entry.inUse && entry.name == name)
        first (by omega)
    rw [run]
    rfl

end Loop

/-! ## The bytes of an entry -/

section Fields

variable {e : List UInt8} (short : e.length = dirEntrySize)

theorem inodeSectorOf_sectorBytes {sector : Nat} (small : sector < 2 ^ 32) (rest : List UInt8) :
    inodeSectorOf (sectorBytes sector ++ rest) = sector := by
  simp only [inodeSectorOf, sectorBytes, List.range_succ, List.range_zero, List.nil_append,
    List.map_cons, List.map_nil, List.cons_append, Partition.readField,
    List.getD_eq_getElem?_getD, List.getElem?_cons_zero, List.getElem?_cons_succ, Option.getD_some,
    UInt8.toNat_ofNat']
  omega

theorem length_sectorBytes (sector : Nat) : (sectorBytes sector).length = 4 := by
  simp [sectorBytes]

theorem nameField_strlcpy {name rest : List UInt8} (noNull : 0 ∉ name) (fits : name.length ≤ nameMax) :
    ((name ++ 0 :: rest).take (nameMax + 1)).takeWhile (· ≠ 0) = name := by
  have taken : (name ++ 0 :: rest).take (nameMax + 1) =
      name ++ 0 :: rest.take (nameMax - name.length) := by
    rw [List.take_append, List.take_of_length_le (by omega),
      show nameMax + 1 - name.length = (nameMax - name.length) + 1 by omega, List.take_succ_cons]
  have named : ∀ byte ∈ name, decide (byte ≠ 0) = true := by
    intro byte mem
    simp only [decide_eq_true_eq]
    rintro rfl
    exact noNull mem
  rw [taken, List.takeWhile_append_of_pos named, List.takeWhile_cons_of_neg (by simp),
    List.append_nil]

include short

theorem length_addedEntry (name : List UInt8) (sector : Nat) :
    (addedEntry e name sector).length = dirEntrySize := by
  have set : (e.set inUseOffset 1).length = dirEntrySize := by rw [List.length_set, short]
  have named : 4 + (name.take nameMax ++ [0]).length ≤ (e.set inUseOffset 1).length := by
    simp only [List.length_append, List.length_take, List.length_singleton, set, dirEntrySize_eq, nameMax]
    omega
  rw [addedEntry, length_overwrite (by rw [length_overwrite named, set, length_sectorBytes]; decide),
    length_overwrite named, set]

theorem decode_addedEntry {name : List UInt8} (noNull : 0 ∉ name) (fits : name.length ≤ nameMax)
    {sector : Nat} (small : sector < 2 ^ 32) :
    decode (addedEntry e name sector) = { inodeSector := sector, name := name, inUse := true } := by
  have set : (e.set inUseOffset 1).length = dirEntrySize := by rw [List.length_set, short]
  have named : 4 + (name.take nameMax ++ [0]).length ≤ (e.set inUseOffset 1).length := by
    simp only [List.length_append, List.length_take, List.length_singleton, set, dirEntrySize_eq, nameMax]
    omega
  -- the sector's four bytes, then the named entry from byte 4 on
  have front : addedEntry e name sector =
      sectorBytes sector ++ (overwrite (e.set inUseOffset 1) 4 (name.take nameMax ++ [0])).drop 4 := by
    rw [addedEntry, overwrite, List.take_zero, List.nil_append]
    rfl
  have fromName : (overwrite (e.set inUseOffset 1) 4 (name.take nameMax ++ [0])).drop 4 =
      name ++ 0 :: (e.set inUseOffset 1).drop (4 + (name.take nameMax ++ [0]).length) := by
    rw [overwrite, List.append_assoc, List.drop_append_of_le_length (by simp [set, dirEntrySize_eq]),
      List.drop_of_length_le (by simp [set, dirEntrySize_eq]), List.nil_append,
      List.take_of_length_le fits, List.append_assoc, List.singleton_append]
  have inUse : (addedEntry e name sector).getD inUseOffset 0 = 1 := by
    rw [addedEntry, overwrite_getD (by rw [length_overwrite named, set, length_sectorBytes]; decide),
      if_neg (by simp [sectorBytes, inUseOffset, nameMax]), overwrite_getD named,
      if_neg (by
        unfold inUseOffset
        rw [List.length_append, List.length_take, List.length_singleton]
        omega), List.getD_eq_getElem?_getD,
      List.getElem?_set_self (by rw [short]; decide)]
    rfl
  simp only [decode, DirEntry.mk.injEq]
  refine ⟨?_, ?_, ?_⟩
  · rw [front]
    exact inodeSectorOf_sectorBytes small _
  · rw [nameOf, front, List.drop_left' (length_sectorBytes sector), fromName]
    exact nameField_strlcpy noNull fits
  · rw [inUseOf, inUse]
    rfl

end Fields

/-! ## Writing one entry -/

section Slots

variable {bytes : List UInt8} {slots : Nat}

theorem slot_getD (bytes : List UInt8) (i k : Nat) :
    (slot bytes i).getD k 0 =
      if k < dirEntrySize then bytes.getD (i * dirEntrySize + k) 0 else 0 := by
  simp only [slot, List.getD_eq_getElem?_getD, List.getElem?_take, List.getElem?_drop]
  split <;> rfl

theorem slot_overwrite (sized : bytes.length = slots * dirEntrySize) {j : Nat} (inside : j < slots)
    {e : List UInt8} (short : e.length = dirEntrySize) (i : Nat) :
    slot (overwrite bytes (j * dirEntrySize) e) i = if i = j then e else slot bytes i := by
  have fits : j * dirEntrySize + e.length ≤ bytes.length := by
    rw [short, sized, dirEntrySize_eq]
    omega
  have sized' : (overwrite bytes (j * dirEntrySize) e).length = slots * dirEntrySize := by
    rw [length_overwrite fits, sized]
  by_cases same : i = j
  · subst same
    rw [if_pos rfl]
    apply ext_getD
    · rw [length_slot sized' inside, short]
    · intro k below
      rw [length_slot sized' inside] at below
      rw [slot_getD, if_pos below, overwrite_getD fits, short, if_pos (by omega),
        show i * dirEntrySize + k - i * dirEntrySize = k by omega]
  · rw [if_neg same]
    apply ext_getD
    · simp only [slot, List.length_take, List.length_drop, sized', sized]
    · intro k _
      rw [slot_getD, slot_getD]
      split
      · rw [overwrite_getD fits, if_neg]
        rw [short, dirEntrySize_eq] at *
        intro hit
        have : i * 20 + k < (j + 1) * 20 := by omega
        have : j * 20 < (i + 1) * 20 := by omega
        have : i < j + 1 := by omega
        have : j < i + 1 := by omega
        omega
      · rfl

theorem entries_overwrite (sized : bytes.length = slots * dirEntrySize) {j : Nat} (inside : j < slots)
    {e : List UInt8} (short : e.length = dirEntrySize) :
    entries (overwrite bytes (j * dirEntrySize) e) = (entries bytes).set j (decode e) := by
  have fits : j * dirEntrySize + e.length ≤ bytes.length := by
    rw [short, sized, dirEntrySize_eq]
    omega
  apply List.ext_getElem
  · rw [List.length_set, length_entries sized, length_entries (by rw [length_overwrite fits, sized])]
  · intro i inside' _
    rw [getElem_entries, List.getElem_set, slot_overwrite sized inside short]
    by_cases same : i = j
    · rw [if_pos same, if_pos same.symm]
    · rw [if_neg same, if_neg (Ne.symm same), getElem_entries]

theorem filterMap_set_perm {α β : Type} (f : α → Option β) {l : List α} {j : Nat}
    (inside : j < l.length) (y : α) (dropped : f l[j] = none) :
    ((l.set j y).filterMap f).Perm ((f y).toList ++ l.filterMap f) := by
  have split : l = l.take j ++ l[j] :: l.drop (j + 1) := by
    rw [← List.drop_eq_getElem_cons inside, List.take_append_drop]
  rw [List.set_eq_take_append_cons_drop, if_pos inside]
  conv => rhs; rw [split]
  rw [List.filterMap_append, List.filterMap_append, List.filterMap_cons, List.filterMap_cons, dropped]
  cases f y with
  | none => exact List.Perm.refl _
  | some x => exact List.perm_middle

end Slots

/-! ## What a directory holds -/

/-- What a directory is for: a finite map from names to inode sectors. -/
abbrev Names := AList fun _ : List UInt8 => Nat

/-- The name and sector of an entry in use. -/
def named (entry : DirEntry) : Option (Sigma fun _ : List UInt8 => Nat) :=
  if entry.inUse then some ⟨entry.name, entry.inodeSector⟩ else none

/-- The bytes of a directory of `slots` entries hold `names`: its entries in use are the
names' entries, in some order. -/
structure Holds (slots : Nat) (bytes : List UInt8) (names : Names) : Prop where
  sized : bytes.length = slots * dirEntrySize
  present : ((entries bytes).filterMap named).Perm names.entries

namespace Holds

variable {slots : Nat} {bytes : List UInt8} {names : Names} (holds : Holds slots bytes names)
include holds

theorem nodupKeys : ((entries bytes).filterMap named).NodupKeys :=
  (List.perm_nodupKeys holds.present).mpr names.nodupKeys

theorem add {j : Nat} (inside : j < slots) (free : inUseOf (slot bytes j) = false)
    {e : List UInt8} (short : e.length = dirEntrySize) {name : List UInt8} {sector : Nat}
    (decoded : decode e = { inodeSector := sector, name := name, inUse := true })
    (absent : name ∉ names) :
    Holds slots (overwrite bytes (j * dirEntrySize) e) (names.insert name sector) := by
  have fits : j * dirEntrySize + e.length ≤ bytes.length := by
    rw [short, holds.sized, dirEntrySize_eq]
    omega
  have inside' : j < (entries bytes).length := by rwa [length_entries holds.sized]
  refine ⟨by rw [length_overwrite fits, holds.sized], ?_⟩
  rw [entries_overwrite holds.sized inside short, AList.entries_insert_of_notMem absent]
  refine (filterMap_set_perm named inside' (decode e) ?_).trans ?_
  · rw [getElem_entries]
    simp [named, decode, free]
  · rw [decoded]
    exact holds.present.cons _

theorem remove {j : Nat} (inside : j < slots) {name : List UInt8}
    (used : inUseOf (slot bytes j) = true) (same : nameOf (slot bytes j) = name)
    {e : List UInt8} (short : e.length = dirEntrySize) (freed : inUseOf e = false) :
    Holds slots (overwrite bytes (j * dirEntrySize) e) (names.erase name) := by
  have fits : j * dirEntrySize + e.length ≤ bytes.length := by
    rw [short, holds.sized, dirEntrySize_eq]
    omega
  have inside' : j < ((entries bytes).set j (decode e)).length := by
    rwa [List.length_set, length_entries holds.sized]
  have insideEntries : j < (entries bytes).length := by rwa [length_entries holds.sized]
  have back : ((entries bytes).set j (decode e)).set j (entries bytes)[j] = entries bytes := by
    rw [List.set_set, List.set_getElem_self]
  have gone : named ((entries bytes).set j (decode e))[j] = none := by
    simp [named, decode, freed]
  have moved := filterMap_set_perm named inside' (entries bytes)[j] gone
  rw [back, getElem_entries] at moved
  simp only [named, decode, used, same, if_true, Option.toList_some, List.singleton_append] at moved
  have nodup := (List.perm_nodupKeys moved).mp holds.nodupKeys
  refine ⟨by rw [length_overwrite fits, holds.sized], ?_⟩
  rw [entries_overwrite holds.sized (by omega) short]
  have erased := (moved.symm.trans holds.present).kerase (a := name) nodup
  rw [List.kerase_cons_eq (a := name)
    (s := (⟨name, inodeSectorOf (slot bytes j)⟩ : Sigma fun _ : List UInt8 => Nat)) rfl] at erased
  exact erased

end Holds

namespace Names

/-- What `dir_add` is for, on a directory with room for `slots` names. -/
def add (slots : Nat) (names : Names) (name : List UInt8) (sector : Nat) : Names × Bool :=
  if name ≠ [] ∧ name.length ≤ nameMax ∧ name ∉ names ∧ names.entries.length < slots then
    (names.insert name sector, true)
  else (names, false)

def remove (names : Names) (name : List UInt8) : Names × Bool :=
  if name ∈ names then (names.erase name, true) else (names, false)

variable {names : Names} {name : List UInt8}

end Names

/-! ## Opening and releasing the inode of an entry -/

section Release

variable {fs : Filesys}

/-- The sectors of the file whose inode is in `sector`: that sector and the data sectors its
inode on the disk names. -/
def fileSectors (fs : Filesys) (sector : Nat) : List Nat :=
  let data := (fs.disk sector).getD { start := 0, length := 0 }
  sector :: List.range' data.start (bytesToSectors data.length)

/-- The file whose inode is in `sector` can be removed: no inode is open on it, and its
sectors, each named once, are in use in the free map. -/
structure Removable (fs : Filesys) (sector : Nat) : Prop where
  closed : fs.findOpenInode sector = none
  distinct : (fileSectors fs sector).Nodup
  inUse : ∀ s ∈ fileSectors fs sector, fs.freeMap.getD s false = true

/-- What a call leaves of the rest of the file system: the objects in memory and the disk as
they were, and the free map as it was outside the `released` sectors. -/
structure Keeps (fs fs' : Filesys) (released : List Nat) : Prop where
  inodes : ∀ address, fs'.inodes.get address = fs.inodes.get address
  openInodes : fs'.openInodes = fs.openInodes
  disk : fs'.disk = fs.disk
  freeMap : ∀ s, s ∉ released → fs'.freeMap.getD s false = fs.freeMap.getD s false

namespace Keeps

variable {fs' fs'' : Filesys} {released released' : List Nat}

theorem refl (fs : Filesys) (released : List Nat) : Keeps fs fs released :=
  ⟨fun _ => rfl, rfl, rfl, fun _ _ => rfl⟩

theorem trans (first : Keeps fs fs' released) (second : Keeps fs' fs'' released') :
    Keeps fs fs'' (released ++ released') := by
  refine ⟨fun address => (second.inodes address).trans (first.inodes address),
    second.openInodes.trans first.openInodes, second.disk.trans first.disk, fun s outside => ?_⟩
  rw [List.mem_append, not_or] at outside
  exact (second.freeMap s outside.2).trans (first.freeMap s outside.1)

theorem fileSectors_eq (keeps : Keeps fs fs' released) (sector : Nat) :
    fileSectors fs' sector = fileSectors fs sector := by
  rw [fileSectors, fileSectors, keeps.disk]

theorem findOpenInode_eq (keeps : Keeps fs fs' released) (sector : Nat) :
    fs'.findOpenInode sector = fs.findOpenInode sector := by
  simp only [findOpenInode, keeps.openInodes, keeps.inodes]

end Keeps

theorem Removable.keep {fs' : Filesys} {sector : Nat} {released : List Nat}
    (removable : Removable fs sector) (keeps : Keeps fs fs' released)
    (apart : (fileSectors fs sector).Disjoint released) : Removable fs' sector := by
  refine ⟨by rw [keeps.findOpenInode_eq]; exact removable.closed,
    by rw [keeps.fileSectors_eq]; exact removable.distinct, fun s mem => ?_⟩
  rw [keeps.fileSectors_eq] at mem
  rw [keeps.freeMap s (fun released => apart mem released)]
  exact removable.inUse s mem

end Release

/-! ## The cases of `dir_add` on the bytes

Each case of `dir_add` for a valid name, against what `Filesys.lookup` and the first free
entry say of the decoded directory; the map and the list models both read their proofs off
these. -/

section Add

variable {fs : Filesys} {dir : Nat} {inode : Inode} {slots : Nat}
  (found : fs.inodes.get dir = some inode) (writable : inode.denyWriteCnt = 0)
  (length : inode.data.length = (slots * dirEntrySize : Nat))
  (sized : (fs.contents inode.sector).length = slots * dirEntrySize)
  {name : List UInt8} {sector : Nat} (valid : ¬(name = [] ∨ nameMax < name.length))
include found length sized valid

omit writable in
theorem dirAdd_of_present {j : Nat}
    (first : Filesys.lookup { fs with rootDir := entries (fs.contents inode.sector) } name = some j) :
    dirAdd fs dir name sector = .ok (fs, false) := by
  rw [dirAdd, if_neg valid, lookup_eq found length sized, first]
  rfl

variable (absent : Filesys.lookup { fs with rootDir := entries (fs.contents inode.sector) } name = none)
include writable absent

theorem dirAdd_of_free {j : Nat}
    (free : (entries (fs.contents inode.sector)).findIdx? (fun entry => !entry.inUse) = some j) :
    dirAdd fs dir name sector =
      .ok ({ fs with
          contents := Function.update fs.contents inode.sector
            (overwrite (fs.contents inode.sector) (j * dirEntrySize)
              (addedEntry (slot (fs.contents inode.sector) j) name sector)) }, true) := by
  obtain ⟨inside, -, -⟩ := List.findIdx?_eq_some_iff_getElem.mp free
  rw [length_entries sized] at inside
  have run : entryLoop fs dir (fun e => !inUseOf e) (turns fs dir) 0 blankEntry =
      .ok ((j * dirEntrySize : Nat), slot (fs.contents inode.sector) j, true) := by
    rw [turns_eq found length]
    exact entryLoop_findIdx_some found length sized (fun entry => !entry.inUse) free (by omega)
  have written := writeEntry_slot found length sized writable
    (length_addedEntry (length_slot sized inside) name sector) inside
  rw [dirAdd, if_neg valid, lookup_eq found length sized, absent]
  simp only [bind, Except.bind, Option.map_none, Option.isSome_none, Bool.false_eq_true, if_false]
  rw [run]
  simp only [written]
  rfl

/-- With no free entry the write lands at the end of the file and writes nothing. -/
theorem dirAdd_of_full
    (full : (entries (fs.contents inode.sector)).findIdx? (fun entry => !entry.inUse) = none) :
    dirAdd fs dir name sector = .ok (fs, false) := by
  obtain ⟨e, run, short⟩ : ∃ e, entryLoop fs dir (fun e => !inUseOf e) (turns fs dir) 0 blankEntry =
      .ok ((slots * dirEntrySize : Nat), e, false) ∧ e.length = dirEntrySize := by
    rw [turns_eq found length]
    exact entryLoop_findIdx_none found length sized (fun entry => !entry.inUse) full (by omega)
  have written := writeEntry_end found length sized writable (length_addedEntry short name sector)
  rw [dirAdd, if_neg valid, lookup_eq found length sized, absent]
  simp only [bind, Except.bind, Option.map_none, Option.isSome_none, Bool.false_eq_true, if_false]
  rw [run]
  simp only [written]
  rfl

end Add

/-! ## The calls on the map -/

section Calls

variable {fs : Filesys} {dir : Nat} {inode : Inode} {slots : Nat} {names : Names}
  (found : fs.inodes.get dir = some inode) (writable : inode.denyWriteCnt = 0)
  (length : inode.data.length = (slots * dirEntrySize : Nat))
  (holds : Holds slots (fs.contents inode.sector) names)
include found writable length holds

end Calls

/-! ## Sequences of calls -/

/-- A call that changes a directory. -/
inductive Op where
  | add (name : List UInt8) (sector : Nat)
  | remove (name : List UInt8)

namespace Op

def apply (fs : Filesys) (dir : Nat) : Op → Except String (Filesys × Bool)
  | add name sector => dirAdd fs dir name sector
  | remove name => dirRemove fs dir name

end Op

/-- The calls one after another, with what each returns; an error stops the run. -/
def runOps (fs : Filesys) (dir : Nat) : List Op → Except String (Filesys × List Bool)
  | [] => .ok (fs, [])
  | op :: ops => do
      let (fs, ok) ← op.apply fs dir
      let (fs, oks) ← runOps fs dir ops
      return (fs, ok :: oks)

namespace Names

def apply (slots : Nat) (names : Names) : Op → Names × Bool
  | .add name sector => add slots names name sector
  | .remove name => remove names name

def run (slots : Nat) (names : Names) : List Op → Names × List Bool
  | [] => (names, [])
  | op :: ops =>
      let (names, ok) := apply slots names op
      let (names, oks) := run slots names ops
      (names, ok :: oks)

end Names

/-- The files of `sectors` can be removed one after another: each can be removed now, no two
share a sector, and none has a sector among the `released` ones. -/
structure Apart (fs : Filesys) (released sectors : List Nat) : Prop where
  removable : ∀ sector ∈ sectors, Removable fs sector
  disjoint : (sectors.map (fileSectors fs)).Pairwise List.Disjoint
  fresh : ∀ sector ∈ sectors, (fileSectors fs sector).Disjoint released

namespace Apart

variable {fs : Filesys} {released sectors : List Nat}

theorem release {sector : Nat} (apart : Apart fs released (sector :: sectors)) :
    Apart fs (released ++ fileSectors fs sector) sectors := by
  obtain ⟨first, rest⟩ := List.pairwise_cons.mp (List.pairwise_map.mp apart.disjoint)
  refine ⟨fun s mem => apart.removable s (List.mem_cons_of_mem _ mem), List.pairwise_map.mpr rest,
    fun s mem => List.disjoint_append_right.mpr ⟨apart.fresh s (List.mem_cons_of_mem _ mem), ?_⟩⟩
  exact List.disjoint_comm.mp (first s mem)

end Apart

section Run

variable {fs₀ : Filesys} {dir : Nat} {inode : Inode} {slots : Nat}
  (found : fs₀.inodes.get dir = some inode) (writable : inode.denyWriteCnt = 0)
  (length : inode.data.length = (slots * dirEntrySize : Nat))
include found writable length

end Run

/-- A directory of two entries at sector 1, open at address 0, and the inode of an empty file
at sector 5. -/
def sampleDir : Inode :=
  { sector := 1, openCnt := 1, removed := false, denyWriteCnt := 0,
    data := { start := 2, length := 40 } }

def sampleFs : Filesys :=
  { freeMap := List.replicate 8 true,
    disk := fun s => if s = 1 then some sampleDir.data else if s = 5 then some { start := 6, length := 0 }
      else none,
    contents := fun s => if s = 1 then List.replicate 40 0 else [],
    rootDir := [],
    inodes := (Heap.empty.alloc sampleDir).1,
    openInodes := [0],
    files := Heap.empty }

/-- A sector whose free-map bit is clear is not a file's: `dir_remove` of a name given it
releases it, and `free_map_release` fails its assertion. -/
theorem dirRemove_releases_free_sector :
    runOps { sampleFs with freeMap := (List.replicate 8 true).set 7 false } 0 [.add [97] 7, .remove [97]] =
      .error "assertion bitmap_all (free_map, sector, cnt) failed" := by
  rfl

/-! ## The list model of `File.lean`

`Filesys.dirAdd` keeps the root directory as the list `rootDir`; read through `entries`, the
bytes `dir_add` writes are that list. -/

section Flat

variable {fs : Filesys} {dir : Nat} {inode : Inode} {slots : Nat}
  (found : fs.inodes.get dir = some inode) (writable : inode.denyWriteCnt = 0)
  (length : inode.data.length = (slots * dirEntrySize : Nat))
  (sized : (fs.contents inode.sector).length = slots * dirEntrySize)
include found writable length sized

theorem dirAdd_refines {name : List UInt8} (noNull : 0 ∉ name) {sector : Nat}
    (small : sector < 2 ^ 32) :
    ∃ bytes, dirAdd fs dir name sector =
        .ok ({ fs with contents := Function.update fs.contents inode.sector bytes },
          (Filesys.dirAdd { fs with rootDir := entries (fs.contents inode.sector) } name sector).2) ∧
      entries bytes =
        (Filesys.dirAdd { fs with rootDir := entries (fs.contents inode.sector) } name sector).1.rootDir := by
  have unchanged :
      { fs with contents := Function.update fs.contents inode.sector (fs.contents inode.sector) } = fs := by
    rw [Function.update_eq_self]
  -- the cases of `dir_add`, each against the same case of the list model
  by_cases invalid : name = [] ∨ nameMax < name.length
  · refine ⟨fs.contents inode.sector, ?_, by rw [Filesys.dirAdd, if_pos invalid]⟩
    rw [dirAdd, if_pos invalid, Filesys.dirAdd, if_pos invalid, unchanged]
    rfl
  cases first : Filesys.lookup { fs with rootDir := entries (fs.contents inode.sector) } name with
  | some j =>
    have flat : Filesys.dirAdd { fs with rootDir := entries (fs.contents inode.sector) } name sector =
        ({ fs with rootDir := entries (fs.contents inode.sector) }, false) := by
      simp only [Filesys.dirAdd, if_neg invalid, first, Option.isSome_some, if_true]
    refine ⟨fs.contents inode.sector, ?_, by rw [flat]⟩
    rw [dirAdd_of_present found length sized invalid first, flat, unchanged]
  | none =>
    have fits : name.length ≤ nameMax := by omega
    cases free : (entries (fs.contents inode.sector)).findIdx? (fun entry => !entry.inUse) with
    | some j =>
      -- the first free entry takes the name, in the bytes and in the list
      obtain ⟨inside, -, -⟩ := List.findIdx?_eq_some_iff_getElem.mp free
      rw [length_entries sized] at inside
      have short := length_slot sized inside
      have flat : Filesys.dirAdd { fs with rootDir := entries (fs.contents inode.sector) } name sector =
          ({ fs with rootDir := ((entries (fs.contents inode.sector)).set j
            { inodeSector := sector, name, inUse := true }) }, true) := by
        simp only [Filesys.dirAdd, if_neg invalid, first, Option.isSome_none, Bool.false_eq_true,
          if_false, free]
      refine ⟨overwrite (fs.contents inode.sector) (j * dirEntrySize)
        (addedEntry (slot (fs.contents inode.sector) j) name sector), ?_, ?_⟩
      · rw [dirAdd_of_free found writable length sized invalid first free, flat]
      · rw [flat, entries_overwrite sized inside (length_addedEntry short name sector),
          decode_addedEntry short noNull fits small]
    | none =>
      -- no free entry: the bytes stay, and the list is full
      have flat : Filesys.dirAdd { fs with rootDir := entries (fs.contents inode.sector) } name sector =
          ({ fs with rootDir := entries (fs.contents inode.sector) }, false) := by
        simp only [Filesys.dirAdd, if_neg invalid, first, Option.isSome_none, Bool.false_eq_true,
          if_false, free]
      refine ⟨fs.contents inode.sector, ?_, by rw [flat]⟩
      rw [dirAdd_of_full found writable length sized invalid first free, flat, unchanged]

end Flat

theorem sampleFs_dirAdd_refines :
    ∃ bytes, dirAdd sampleFs 0 [97] 5 =
        .ok ({ sampleFs with contents := Function.update sampleFs.contents sampleDir.sector bytes },
          (Filesys.dirAdd { sampleFs with rootDir := entries (sampleFs.contents sampleDir.sector) }
            [97] 5).2) ∧
      entries bytes =
        (Filesys.dirAdd { sampleFs with rootDir := entries (sampleFs.contents sampleDir.sector) }
          [97] 5).1.rootDir :=
  @dirAdd_refines sampleFs 0 sampleDir 2 rfl rfl rfl (by decide) [97] (by decide) 5 (by decide)

end Pintos.Directory
