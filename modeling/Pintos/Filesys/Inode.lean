import Mathlib
import Pintos.Devices.Block
import Pintos.Heap
import Pintos.Threads.Palloc

/-!
# Inodes and the free map

`filesys/inode.c` and `filesys/free-map.c`.  The disk holds, per sector, the
on-disk inode stored there, and, per file, the bytes of its data sectors (a
file's data is a list of bytes; which data sector holds which byte matters to
nothing modelled).  The root directory is the list of its entries.  In memory,
`malloc`ed `struct inode`s and `struct file`s live on heaps, and `open_inodes`
lists the addresses of the open inodes, front first.

Counters are the source's `int`s and offsets its `off_t`s, so the source's
assertions on them (`length >= 0`, `deny_write_cnt <= open_cnt`) can fail.
Allocations by `malloc` and `calloc` succeed.
-/

namespace Pintos

def freeMapSector : Nat := 0

def rootDirSector : Nat := 1

def nameMax : Nat := 14

/-- `struct inode_disk`, without its magic number and padding. -/
structure InodeDisk where
  start : Nat
  length : Int
  deriving DecidableEq, Repr

/-- `struct inode`, without its list element. -/
structure Inode where
  sector : Nat
  openCnt : Int
  removed : Bool
  denyWriteCnt : Int
  data : InodeDisk
  deriving DecidableEq, Repr

/-- `struct file`: the address of its inode, the position, and whether it
denies writes. -/
structure File where
  inode : Nat
  pos : Int
  denyWrite : Bool
  deriving DecidableEq, Repr

structure DirEntry where
  inodeSector : Nat
  name : List UInt8
  inUse : Bool
  deriving DecidableEq, Repr

/-- The file system: the disk, and the kernel objects of `inode.c` and `file.c`. -/
structure Filesys where
  /-- `free_map`: one bit per sector, set when in use. -/
  freeMap : List Bool
  disk : Nat → Option InodeDisk
  /-- The data of the file whose inode is at each sector. -/
  contents : Nat → List UInt8
  /-- The entries of the root directory's file. -/
  rootDir : List DirEntry
  inodes : Heap Inode
  openInodes : List Nat
  files : Heap File

/-- `bytes_to_sectors`: `DIV_ROUND_UP (size, BLOCK_SECTOR_SIZE)`. -/
def bytesToSectors (size : Int) : Nat :=
  ((size + (blockSectorSize - 1 : Nat)) / (blockSectorSize : Int)).toNat

namespace Filesys

/-! ## The free map -/

/-- `free_map_allocate`: the first run of `cnt` free sectors, now in use. -/
def freeMapAllocate (fs : Filesys) (cnt : Nat) : Filesys × Option Nat :=
  match Bitmap.scanAndFlip fs.freeMap 0 cnt false with
  | (bits, sector) => ({ fs with freeMap := bits }, sector)

/-- `free_map_release`, with its assertion that the sectors are in use. -/
def freeMapRelease (fs : Filesys) (sector cnt : Nat) : Except String Filesys :=
  if !Bitmap.contains fs.freeMap sector cnt false then
    .ok { fs with freeMap := Bitmap.setMultiple fs.freeMap sector cnt false }
  else .error "assertion bitmap_all (free_map, sector, cnt) failed"

/-! ## `inode.c` -/

/-- `inode_create`: an inode of `length` zero bytes at `sector`; `false` when
the free map has no room for its data. -/
def inodeCreate (fs : Filesys) (sector : Nat) (length : Int) : Except String (Filesys × Bool) :=
  if length < 0 then .error "assertion length >= 0 failed"
  else
    match fs.freeMapAllocate (bytesToSectors length) with
    | (fs, some start) =>
        .ok ({ fs with
          disk := Function.update fs.disk sector (some { start, length })
          contents := Function.update fs.contents sector (List.replicate length.toNat 0) },
          true)
    | (fs, none) => .ok (fs, false)

/-- The open inode of a sector, found by the loop of `inode_open` over
`open_inodes`. -/
def findOpenInode (fs : Filesys) (sector : Nat) : Option Nat :=
  fs.openInodes.find? fun address => (fs.inodes.get address).any fun inode => inode.sector == sector

def inodeReopen (fs : Filesys) (address : Nat) : Except String Filesys := do
  let some inode := fs.inodes.get address | throw "struct inode used after free"
  return { fs with inodes := fs.inodes.set address { inode with openCnt := inode.openCnt + 1 } }

/-- `inode_open`: the inode of `sector` already open, reopened, or a new one
read from the disk and pushed on the front of `open_inodes`. -/
def inodeOpen (fs : Filesys) (sector : Nat) : Except String (Filesys × Nat) :=
  match fs.findOpenInode sector with
  | some address => do
      let fs ← fs.inodeReopen address
      return (fs, address)
  | none =>
      let inode : Inode :=
        { sector, openCnt := 1, removed := false, denyWriteCnt := 0
          data := (fs.disk sector).getD { start := 0, length := 0 } }
      let (inodes, address) := fs.inodes.alloc inode
      .ok ({ fs with inodes, openInodes := address :: fs.openInodes }, address)

/-- The end of `inode_open` once its loop over `open_inodes` has found
`found`: reopen that inode, or read a new one from the disk and push it on the
front of `open_inodes`. -/
def inodeOpenFinish (fs : Filesys) (sector : Nat) (found : Option Nat) :
    Except String (Filesys × Nat) :=
  match found with
  | some address => do
      let fs ← fs.inodeReopen address
      return (fs, address)
  | none =>
      let inode : Inode :=
        { sector, openCnt := 1, removed := false, denyWriteCnt := 0
          data := (fs.disk sector).getD { start := 0, length := 0 } }
      let (inodes, address) := fs.inodes.alloc inode
      .ok ({ fs with inodes, openInodes := address :: fs.openInodes }, address)

/-- `inode_open` is its loop followed by its end, with nothing in between. -/
theorem inodeOpen_eq_finish (fs : Filesys) (sector : Nat) :
    fs.inodeOpen sector = fs.inodeOpenFinish sector (fs.findOpenInode sector) := by
  unfold inodeOpen inodeOpenFinish
  rfl

/-- `inode_close`: drop one opener; the last one takes the inode off
`open_inodes`, releases its sectors if it was removed, and frees it. -/
def inodeClose (fs : Filesys) (address : Nat) : Except String Filesys := do
  let some inode := fs.inodes.get address | throw "struct inode used after free"
  let openCnt := inode.openCnt - 1
  if openCnt = 0 then
    let fs := { fs with openInodes := fs.openInodes.erase address }
    let fs ← if inode.removed then do
        let fs ← fs.freeMapRelease inode.sector 1
        fs.freeMapRelease inode.data.start (bytesToSectors inode.data.length)
      else pure fs
    return { fs with inodes := fs.inodes.free address }
  else return { fs with inodes := fs.inodes.set address { inode with openCnt } }

def inodeRemove (fs : Filesys) (address : Nat) : Except String Filesys := do
  let some inode := fs.inodes.get address | throw "struct inode used after free"
  return { fs with inodes := fs.inodes.set address { inode with removed := true } }

def inodeDenyWrite (fs : Filesys) (address : Nat) : Except String Filesys := do
  let some inode := fs.inodes.get address | throw "struct inode used after free"
  let denyWriteCnt := inode.denyWriteCnt + 1
  if denyWriteCnt ≤ inode.openCnt then
    return { fs with inodes := fs.inodes.set address { inode with denyWriteCnt } }
  else throw "assertion inode->deny_write_cnt <= inode->open_cnt failed"

def inodeAllowWrite (fs : Filesys) (address : Nat) : Except String Filesys := do
  let some inode := fs.inodes.get address | throw "struct inode used after free"
  if ¬ 0 < inode.denyWriteCnt then throw "assertion inode->deny_write_cnt > 0 failed"
  if ¬ inode.denyWriteCnt ≤ inode.openCnt then
    throw "assertion inode->deny_write_cnt <= inode->open_cnt failed"
  return { fs with inodes := fs.inodes.set address { inode with denyWriteCnt := inode.denyWriteCnt - 1 } }

/-- The chunk one turn of the loops of `inode_read_at` and `inode_write_at`
moves: no more than asked, than is left in the inode, or than is left in the
sector (C's `%` truncates). -/
def chunkSize (length size offset : Int) : Int :=
  let sectorOfs := offset.tmod blockSectorSize
  let inodeLeft := length - offset
  let sectorLeft := blockSectorSize - sectorOfs
  let minLeft := min inodeLeft sectorLeft
  min size minLeft

def readLoop (data : List UInt8) (length : Int) : Nat → Int → Int → List UInt8 → List UInt8
  | 0, _, _, read => read
  | fuel + 1, size, offset, read =>
      if 0 < size then
        let chunk := chunkSize length size offset
        if chunk ≤ 0 then read
        else readLoop data length fuel (size - chunk) (offset + chunk)
          (read ++ (data.drop offset.toNat).take chunk.toNat)
      else read

/-- `inode_read_at`: the bytes read.  Each turn moves at least one byte, so
`size` turns are enough. -/
def inodeReadAt (fs : Filesys) (address : Nat) (size offset : Int) :
    Except String (List UInt8) := do
  let some inode := fs.inodes.get address | throw "struct inode used after free"
  return readLoop (fs.contents inode.sector) inode.data.length (size.toNat + 1) size offset []

/-- The loop of `inode_write_at` over `buffer`: the file's data and the count
written so far. -/
def writeLoop (buffer : List UInt8) (length : Int) :
    Nat → Int → Int → List UInt8 × Int → List UInt8 × Int
  | 0, _, _, state => state
  | fuel + 1, size, offset, (data, written) =>
      if 0 < size then
        let chunk := chunkSize length size offset
        if chunk ≤ 0 then (data, written)
        else
          let bytes := (buffer.drop written.toNat).take chunk.toNat
          writeLoop buffer length fuel (size - chunk) (offset + chunk)
            (data.take offset.toNat ++ bytes ++ data.drop (offset + chunk).toNat, written + chunk)
      else (data, written)

/-- `inode_write_at` of `size` bytes of `buffer`: nothing while writes are
denied. -/
def inodeWriteAt (fs : Filesys) (address : Nat) (buffer : List UInt8) (size offset : Int) :
    Except String (Filesys × Int) := do
  let some inode := fs.inodes.get address | throw "struct inode used after free"
  if inode.denyWriteCnt ≠ 0 then return (fs, 0)
  let (data, written) :=
    writeLoop buffer inode.data.length (size.toNat + 1) size offset (fs.contents inode.sector, 0)
  return ({ fs with contents := Function.update fs.contents inode.sector data }, written)

def inodeLength (fs : Filesys) (address : Nat) : Except String Int := do
  let some inode := fs.inodes.get address | throw "struct inode used after free"
  return inode.data.length

end Filesys

end Pintos
