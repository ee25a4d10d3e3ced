import Mathlib
import Pintos.Filesys.Inode

/-!
# Files, the root directory and the file system calls

`filesys/file.c`, the root-directory part of `filesys/directory.c`, and
`filesys/filesys.c`.  A `struct dir` is the address of its inode; directory
entries are the list `rootDir`, whose length is the number of entries the root
directory's file has room for.  A file name is its bytes, without the
terminating null byte.  `Pintos.Directory` models `dir_add` and the others on the
directory's bytes, and shows that its `dir_add`, read through the decoded entries,
is the one here.
-/

namespace Pintos.Filesys

/-! ## `file.c` -/

def fileAt (fs : Filesys) (address : Nat) : Except String File :=
  match fs.files.get address with
  | some file => .ok file
  | none => .error "struct file used after free"

/-- `file_open` of the inode at `inode` (`none` for a null pointer). -/
def fileOpen (fs : Filesys) (inode : Option Nat) : Filesys × Option Nat :=
  match inode with
  | some inode =>
      let (files, address) := fs.files.alloc { inode, pos := 0, denyWrite := false }
      ({ fs with files }, some address)
  | none => (fs, none)

def fileDenyWrite (fs : Filesys) (address : Nat) : Except String Filesys := do
  let file ← fs.fileAt address
  if file.denyWrite then return fs
  let fs := { fs with files := fs.files.set address { file with denyWrite := true } }
  fs.inodeDenyWrite file.inode

def fileAllowWrite (fs : Filesys) (address : Nat) : Except String Filesys := do
  let file ← fs.fileAt address
  if !file.denyWrite then return fs
  let fs := { fs with files := fs.files.set address { file with denyWrite := false } }
  fs.inodeAllowWrite file.inode

/-- `file_close` (of `none`, the null pointer, does nothing). -/
def fileClose (fs : Filesys) : Option Nat → Except String Filesys
  | none => .ok fs
  | some address => do
      let fs ← fs.fileAllowWrite address
      let file ← fs.fileAt address
      let fs ← fs.inodeClose file.inode
      return { fs with files := fs.files.free address }

/-- `file_read`: the bytes read from the file's position, which moves past them. -/
def fileRead (fs : Filesys) (address : Nat) (size : Int) :
    Except String (Filesys × List UInt8) := do
  let file ← fs.fileAt address
  let bytes ← fs.inodeReadAt file.inode size file.pos
  return ({ fs with
    files := fs.files.set address { file with pos := file.pos + bytes.length } }, bytes)

/-- `file_write`: the count written at the file's position, which moves past
them. -/
def fileWrite (fs : Filesys) (address : Nat) (buffer : List UInt8) (size : Int) :
    Except String (Filesys × Int) := do
  let file ← fs.fileAt address
  let (fs, written) ← fs.inodeWriteAt file.inode buffer size file.pos
  return ({ fs with files := fs.files.set address { file with pos := file.pos + written } },
    written)

def fileLength (fs : Filesys) (address : Nat) : Except String Int := do
  let file ← fs.fileAt address
  fs.inodeLength file.inode

def fileSeek (fs : Filesys) (address : Nat) (newPos : Int) : Except String Filesys := do
  let file ← fs.fileAt address
  if newPos < 0 then throw "assertion new_pos >= 0 failed"
  return { fs with files := fs.files.set address { file with pos := newPos } }

def fileTell (fs : Filesys) (address : Nat) : Except String Int := do
  let file ← fs.fileAt address
  return file.pos

/-! ## The root directory -/

def dirOpenRoot (fs : Filesys) : Except String (Filesys × Nat) := fs.inodeOpen rootDirSector

def dirClose (fs : Filesys) (dir : Nat) : Except String Filesys := fs.inodeClose dir

/-- `lookup`: the position of the entry in use named `name`. -/
def lookup (fs : Filesys) (name : List UInt8) : Option Nat :=
  fs.rootDir.findIdx? fun entry => entry.inUse && entry.name == name

/-- `dir_lookup`: the inode of the file named `name`, opened. -/
def dirLookup (fs : Filesys) (name : List UInt8) : Except String (Filesys × Option Nat) :=
  match fs.lookup name >>= fun index => fs.rootDir[index]? with
  | some entry => do
      let (fs, inode) ← fs.inodeOpen entry.inodeSector
      return (fs, some inode)
  | none => .ok (fs, none)

/-- `dir_add`: a new entry in the first free slot.  Without a free slot the
entry would go at the end of the directory's file, which does not grow. -/
def dirAdd (fs : Filesys) (name : List UInt8) (inodeSector : Nat) : Filesys × Bool :=
  if name = [] ∨ nameMax < name.length then (fs, false)
  else if (fs.lookup name).isSome then (fs, false)
  else
    match fs.rootDir.findIdx? fun entry => !entry.inUse with
    | some slot =>
        ({ fs with rootDir := fs.rootDir.set slot { inodeSector, name, inUse := true } }, true)
    | none => (fs, false)

/-- `dir_remove`: erase the entry of `name` and mark its inode removed. -/
def dirRemove (fs : Filesys) (name : List UInt8) : Except String (Filesys × Bool) :=
  match fs.lookup name with
  | some index =>
      match fs.rootDir[index]? with
      | some entry => do
          let (fs, inode) ← fs.inodeOpen entry.inodeSector
          let fs := { fs with rootDir := fs.rootDir.set index { entry with inUse := false } }
          let fs ← fs.inodeRemove inode
          let fs ← fs.inodeClose inode
          return (fs, true)
      | none => .ok (fs, false)
  | none => .ok (fs, false)

/-! ## `filesys.c` -/

/-- `filesys_create`.  The conditions of the source's `&&` chain are tried in
order; a sector taken for the inode is given back when a later one fails. -/
def filesysCreate (fs : Filesys) (name : List UInt8) (initialSize : Int) :
    Except String (Filesys × Bool) := do
  let (fs, dir) ← fs.dirOpenRoot
  let (fs, inodeSector) := fs.freeMapAllocate 1
  let (fs, success) ← match inodeSector with
    | none => pure (fs, false)
    | some sector => do
        let (fs, created) ← fs.inodeCreate sector initialSize
        if created then pure (fs.dirAdd name sector) else pure (fs, false)
  let fs ← match inodeSector with
    | some sector => if !success && sector != 0 then fs.freeMapRelease sector 1 else pure fs
    | none => pure fs
  let fs ← fs.dirClose dir
  return (fs, success)

/-- `filesys_open`: a new file for the file named `name`, or `none`. -/
def filesysOpen (fs : Filesys) (name : List UInt8) : Except String (Filesys × Option Nat) := do
  let (fs, dir) ← fs.dirOpenRoot
  let (fs, inode) ← fs.dirLookup name
  let fs ← fs.dirClose dir
  return fs.fileOpen inode

/-- `sizeof (struct dir_entry)`: the sector, the name with its null byte, and
`in_use`. -/
def dirEntrySize : Nat := 4 + (nameMax + 1) + 1

/-- `bitmap_file_size` of a bitmap of `bitCnt` bits: whole 32-bit elements. -/
def bitmapFileSize (bitCnt : Nat) : Nat := 4 * ((bitCnt + 31) / 32)

/-- `filesys_init (true)` on a device of `sectorCount` sectors: `free_map_init`
marks the free map's and the root directory's sectors, `do_format` creates the
free map's file (opened, then closed by `free_map_close`) and a root directory
of 16 entries, none in use, and `free_map_open` opens the free map's file for
good. -/
def filesysInit (sectorCount : Nat) : Except String Filesys := do
  let fs : Filesys :=
    { freeMap := ((List.replicate sectorCount false).set freeMapSector true).set rootDirSector true
      disk := fun _ => none
      contents := fun _ => []
      rootDir := []
      inodes := Heap.empty
      openInodes := []
      files := Heap.empty }
  -- free_map_create
  let (fs, created) ← fs.inodeCreate freeMapSector (bitmapFileSize sectorCount)
  if !created then throw "free map creation failed"
  let (fs, inode) ← fs.inodeOpen freeMapSector
  let (fs, freeMapFile) := fs.fileOpen (some inode)
  -- dir_create (ROOT_DIR_SECTOR, 16)
  let (fs, created) ← fs.inodeCreate rootDirSector (16 * dirEntrySize)
  if !created then throw "root directory creation failed"
  let fs := { fs with rootDir := List.replicate 16 { inodeSector := 0, name := [], inUse := false } }
  -- free_map_close, then free_map_open
  let fs ← fs.fileClose freeMapFile
  let (fs, inode) ← fs.inodeOpen freeMapSector
  return (fs.fileOpen (some inode)).1

def formatted64 : Filesys :=
  match filesysInit 64 with
  | .ok fs => fs
  | .error _ =>
      { freeMap := [], disk := fun _ => none, contents := fun _ => [], rootDir := [],
        inodes := Heap.empty, openInodes := [], files := Heap.empty }

theorem filesysInit_formatted64 : filesysInit 64 = .ok formatted64 := by
  rfl

/-- On the freshly formatted disk, `filesys_create ("", 512)` takes sector 4
for the inode and sector 5 for its data; `dir_add` refuses the empty name, and
only sector 4 is given back. -/
theorem filesysCreate_leaks_data_sector :
    ∃ fs, formatted64.filesysCreate [] 512 = .ok (fs, false) ∧
      formatted64.freeMap[5]? = some false ∧ fs.freeMap = formatted64.freeMap.set 5 true :=
  ⟨_, rfl, by decide, by decide⟩

def filesysRemove (fs : Filesys) (name : List UInt8) : Except String (Filesys × Bool) := do
  let (fs, dir) ← fs.dirOpenRoot
  let (fs, success) ← fs.dirRemove name
  let fs ← fs.dirClose dir
  return (fs, success)

end Pintos.Filesys
