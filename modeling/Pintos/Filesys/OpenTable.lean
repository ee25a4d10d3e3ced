import Mathlib
import Pintos.Control
import Pintos.Filesys.File

/-!
# The table of open inodes

`open_inodes` is a cache of the inodes in memory: a sector has at most one
`struct inode`, shared by everything that has the file open, whose `open_cnt`
counts its openers and whose `deny_write_cnt` counts the files among them that
deny writes.  `OpenTable fs held` says so of a file system whose openers are
the files of its heap and, besides them, the inodes `held` that the running
code has opened for itself (the root directory during a call, the inode
`dir_lookup` returns).

Each function of `inode.c`, `file.c`, `directory.c` and `filesys.c` keeps the
table, so calls made one after another keep it; then a file that denies
writes protects its sector against every write (`fileWrite_denied`).
-/

namespace Pintos.Filesys

variable {fs fs' : Filesys} {held : List Nat}

/-- The open files on the inode at `address`. -/
def openers (files : Heap File) (address : Nat) : Nat :=
  files.count fun file => file.inode == address

/-- The open files on the inode at `address` that deny writes. -/
def deniers (files : Heap File) (address : Nat) : Nat :=
  files.count fun file => file.inode == address && file.denyWrite

structure OpenTable (fs : Filesys) (held : List Nat) : Prop where
  nodup : fs.openInodes.Nodup
  mem_iff : ∀ address, address ∈ fs.openInodes ↔ (fs.inodes.get address).isSome
  oneSector : ∀ a b i j, fs.inodes.get a = some i → fs.inodes.get b = some j →
    i.sector = j.sector → a = b
  openCnt_eq : ∀ a i, fs.inodes.get a = some i → i.openCnt = openers fs.files a + held.count a
  denyWriteCnt_eq : ∀ a i, fs.inodes.get a = some i → i.denyWriteCnt = deniers fs.files a
  fileLive : ∀ f file, fs.files.get f = some file → (fs.inodes.get file.inode).isSome
  heldLive : ∀ a ∈ held, (fs.inodes.get a).isSome

/-- The table rebuilt after a change that keeps the open inodes and their
sectors: only the counts and the liveness of what refers to inodes remain to
be shown. -/
theorem OpenTable.of_shape {held' : List Nat} (table : OpenTable fs held)
    (sectors : ∀ a, (fs'.inodes.get a).map Inode.sector = (fs.inodes.get a).map Inode.sector)
    (openInodes : fs'.openInodes = fs.openInodes)
    (opened : ∀ a i, fs'.inodes.get a = some i → i.openCnt = openers fs'.files a + held'.count a)
    (denied : ∀ a i, fs'.inodes.get a = some i → i.denyWriteCnt = deniers fs'.files a)
    (filesLive : ∀ f file, fs'.files.get f = some file → (fs'.inodes.get file.inode).isSome)
    (heldLive : ∀ a ∈ held', (fs'.inodes.get a).isSome) : OpenTable fs' held' := by
  have alive : ∀ a, (fs'.inodes.get a).isSome = (fs.inodes.get a).isSome := by
    intro a
    have seen := congrArg Option.isSome (sectors a)
    simpa only [Option.isSome_map] using seen
  refine ⟨openInodes ▸ table.nodup, fun a => ?_, ?_, opened, denied, filesLive, heldLive⟩
  · rw [openInodes, alive]
    exact table.mem_iff a
  · intro a b i j found found' same
    have seen := sectors a
    have seen' := sectors b
    rw [found, Option.map_some] at seen
    rw [found', Option.map_some] at seen'
    obtain ⟨old, oldFound, oldSector⟩ := Option.map_eq_some_iff.mp seen.symm
    obtain ⟨old', oldFound', oldSector'⟩ := Option.map_eq_some_iff.mp seen'.symm
    exact table.oneSector a b old old' oldFound oldFound' (by rw [oldSector, oldSector', same])

theorem OpenTable.of_objects (table : OpenTable fs held) (inodes : fs'.inodes = fs.inodes)
    (openInodes : fs'.openInodes = fs.openInodes) (files : fs'.files = fs.files) :
    OpenTable fs' held := by
  refine table.of_shape (by simp [inodes]) openInodes ?_ ?_ ?_ ?_
  · rw [inodes, files]
    exact table.openCnt_eq
  · rw [inodes, files]
    exact table.denyWriteCnt_eq
  · rw [inodes, files]
    exact table.fileLive
  · rw [inodes]
    exact table.heldLive

theorem OpenTable.empty (inodes : fs.inodes = Heap.empty) (openInodes : fs.openInodes = [])
    (files : fs.files = Heap.empty) : OpenTable fs [] := by
  constructor
  · rw [openInodes]
    exact List.nodup_nil
  · intro a
    simp [inodes, openInodes]
  all_goals simp [inodes, files]

/-! ## Calls on the disk alone -/

/-- Two file systems with the same objects in memory. -/
structure SameObjects (fs fs' : Filesys) : Prop where
  inodes : fs'.inodes = fs.inodes
  openInodes : fs'.openInodes = fs.openInodes
  files : fs'.files = fs.files

theorem SameObjects.trans {fs'' : Filesys} (first : SameObjects fs fs')
    (second : SameObjects fs' fs'') : SameObjects fs fs'' :=
  ⟨second.inodes.trans first.inodes, second.openInodes.trans first.openInodes,
    second.files.trans first.files⟩

theorem OpenTable.of_same (table : OpenTable fs held) (same : SameObjects fs fs') :
    OpenTable fs' held :=
  table.of_objects same.inodes same.openInodes same.files

theorem freeMapAllocate_same (fs : Filesys) (cnt : Nat) :
    SameObjects fs (fs.freeMapAllocate cnt).1 :=
  ⟨rfl, rfl, rfl⟩

theorem freeMapRelease_same {sector cnt : Nat} (released : fs.freeMapRelease sector cnt = .ok fs') :
    SameObjects fs fs' := by
  unfold freeMapRelease at released
  split at released
  · cases released
    exact ⟨rfl, rfl, rfl⟩
  · cases released

theorem inodeCreate_same {sector : Nat} {length : Int} {created : Bool}
    (made : fs.inodeCreate sector length = .ok (fs', created)) : SameObjects fs fs' := by
  unfold inodeCreate at made
  split at made
  · cases made
  · -- the free map's run for the data is the only change besides the disk
    have allocated := freeMapAllocate_same fs (bytesToSectors length)
    split at made
    · rename_i allocatedFs start allocatedEq
      cases made
      rw [allocatedEq] at allocated
      exact ⟨allocated.inodes, allocated.openInodes, allocated.files⟩
    · rename_i allocatedFs allocatedEq
      cases made
      rw [allocatedEq] at allocated
      exact allocated

theorem dirAdd_same (fs : Filesys) (name : List UInt8) (sector : Nat) :
    SameObjects fs (fs.dirAdd name sector).1 := by
  unfold dirAdd
  split
  · exact ⟨rfl, rfl, rfl⟩
  · split
    · exact ⟨rfl, rfl, rfl⟩
    · split <;> exact ⟨rfl, rfl, rfl⟩

/-! ## Opening and closing inodes -/

theorem findOpenInode_some {sector address : Nat} (found : fs.findOpenInode sector = some address) :
    address ∈ fs.openInodes ∧ ∃ inode, fs.inodes.get address = some inode ∧ inode.sector = sector := by
  unfold findOpenInode at found
  have holds := List.find?_some found
  simp only [Option.any_eq_true, beq_iff_eq] at holds
  exact ⟨List.mem_of_find?_eq_some found, holds⟩

theorem findOpenInode_none {sector : Nat} (missing : fs.findOpenInode sector = none) :
    ∀ address ∈ fs.openInodes, ∀ inode, fs.inodes.get address = some inode →
      inode.sector ≠ sector := by
  unfold findOpenInode at missing
  intro address open' inode found same
  have untested := List.find?_eq_none.mp missing address open'
  simp [found, same] at untested

theorem OpenTable.file_inode_ne (table : OpenTable fs held) {address : Nat}
    (free : fs.inodes.get address = none) {f : Nat} {file : File}
    (found : fs.files.get f = some file) : file.inode ≠ address := by
  intro same
  have alive := table.fileLive f file found
  rw [same, free] at alive
  cases alive

theorem OpenTable.unused (table : OpenTable fs held) {address : Nat}
    (free : fs.inodes.get address = none) :
    openers fs.files address = 0 ∧ deniers fs.files address = 0 ∧ held.count address = 0 := by
  refine ⟨Heap.count_eq_zero ?_, Heap.count_eq_zero ?_, List.count_eq_zero.mpr ?_⟩
  · intro f file found
    simpa using table.file_inode_ne free found
  · intro f file found
    simp [table.file_inode_ne free found]
  · intro holds
    have alive := table.heldLive address holds
    rw [free] at alive
    cases alive

/-- The table after the `open_cnt` of an open inode follows a change of what
is held on it. -/
theorem OpenTable.setOpenCnt {held' : List Nat} (table : OpenTable fs held) {address : Nat}
    {inode : Inode} (found : fs.inodes.get address = some inode) {openCnt : Int}
    (counted : openCnt = openers fs.files address + held'.count address)
    (others : ∀ other, other ≠ address → held'.count other = held.count other) :
    OpenTable { fs with inodes := fs.inodes.set address { inode with openCnt } } held' := by
  refine table.of_shape ?_ rfl ?_ ?_ ?_ ?_
  · intro other
    simp only [Heap.get_set_of_get found]
    split
    · rename_i same
      rw [same, found]
      rfl
    · rfl
  · intro other inode' found'
    simp only [Heap.get_set_of_get found] at found'
    split at found'
    · rename_i same
      subst same
      cases found'
      exact counted
    · rename_i apart
      rw [table.openCnt_eq other inode' found', others other apart]
  · intro other inode' found'
    simp only [Heap.get_set_of_get found] at found'
    split at found'
    · rename_i same
      subst same
      cases found'
      exact table.denyWriteCnt_eq other inode found
    · exact table.denyWriteCnt_eq other inode' found'
  · intro f file found'
    rw [Heap.isSome_get_set found]
    exact table.fileLive f file found'
  · intro other holds
    rw [Heap.isSome_get_set found]
    by_cases same : other = address
    · rw [same, found]
      rfl
    · have earlier : 0 < held.count other := by
        rw [← others other same]
        exact List.count_pos_iff.mpr holds
      exact table.heldLive other (List.count_pos_iff.mp earlier)

theorem inodeReopen_openTable {address : Nat} (table : OpenTable fs held)
    (reopened : fs.inodeReopen address = .ok fs') :
    OpenTable fs' (address :: held) ∧ fs'.files = fs.files := by
  unfold inodeReopen at reopened
  split at reopened
  · rename_i inode found
    cases reopened
    refine ⟨table.setOpenCnt found ?_ ?_, rfl⟩
    · -- one more opener, held by the caller
      rw [table.openCnt_eq address inode found, List.count_cons_self]
      push_cast
      omega
    · intro other apart
      exact List.count_cons_of_ne (Ne.symm apart)
  · cases reopened

/-- A new inode for a sector that no open inode has, pushed on `open_inodes`
and held by its opener. -/
theorem OpenTable.push (table : OpenTable fs held) {inode : Inode}
    (fresh : ∀ address ∈ fs.openInodes, ∀ other, fs.inodes.get address = some other →
      other.sector ≠ inode.sector)
    (counted : inode.openCnt = 1) (undenied : inode.denyWriteCnt = 0) :
    OpenTable { fs with
      inodes := (fs.inodes.alloc inode).1
      openInodes := fs.inodes.next :: fs.openInodes } (fs.inodes.next :: held) := by
  have unused := table.unused (Heap.get_next fs.inodes)
  have old : ∀ a i, fs.inodes.get a = some i → a ≠ fs.inodes.next := by
    intro a i found same
    rw [same, Heap.get_next] at found
    cases found
  constructor
  · refine List.nodup_cons.mpr ⟨fun listed => ?_, table.nodup⟩
    have alive := (table.mem_iff _).mp listed
    rw [Heap.get_next] at alive
    cases alive
  · intro a
    by_cases new : a = fs.inodes.next
    · simp [new]
    · simp [new, table.mem_iff a]
  · -- the new inode's sector is no open inode's
    intro a b i j found found' same
    simp only [Heap.get_alloc] at found found'
    by_cases new : a = fs.inodes.next <;> by_cases new' : b = fs.inodes.next
    · rw [new, new']
    · simp only [new, new', if_true, if_false, Option.some.injEq] at found found'
      subst found
      exact absurd same.symm (fresh b ((table.mem_iff b).mpr (by simp [found'])) j found')
    · simp only [new, new', if_true, if_false, Option.some.injEq] at found found'
      subst found'
      exact absurd same (fresh a ((table.mem_iff a).mpr (by simp [found])) i found)
    · simp only [new, new', if_false] at found found'
      exact table.oneSector a b i j found found' same
  · intro a i found
    simp only [Heap.get_alloc] at found
    by_cases new : a = fs.inodes.next
    · simp only [new, if_true, Option.some.injEq] at found
      subst found new
      simp only [openers, List.count_cons_self] at unused ⊢
      omega
    · simp only [new, if_false] at found
      rw [table.openCnt_eq a i found, List.count_cons_of_ne (Ne.symm new)]
  · intro a i found
    simp only [Heap.get_alloc] at found
    by_cases new : a = fs.inodes.next
    · simp only [new, if_true, Option.some.injEq] at found
      subst found new
      simp only [deniers] at unused ⊢
      omega
    · simp only [new, if_false] at found
      exact table.denyWriteCnt_eq a i found
  · intro f file found
    have alive := table.fileLive f file found
    simp only [Heap.get_alloc]
    split <;> simp_all
  · intro a holds
    simp only [Heap.get_alloc]
    split
    · rfl
    · rename_i new
      exact table.heldLive a ((List.mem_cons.mp holds).resolve_left new)

theorem inodeOpen_openTable {sector address : Nat} (table : OpenTable fs held)
    (opened : fs.inodeOpen sector = .ok (fs', address)) :
    OpenTable fs' (address :: held) ∧ fs'.files = fs.files := by
  unfold inodeOpen at opened
  split at opened
  · rename_i found
    obtain ⟨reopenedFs, reopened, returned⟩ := Control.bind_eq_ok opened
    cases returned
    exact inodeReopen_openTable table reopened
  · rename_i missing
    cases opened
    exact ⟨table.push (findOpenInode_none missing) rfl rfl, rfl⟩

/-- The last opener of an inode takes it off `open_inodes` and frees it. -/
theorem OpenTable.drop (table : OpenTable fs held) {address : Nat} (unopened : openers fs.files address = 0)
    (once : held.count address = 1) :
    OpenTable { fs with
      inodes := fs.inodes.free address
      openInodes := fs.openInodes.erase address } (held.erase address) := by
  have gone : address ∉ held.erase address := by
    intro holds
    have counted := List.count_pos_iff.mpr holds
    rw [List.count_erase_self, once] at counted
    cases counted
  have live : ∀ a i, (fs.inodes.free address).get a = some i → a ≠ address ∧ fs.inodes.get a = some i := by
    intro a i found'
    by_cases same : a = address
    · simp [same] at found'
    · simpa [same] using found'
  constructor
  · exact table.nodup.erase address
  · intro other
    rw [table.nodup.mem_erase_iff, Heap.get_free]
    by_cases same : other = address
    · simp [same]
    · simp [same, table.mem_iff other]
  · intro a b i j found' found'' same
    exact table.oneSector a b i j (live a i found').2 (live b j found'').2 same
  · intro a i found'
    obtain ⟨apart, found'⟩ := live a i found'
    rw [table.openCnt_eq a i found', List.count_erase_of_ne apart]
  · intro a i found'
    exact table.denyWriteCnt_eq a i (live a i found').2
  · -- no file is left on the inode
    intro f file found'
    have apart : file.inode ≠ address := by
      intro same
      have opened : 0 < openers fs.files address := Heap.count_pos found' (by simp [same])
      omega
    rw [Heap.get_free, if_neg apart]
    exact table.fileLive f file found'
  · intro a holds
    have apart : a ≠ address := fun same => gone (same ▸ holds)
    rw [Heap.get_free, if_neg apart]
    exact table.heldLive a (List.mem_of_mem_erase holds)

/-- `inode_close` does not look at the files, so the table it keeps may count
other files than those of the file system it runs on: `file_close` frees its
file only after closing the file's inode. -/
theorem inodeClose_openTable_withFiles {address : Nat} {files : Heap File}
    (table : OpenTable { fs with files } held) (holds : address ∈ held)
    (closed : fs.inodeClose address = .ok fs') :
    OpenTable { fs' with files } (held.erase address) ∧ fs'.files = fs.files := by
  simp only [inodeClose, bind, Except.bind, pure, Except.pure] at closed
  split at closed
  · rename_i inode found
    have counted : inode.openCnt = openers files address + held.count address :=
      table.openCnt_eq address inode found
    have heldOnce : 0 < held.count address := List.count_pos_iff.mpr holds
    split at closed
    · rename_i last
      have dropped := table.drop (show openers files address = 0 by omega)
        (show held.count address = 1 by omega)
      split at closed
      · -- a removed inode gives its sectors back to the free map, which the table does not see
        split at closed
        · cases closed
        · rename_i first firstReleased
          split at closed
          · cases closed
          · rename_i second secondReleased
            cases closed
            have same := (freeMapRelease_same firstReleased).trans
              (freeMapRelease_same secondReleased)
            refine ⟨dropped.of_objects ?_ same.openInodes rfl, same.files⟩
            simp only [same.inodes]
      · cases closed
        exact ⟨dropped, rfl⟩
    · rename_i notLast
      cases closed
      refine ⟨table.setOpenCnt found ?_ ?_, rfl⟩
      · dsimp only
        rw [List.count_erase_self]
        omega
      · intro other apart
        exact List.count_erase_of_ne apart
  · cases closed

theorem inodeClose_openTable {address : Nat} (table : OpenTable fs held) (holds : address ∈ held)
    (closed : fs.inodeClose address = .ok fs') :
    OpenTable fs' (held.erase address) ∧ fs'.files = fs.files := by
  have kept : OpenTable { fs' with files := fs.files } (held.erase address) ∧
      fs'.files = fs.files :=
    inodeClose_openTable_withFiles table holds closed
  obtain ⟨closedTable, filesSame⟩ := kept
  rw [← filesSame] at closedTable
  exact ⟨closedTable, filesSame⟩

/-! ## Files -/

theorem fileAt_eq_ok {f : Nat} {file : File} (found : fs.fileAt f = .ok file) :
    fs.files.get f = some file := by
  unfold fileAt at found
  split at found
  · rename_i found'
    cases found
    exact found'
  · cases found

theorem OpenTable.setFile (table : OpenTable fs held) {f : Nat} {file : File}
    (found : fs.files.get f = some file) {file' : File} (sameInode : file'.inode = file.inode)
    (sameDenial : file'.denyWrite = file.denyWrite) :
    OpenTable { fs with files := fs.files.set f file' } held := by
  refine table.of_shape (fun _ => rfl) rfl ?_ ?_ ?_ table.heldLive
  · intro a i found'
    have same : openers (fs.files.set f file') a = openers fs.files a :=
      Heap.count_set_of_eq found (by rw [sameInode])
    rw [same]
    exact table.openCnt_eq a i found'
  · intro a i found'
    have same : deniers (fs.files.set f file') a = deniers fs.files a :=
      Heap.count_set_of_eq found (by rw [sameInode, sameDenial])
    rw [same]
    exact table.denyWriteCnt_eq a i found'
  · intro g file'' found''
    rw [Heap.get_set_of_get found] at found''
    split at found''
    · cases found''
      rw [sameInode]
      exact table.fileLive f file found
    · exact table.fileLive g file'' found''

/-- `file_deny_write` and `file_allow_write`: a file changes whether it denies
writes, and the count of its inode follows. -/
theorem OpenTable.setDenyWrite (table : OpenTable fs held) {f : Nat} {file : File}
    (found : fs.files.get f = some file) {inode : Inode}
    (inodeFound : fs.inodes.get file.inode = some inode) (denyWrite : Bool)
    (flipped : file.denyWrite = !denyWrite) :
    OpenTable { fs with
      files := fs.files.set f { file with denyWrite }
      inodes := fs.inodes.set file.inode { inode with
        denyWriteCnt := if denyWrite then inode.denyWriteCnt + 1 else inode.denyWriteCnt - 1 } }
      held := by
  refine table.of_shape ?_ rfl ?_ ?_ ?_ ?_
  · intro a
    simp only [Heap.get_set_of_get inodeFound]
    split
    · rename_i same
      rw [same, inodeFound]
      rfl
    · rfl
  · intro a i found'
    have same : openers (fs.files.set f { file with denyWrite }) a = openers fs.files a :=
      Heap.count_set_of_eq found rfl
    simp only [Heap.get_set_of_get inodeFound] at found'
    split at found'
    · rename_i here
      subst here
      cases found'
      rw [same]
      exact table.openCnt_eq file.inode inode inodeFound
    · rw [same]
      exact table.openCnt_eq a i found'
  · -- the count moves by one on the file's inode only
    intro a i found'
    have counted := Heap.count_set found { file with denyWrite }
      fun file => file.inode == a && file.denyWrite
    simp only [Heap.get_set_of_get inodeFound] at found'
    split at found'
    · rename_i here
      subst here
      cases found'
      have before := table.denyWriteCnt_eq file.inode inode inodeFound
      simp only [beq_self_eq_true, Bool.true_and, flipped] at counted
      unfold deniers at before ⊢
      cases denyWrite <;> simp at counted ⊢ <;> omega
    · rename_i apart
      have differ : (file.inode == a) = false := beq_eq_false_iff_ne.mpr (Ne.symm apart)
      have same : deniers (fs.files.set f { file with denyWrite }) a = deniers fs.files a :=
        Heap.count_set_of_eq found (by simp [differ])
      rw [same]
      exact table.denyWriteCnt_eq a i found'
  · intro g file' found'
    rw [Heap.isSome_get_set inodeFound]
    rw [Heap.get_set_of_get found] at found'
    split at found'
    · cases found'
      exact table.fileLive f file found
    · exact table.fileLive g file' found'
  · intro a holds
    rw [Heap.isSome_get_set inodeFound]
    exact table.heldLive a holds

/-- `file_open`: the new file takes over its opener's opening of the inode. -/
theorem OpenTable.allocFile (table : OpenTable fs held) {address : Nat} (holds : address ∈ held) :
    OpenTable { fs with files := (fs.files.alloc { inode := address, pos := 0, denyWrite := false }).1 }
      (held.erase address) := by
  have heldOnce : 0 < held.count address := List.count_pos_iff.mpr holds
  refine table.of_shape (fun _ => rfl) rfl ?_ ?_ ?_ ?_
  · intro a i found
    have counted := Heap.count_alloc fs.files { inode := address, pos := 0, denyWrite := false }
      fun file => file.inode == a
    have before := table.openCnt_eq a i found
    unfold openers at before ⊢
    dsimp only
    by_cases same : a = address
    · subst same
      simp only [beq_self_eq_true, if_true] at counted
      rw [List.count_erase_self]
      omega
    · have differ : (address == a) = false := beq_eq_false_iff_ne.mpr (Ne.symm same)
      simp only [differ, Bool.false_eq_true, if_false, Nat.add_zero] at counted
      rw [List.count_erase_of_ne same]
      omega
  · intro a i found
    have counted := Heap.count_alloc fs.files { inode := address, pos := 0, denyWrite := false }
      fun file => file.inode == a && file.denyWrite
    simp only [Bool.and_false, Bool.false_eq_true, if_false, Nat.add_zero] at counted
    rw [table.denyWriteCnt_eq a i found]
    unfold deniers
    dsimp only
    omega
  · intro f file found
    simp only [Heap.get_alloc] at found
    split at found
    · cases found
      exact table.heldLive address holds
    · exact table.fileLive f file found
  · intro a holds'
    exact table.heldLive a (List.mem_of_mem_erase holds')

theorem fileOpen_openTable (table : OpenTable fs held) {address : Nat} (holds : address ∈ held) :
    OpenTable (fs.fileOpen (some address)).1 (held.erase address) :=
  table.allocFile holds

/-- `file_close` frees its file once the file has stopped denying writes: the
file's opening of its inode passes to the code that closes it. -/
theorem OpenTable.freeFile (table : OpenTable fs held) {f : Nat} {file : File}
    (found : fs.files.get f = some file) (allows : file.denyWrite = false) :
    OpenTable { fs with files := fs.files.free f } (file.inode :: held) := by
  refine table.of_shape (fun _ => rfl) rfl ?_ ?_ ?_ ?_
  · intro a i found'
    have counted := Heap.count_free found fun file => file.inode == a
    have before := table.openCnt_eq a i found'
    unfold openers at before ⊢
    dsimp only
    by_cases same : a = file.inode
    · subst same
      simp only [beq_self_eq_true, if_true] at counted
      rw [List.count_cons_self]
      omega
    · have differ : (file.inode == a) = false := beq_eq_false_iff_ne.mpr (Ne.symm same)
      simp only [differ, Bool.false_eq_true, if_false, Nat.add_zero] at counted
      rw [List.count_cons_of_ne (Ne.symm same)]
      omega
  · intro a i found'
    have counted := Heap.count_free found fun file => file.inode == a && file.denyWrite
    simp only [allows, Bool.and_false, Bool.false_eq_true, if_false, Nat.add_zero] at counted
    rw [table.denyWriteCnt_eq a i found']
    unfold deniers
    dsimp only
    omega
  · intro g file' found'
    simp only [Heap.get_free] at found'
    split at found'
    · cases found'
    · exact table.fileLive g file' found'
  · intro a holds
    rcases List.mem_cons.mp holds with same | earlier
    · rw [same]
      exact table.fileLive f file found
    · exact table.heldLive a earlier

theorem fileAllowWrite_openTable {f : Nat} (table : OpenTable fs held)
    (allowed : fs.fileAllowWrite f = .ok fs') :
    OpenTable fs' held ∧ ∃ file, fs.files.get f = some file ∧
      fs'.files = fs.files.set f { file with denyWrite := false } := by
  unfold fileAllowWrite at allowed
  obtain ⟨file, fetched, rest⟩ := Control.bind_eq_ok allowed
  have found := fileAt_eq_ok fetched
  split at rest
  · rename_i already
    cases rest
    have unchanged : { file with denyWrite := false } = file := by
      cases file
      simp_all
    exact ⟨table, file, found, by rw [unchanged, Heap.set_self found]⟩
  · rename_i denying
    simp only [inodeAllowWrite, bind, Except.bind, pure, Except.pure] at rest
    split at rest
    · rename_i inode inodeFound
      split at rest
      · cases rest
      · split at rest
        · cases rest
        · cases rest
          exact ⟨table.setDenyWrite found inodeFound false (by simpa using denying), file, found,
            rfl⟩
    · cases rest

/-- `file_close` of a file frees it and keeps the table. -/
theorem fileClose_openTable {f : Nat} (table : OpenTable fs held)
    (closed : fs.fileClose (some f) = .ok fs') :
    OpenTable fs' held ∧ fs'.files = fs.files.free f := by
  unfold fileClose at closed
  obtain ⟨allowedFs, allowed, rest⟩ := Control.bind_eq_ok closed
  obtain ⟨allowTable, file, found, allowedFiles⟩ := fileAllowWrite_openTable table allowed
  obtain ⟨file', fetched, rest⟩ := Control.bind_eq_ok rest
  have found' := fileAt_eq_ok fetched
  rw [allowedFiles, Heap.get_set_of_get found, if_pos rfl, Option.some.injEq] at found'
  subst found'
  obtain ⟨closedFs, inodeClosed, returned⟩ := Control.bind_eq_ok rest
  cases returned
  -- the file's opening of its inode is the one `inode_close` drops
  have freed := allowTable.freeFile (by rw [allowedFiles, Heap.get_set_of_get found, if_pos rfl]) rfl
  obtain ⟨closedTable, closedFiles⟩ :=
    inodeClose_openTable_withFiles freed List.mem_cons_self inodeClosed
  rw [List.erase_cons_head] at closedTable
  refine ⟨?_, ?_⟩
  · rw [closedFiles]
    exact closedTable
  · show closedFs.files.free f = fs.files.free f
    rw [closedFiles, allowedFiles, Heap.free_set]

theorem inodeWriteAt_same {address : Nat} {buffer : List UInt8} {size offset written : Int}
    (wrote : fs.inodeWriteAt address buffer size offset = .ok (fs', written)) :
    SameObjects fs fs' := by
  simp only [inodeWriteAt, pure, Except.pure] at wrote
  split at wrote
  · split at wrote
    · cases wrote
      exact ⟨rfl, rfl, rfl⟩
    · cases wrote
      exact ⟨rfl, rfl, rfl⟩
  · cases wrote

/-- `inode_write_at` writes nothing while the inode denies writes. -/
theorem inodeWriteAt_denied {address : Nat} {inode : Inode}
    (found : fs.inodes.get address = some inode) (denied : inode.denyWriteCnt ≠ 0)
    (buffer : List UInt8) (size offset : Int) :
    fs.inodeWriteAt address buffer size offset = .ok (fs, 0) := by
  simp [inodeWriteAt, found, denied, pure, Except.pure]

theorem fileWrite_openTable {f : Nat} {buffer : List UInt8} {size written : Int}
    (table : OpenTable fs held) (wrote : fs.fileWrite f buffer size = .ok (fs', written)) :
    OpenTable fs' held ∧ ∃ file, fs.files.get f = some file ∧
      fs'.files = fs.files.set f { file with pos := file.pos + written } := by
  unfold fileWrite at wrote
  obtain ⟨file, fetched, rest⟩ := Control.bind_eq_ok wrote
  have found := fileAt_eq_ok fetched
  obtain ⟨⟨writtenFs, written'⟩, writing, returned⟩ := Control.bind_eq_ok rest
  cases returned
  have same := inodeWriteAt_same writing
  have found' : writtenFs.files.get f = some file := by rw [same.files, found]
  refine ⟨(table.of_same same).setFile found' rfl rfl, file, found, ?_⟩
  show writtenFs.files.set f _ = _
  rw [same.files]

/-- A file that denies writes protects its sector: a write through any file
whose inode has that sector changes no file's data and writes nothing. -/
theorem fileWrite_denied (table : OpenTable fs held) {f g : Nat} {file denier : File}
    (found : fs.files.get f = some file) (denying : fs.files.get g = some denier)
    (denies : denier.denyWrite = true)
    (sameSector : (fs.inodes.get file.inode).map Inode.sector =
      (fs.inodes.get denier.inode).map Inode.sector)
    {buffer : List UInt8} {size written : Int}
    (wrote : fs.fileWrite f buffer size = .ok (fs', written)) :
    fs'.contents = fs.contents ∧ written = 0 := by
  obtain ⟨inode', denierInode⟩ := Option.isSome_iff_exists.mp (table.fileLive g denier denying)
  rw [denierInode, Option.map_some] at sameSector
  obtain ⟨inode, inodeFound, sameSector⟩ := Option.map_eq_some_iff.mp sameSector
  -- one inode per sector: the file is on the denier's inode
  have shared := table.oneSector _ _ _ _ inodeFound denierInode sameSector
  have counted : 0 < deniers fs.files denier.inode :=
    Heap.count_pos denying (by simp [denies])
  have denied : inode.denyWriteCnt ≠ 0 := by
    rw [table.denyWriteCnt_eq _ inode inodeFound, shared]
    omega
  have fetched : fs.fileAt f = .ok file := by simp [fileAt, found]
  simp only [fileWrite, fetched, inodeWriteAt_denied inodeFound denied, bind, Except.bind, pure,
    Except.pure, Except.ok.injEq, Prod.mk.injEq] at wrote
  obtain ⟨returned, nothing⟩ := wrote
  subst returned nothing
  exact ⟨rfl, rfl⟩

/-! ## `filesys.c` -/

theorem filesysCreate_openTable {name : List UInt8} {initialSize : Int} {success : Bool}
    (table : OpenTable fs []) (created : fs.filesysCreate name initialSize = .ok (fs', success)) :
    OpenTable fs' [] ∧ fs'.files = fs.files := by
  simp only [filesysCreate, bind, Except.bind, pure, Except.pure] at created
  split at created
  · cases created
  rename_i opened openedEq
  obtain ⟨openedTable, openedFiles⟩ := inodeOpen_openTable table openedEq
  -- between opening and closing the root directory only the disk changes
  have closes : ∀ middle (made : Bool), SameObjects opened.1 middle →
      (middle.dirClose opened.2).bind (fun closed => .ok (closed, made)) = .ok (fs', success) →
      OpenTable fs' [] ∧ fs'.files = fs.files := by
    intro middle made same closing
    obtain ⟨closed, closedEq, returned⟩ := Control.bind_eq_ok closing
    cases returned
    obtain ⟨closedTable, closedFiles⟩ :=
      inodeClose_openTable (openedTable.of_same same) List.mem_cons_self closedEq
    rw [List.erase_cons_head] at closedTable
    exact ⟨closedTable, closedFiles.trans (same.files.trans openedFiles)⟩
  have releases : ∀ middle (sector : Nat) (made : Bool), SameObjects opened.1 middle →
      ((middle.freeMapRelease sector 1).bind fun released =>
        (released.dirClose opened.2).bind fun closed => .ok (closed, made)) = .ok (fs', success) →
      OpenTable fs' [] ∧ fs'.files = fs.files := by
    intro middle sector made same releasing
    obtain ⟨released, releasedEq, closing⟩ := Control.bind_eq_ok releasing
    exact closes released made (same.trans (freeMapRelease_same releasedEq)) closing
  have allocated := freeMapAllocate_same opened.1 1
  cases allocation : (opened.1.freeMapAllocate 1).2 with
  | none =>
      simp only [allocation] at created
      exact closes _ false allocated created
  | some inodeSector =>
      simp only [allocation] at created
      split at created
      · cases created
      · rename_i made making
        have madeSame := allocated.trans (inodeCreate_same making)
        have added := madeSame.trans (dirAdd_same made.1 name inodeSector)
        -- with or without a new entry; a sector that no entry took goes back
        split at created <;> split at created
        · exact releases _ _ _ added created
        · exact closes _ _ added created
        · exact releases _ _ _ madeSame created
        · exact closes _ _ madeSame created

/-- `filesys_init (true)` leaves the table with nothing held: the free map's
file is the one opener of its inode. -/
theorem filesysInit_openTable {sectorCount : Nat} (formatted : filesysInit sectorCount = .ok fs) :
    OpenTable fs [] := by
  unfold filesysInit at formatted
  obtain ⟨⟨made, created⟩, making, rest⟩ := Control.bind_eq_ok formatted
  have madeTable := (OpenTable.empty rfl rfl rfl).of_same (inodeCreate_same making)
  dsimp only at rest
  split at rest
  · obtain ⟨_, failed, _⟩ := Control.bind_eq_ok rest
    cases failed
  obtain ⟨⟨opened, inode⟩, opening, rest⟩ := Control.bind_eq_ok rest
  have fileTable := fileOpen_openTable (inodeOpen_openTable madeTable opening).1
    List.mem_cons_self
  rw [List.erase_cons_head] at fileTable
  dsimp only at rest
  obtain ⟨⟨made', created'⟩, making', rest⟩ := Control.bind_eq_ok rest
  have madeTable' := fileTable.of_same (inodeCreate_same making')
  dsimp only at rest
  split at rest
  · obtain ⟨_, failed, _⟩ := Control.bind_eq_ok rest
    cases failed
  -- the root directory's entries are on the disk
  obtain ⟨closed, closing, rest⟩ := Control.bind_eq_ok rest
  rw [show (opened.fileOpen (some inode)).2 = some opened.files.next from rfl] at closing
  have closedTable :=
    (fileClose_openTable (by exact madeTable'.of_objects rfl rfl rfl) closing).1
  obtain ⟨⟨reopened, inode'⟩, reopening, returned⟩ := Control.bind_eq_ok rest
  cases returned
  have reopenedTable := fileOpen_openTable (inodeOpen_openTable closedTable reopening).1
    List.mem_cons_self
  rw [List.erase_cons_head] at reopenedTable
  exact reopenedTable

/-! ## Removing and opening files by name -/

theorem OpenTable.setInode (table : OpenTable fs held) {address : Nat} {inode inode' : Inode}
    (found : fs.inodes.get address = some inode) (sector : inode'.sector = inode.sector)
    (openCnt : inode'.openCnt = inode.openCnt)
    (denyWriteCnt : inode'.denyWriteCnt = inode.denyWriteCnt) :
    OpenTable { fs with inodes := fs.inodes.set address inode' } held := by
  refine table.of_shape ?_ rfl ?_ ?_ ?_ ?_
  · intro other
    simp only [Heap.get_set_of_get found]
    split
    · rename_i same
      rw [same, found, Option.map_some, Option.map_some, sector]
    · rfl
  · intro other changed found'
    simp only [Heap.get_set_of_get found] at found'
    split at found'
    · rename_i same
      subst same
      cases found'
      rw [openCnt]
      exact table.openCnt_eq other inode found
    · exact table.openCnt_eq other changed found'
  · intro other changed found'
    simp only [Heap.get_set_of_get found] at found'
    split at found'
    · rename_i same
      subst same
      cases found'
      rw [denyWriteCnt]
      exact table.denyWriteCnt_eq other inode found
    · exact table.denyWriteCnt_eq other changed found'
  · intro f file found'
    rw [Heap.isSome_get_set found]
    exact table.fileLive f file found'
  · intro other holds
    rw [Heap.isSome_get_set found]
    exact table.heldLive other holds

theorem inodeRemove_openTable {address : Nat} (table : OpenTable fs held)
    (removed : fs.inodeRemove address = .ok fs') : OpenTable fs' held ∧ fs'.files = fs.files := by
  unfold inodeRemove at removed
  split at removed
  · rename_i inode found
    cases removed
    exact ⟨table.setInode found rfl rfl rfl, rfl⟩
  · cases removed

/-- `dir_lookup` holds the inode it returns. -/
theorem dirLookup_openTable {name : List UInt8} {inode : Option Nat} (table : OpenTable fs held)
    (looked : fs.dirLookup name = .ok (fs', inode)) :
    OpenTable fs' (inode.toList ++ held) ∧ fs'.files = fs.files := by
  unfold dirLookup at looked
  split at looked
  · obtain ⟨⟨opened, address⟩, opening, returned⟩ := Control.bind_eq_ok looked
    cases returned
    exact inodeOpen_openTable table opening
  · cases looked
    exact ⟨table, rfl⟩

/-- `dir_remove` opens the entry's inode, marks it removed and closes it again. -/
theorem dirRemove_openTable {name : List UInt8} {success : Bool} (table : OpenTable fs held)
    (removed : fs.dirRemove name = .ok (fs', success)) :
    OpenTable fs' held ∧ fs'.files = fs.files := by
  unfold dirRemove at removed
  split at removed
  · rename_i index _
    split at removed
    · rename_i entry _
      obtain ⟨⟨opened, address⟩, opening, rest⟩ := Control.bind_eq_ok removed
      obtain ⟨openedTable, openedFiles⟩ := inodeOpen_openTable table opening
      obtain ⟨marked, marking, rest⟩ := Control.bind_eq_ok rest
      -- the entry's `in_use` byte is on the disk, which the table does not see
      have unlisted : OpenTable { opened with
          rootDir := opened.rootDir.set index { entry with inUse := false } } (address :: held) :=
        openedTable.of_objects rfl rfl rfl
      obtain ⟨markedTable, markedFiles⟩ := inodeRemove_openTable unlisted marking
      obtain ⟨closed, closing, returned⟩ := Control.bind_eq_ok rest
      cases returned
      obtain ⟨closedTable, closedFiles⟩ :=
        inodeClose_openTable markedTable List.mem_cons_self closing
      rw [List.erase_cons_head] at closedTable
      exact ⟨closedTable, closedFiles.trans (markedFiles.trans openedFiles)⟩
    · cases removed
      exact ⟨table, rfl⟩
  · cases removed
    exact ⟨table, rfl⟩

theorem filesysRemove_openTable {name : List UInt8} {success : Bool} (table : OpenTable fs [])
    (removed : fs.filesysRemove name = .ok (fs', success)) :
    OpenTable fs' [] ∧ fs'.files = fs.files := by
  unfold filesysRemove at removed
  obtain ⟨⟨opened, dir⟩, opening, rest⟩ := Control.bind_eq_ok removed
  obtain ⟨openedTable, openedFiles⟩ := inodeOpen_openTable table opening
  obtain ⟨⟨erased, success'⟩, erasing, rest⟩ := Control.bind_eq_ok rest
  obtain ⟨erasedTable, erasedFiles⟩ := dirRemove_openTable openedTable erasing
  obtain ⟨closed, closing, returned⟩ := Control.bind_eq_ok rest
  cases returned
  obtain ⟨closedTable, closedFiles⟩ := inodeClose_openTable erasedTable List.mem_cons_self closing
  rw [List.erase_cons_head] at closedTable
  exact ⟨closedTable, closedFiles.trans (erasedFiles.trans openedFiles)⟩

/-- `filesys_open` hands the inode that `dir_lookup` opened to a new file, at an
address no file had. -/
theorem filesysOpen_openTable {name : List UInt8} {file : Option Nat} (table : OpenTable fs [])
    (opened : fs.filesysOpen name = .ok (fs', file)) :
    OpenTable fs' [] ∧ (∀ f, (fs.files.get f).isSome → (fs'.files.get f).isSome) ∧
      ∀ f, file = some f → fs.files.get f = none ∧ (fs'.files.get f).isSome := by
  unfold filesysOpen at opened
  obtain ⟨⟨rooted, dir⟩, rooting, rest⟩ := Control.bind_eq_ok opened
  obtain ⟨rootedTable, rootedFiles⟩ := inodeOpen_openTable table rooting
  obtain ⟨⟨looked, inode⟩, looking, rest⟩ := Control.bind_eq_ok rest
  obtain ⟨lookedTable, lookedFiles⟩ := dirLookup_openTable rootedTable looking
  obtain ⟨closed, closing, returned⟩ := Control.bind_eq_ok rest
  have made : closed.fileOpen inode = (fs', file) := Except.ok.inj returned
  obtain ⟨rfl, rfl⟩ : (closed.fileOpen inode).1 = fs' ∧ (closed.fileOpen inode).2 = file :=
    ⟨congrArg Prod.fst made, congrArg Prod.snd made⟩
  obtain ⟨closedTable, closedFiles⟩ :=
    inodeClose_openTable lookedTable (List.mem_append_right _ List.mem_cons_self) closing
  have sameFiles : closed.files = fs.files := closedFiles.trans (lookedFiles.trans rootedFiles)
  cases inode with
  | none =>
      simp only [Option.toList_none, List.nil_append, List.erase_cons_head] at closedTable
      refine ⟨closedTable, fun f live => ?_, fun f made => nomatch made⟩
      simpa [fileOpen, sameFiles] using live
  | some address =>
      -- the root directory and the file's inode may be one inode: either way one is left held
      have heldOne : ([address] ++ [dir]).erase dir = [address] := by
        by_cases same : address = dir
        · simp [same]
        · rw [List.singleton_append, List.erase_cons_tail (by simpa using same),
            List.erase_cons_head]
      rw [Option.toList_some, heldOne] at closedTable
      have madeTable := fileOpen_openTable closedTable List.mem_cons_self
      rw [List.erase_cons_head] at madeTable
      refine ⟨madeTable, fun f live => ?_, fun f made => ?_⟩
      · simp only [fileOpen, Heap.get_alloc]
        split
        · rfl
        · rwa [sameFiles]
      · have fresh : closed.files.next = f := Option.some.inj made
        subst fresh
        refine ⟨?_, by simp [fileOpen]⟩
        rw [← sameFiles]
        exact Heap.get_next closed.files

theorem fileRead_openTable {f : Nat} {size : Int} {bytes : List UInt8}
    (table : OpenTable fs held) (read : fs.fileRead f size = .ok (fs', bytes)) :
    OpenTable fs' held ∧ ∃ file, fs.files.get f = some file ∧
      fs'.files = fs.files.set f { file with pos := file.pos + bytes.length } := by
  unfold fileRead at read
  obtain ⟨file, fetched, rest⟩ := Control.bind_eq_ok read
  have found := fileAt_eq_ok fetched
  obtain ⟨bytes', reading, returned⟩ := Control.bind_eq_ok rest
  cases returned
  exact ⟨table.setFile found rfl rfl, file, found, rfl⟩

theorem fileSeek_openTable {f : Nat} {newPos : Int} (table : OpenTable fs held)
    (sought : fs.fileSeek f newPos = .ok fs') :
    OpenTable fs' held ∧ ∃ file, fs.files.get f = some file ∧
      fs'.files = fs.files.set f { file with pos := newPos } := by
  unfold fileSeek at sought
  obtain ⟨file, fetched, rest⟩ := Control.bind_eq_ok sought
  have found := fileAt_eq_ok fetched
  split at rest
  · cases rest
  · cases rest
    exact ⟨table.setFile found rfl rfl, file, found, rfl⟩

end Pintos.Filesys
