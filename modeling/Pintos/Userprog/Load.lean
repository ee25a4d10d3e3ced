import Mathlib
import Pintos.Userprog.Syscall
import Pintos.Vm.Invariants

/-!
# Loading a program

`load` of `userprog/process.c`, after `pagedir_create`: it cuts the command
line into `argv` with `strtok_r`, then reads the executable's ELF header and
its program headers, records each loadable segment with `load_segment`, and
sets up the stack.  The executable is the file `filesys_open (argv[0])`
returned, named by its number as the spinfos name it, and its bytes are those
`file_read` reads.

`argv` is the array `char *argv[MAXARGS]` on `load`'s stack: the `for` loop
stores the `argcounter`-th token into `argv[argcounter]` whatever its number,
and `strlcpy (t->name, argv[0], ...)` reads `argv[0]` whether or not a token
was stored there.  Both are errors here.
-/

namespace Pintos

/-! ## The command line -/

/-- The delimiter `load` gives `strtok_r`. -/
def space : UInt8 := 0x20

/-- `strtok_r (s, " ", &save_ptr)` on what is left of the string: the spaces
before the token are skipped, the token runs up to the next space, which
becomes its null byte, and the scan goes on after it; `none` when only spaces
are left. -/
def strtokR (s : List UInt8) : Option (List UInt8 × List UInt8) :=
  match s.dropWhile (· == space) with
  | [] => none
  | rest => some (rest.takeWhile (· != space), (rest.dropWhile (· != space)).drop 1)

/-- The tokens of the `for` loop of `load`, one `strtok_r` call each.  Each
call consumes at least one byte, so a string of `n` bytes is done within
`n + 1` calls. -/
def strtokTokens : Nat → List UInt8 → List (List UInt8)
  | 0, _ => []
  | fuel + 1, s =>
      match strtokR s with
      | some (token, rest) => token :: strtokTokens fuel rest
      | none => []

/-- `argv[argcounter] = token; argcounter++` for each token, into the
`MAXARGS` slots of `argv`. -/
def storeArgv (tokens : List (List UInt8)) : Except String (List (List UInt8)) :=
  tokens.foldlM (fun argv token =>
    if argv.length < maxArgs then .ok (argv ++ [token])
    else .error "argv[MAXARGS] written past its end") []

/-- The command-line part of `load`: the stored arguments, of which
`strlcpy (t->name, argv[0], sizeof t->name)` then reads the first. -/
def loadArgs (cmdLine : List UInt8) : Except String (List (List UInt8)) := do
  let argv ← storeArgv (strtokTokens (cmdLine.length + 1) cmdLine)
  if argv = [] then throw "uninitialised argv[0] read"
  return argv

/-- The check of `process_execute`: the command line fits the stack page with
room for `MAXARGS` pointers and the fixed part. -/
def argumentsFit (cmdLine : List UInt8) : Prop :=
  cmdLine.length ≤ 4096 - (19 + maxArgs * 4)

instance (cmdLine : List UInt8) : Decidable (argumentsFit cmdLine) :=
  inferInstanceAs (Decidable (cmdLine.length ≤ _))

/-- Storing goes on while there is room, and fails at the token that would go
into `argv[MAXARGS]`. -/
theorem foldlM_storeArgv (tokens argv : List (List UInt8)) (room : argv.length ≤ maxArgs) :
    tokens.foldlM (fun argv token =>
        if argv.length < maxArgs then .ok (argv ++ [token])
        else .error "argv[MAXARGS] written past its end") argv =
      if argv.length + tokens.length ≤ maxArgs then Except.ok (argv ++ tokens)
      else Except.error "argv[MAXARGS] written past its end" := by
  induction tokens generalizing argv with
  | nil => simp [room, pure, Except.pure]
  | cons token rest inductionHypothesis =>
      rw [List.foldlM_cons]
      by_cases full : argv.length < maxArgs
      · simp only [if_pos full, bind, Except.bind]
        rw [inductionHypothesis (argv ++ [token]) (by simp; omega)]
        simp only [List.length_append, List.length_cons, List.length_nil, List.append_assoc,
          List.singleton_append]
        congr 1
        apply propext
        omega
      · have past : ¬ argv.length + (token :: rest).length ≤ maxArgs := by
          simp only [List.length_cons]
          omega
        simp only [if_neg full, if_neg past, bind, Except.bind]

theorem storeArgv_eq (tokens : List (List UInt8)) :
    storeArgv tokens =
      if tokens.length ≤ maxArgs then Except.ok tokens
      else Except.error "argv[MAXARGS] written past its end" := by
  unfold storeArgv
  rw [foldlM_storeArgv tokens [] (by simp [maxArgs])]
  simp

/-- A command line of more than `MAXARGS` tokens makes `load` store past the
end of `argv`, whatever its length. -/
theorem load_writes_past_argv {cmdLine : List UInt8}
    (many : maxArgs < (strtokTokens (cmdLine.length + 1) cmdLine).length) :
    loadArgs cmdLine = .error "argv[MAXARGS] written past its end" := by
  simp only [loadArgs, storeArgv_eq, if_neg (Nat.not_le.mpr many), bind, Except.bind]

/-- Twenty-six one-letter arguments: 52 bytes, well within the check of
`process_execute`. -/
def manyArguments : List UInt8 := (List.replicate 26 [0x61, space]).flatten

theorem manyArguments_overflow :
    argumentsFit manyArguments ∧
      loadArgs manyArguments = .error "argv[MAXARGS] written past its end" :=
  ⟨by decide, load_writes_past_argv (by decide)⟩

/-! ## The ELF header and the program headers -/

/-- An `Elf32_Half` at `offset`, least significant byte first.  A byte past the
end reads as 0; `load` checks the length of what it read before it looks. -/
def readHalf (bytes : List UInt8) (offset : Nat) : Nat :=
  (bytes.getD offset 0).toNat + 0x100 * (bytes.getD (offset + 1) 0).toNat

/-- An `Elf32_Word`, `Elf32_Addr` or `Elf32_Off` at `offset`. -/
def readWord (bytes : List UInt8) (offset : Nat) : Nat :=
  readHalf bytes offset + 0x10000 * readHalf bytes (offset + 2)

/-- `sizeof (struct Elf32_Ehdr)`. -/
def ehdrSize : Nat := 52

/-- `sizeof (struct Elf32_Phdr)`. -/
def phdrSize : Nat := 32

/-- `struct Elf32_Ehdr`, with the fields `load` reads. -/
structure Ehdr where
  eIdent : List UInt8
  eType : Nat
  eMachine : Nat
  eVersion : Nat
  eEntry : Nat
  ePhoff : Nat
  ePhentsize : Nat
  ePhnum : Nat
  deriving DecidableEq, Repr

/-- The header laid out in its bytes; `e_shoff`, `e_flags` and `e_ehsize` lie
between `e_phoff` and `e_phentsize`. -/
def Ehdr.ofBytes (bytes : List UInt8) : Ehdr where
  eIdent := bytes.take 16
  eType := readHalf bytes 16
  eMachine := readHalf bytes 18
  eVersion := readWord bytes 20
  eEntry := readWord bytes 24
  ePhoff := readWord bytes 28
  ePhentsize := readHalf bytes 42
  ePhnum := readHalf bytes 44

/-- `"\177ELF\1\1\1"`, the seven bytes `memcmp` compares `e_ident` with. -/
def elfMagic : List UInt8 := [0x7f, 0x45, 0x4c, 0x46, 1, 1, 1]

/-- The checks `load` makes of the header it read. -/
def Ehdr.verified (ehdr : Ehdr) : Bool :=
  ehdr.eIdent.take 7 == elfMagic && ehdr.eType == 2 && ehdr.eMachine == 3 &&
    ehdr.eVersion == 1 && ehdr.ePhentsize == phdrSize && decide (ehdr.ePhnum ≤ 1024)

/-- `struct Elf32_Phdr`, with the fields `load` reads. -/
structure Phdr where
  pType : Nat
  pOffset : Nat
  pVaddr : Nat
  pFilesz : Nat
  pMemsz : Nat
  pFlags : Nat
  deriving DecidableEq, Repr

/-- The program header laid out in its bytes; `p_paddr` lies after `p_vaddr`. -/
def Phdr.ofBytes (bytes : List UInt8) : Phdr where
  pType := readWord bytes 0
  pOffset := readWord bytes 4
  pVaddr := readWord bytes 8
  pFilesz := readWord bytes 16
  pMemsz := readWord bytes 20
  pFlags := readWord bytes 24

/-- `PF_W`. -/
def pfW : Nat := 2

/-- `validate_segment` for a file of `fileLength` bytes.  `p_vaddr + p_memsz` is
a 32-bit sum, so it wraps. -/
def validateSegment (phdr : Phdr) (fileLength : Nat) : Bool :=
  let segmentEnd := (phdr.pVaddr + phdr.pMemsz) % 2 ^ 32
  pgOfs phdr.pOffset == pgOfs phdr.pVaddr && decide (phdr.pOffset ≤ fileLength) &&
    decide (phdr.pFilesz ≤ phdr.pMemsz) && phdr.pMemsz != 0 &&
    isUserVaddr phdr.pVaddr && isUserVaddr segmentEnd &&
    decide (phdr.pVaddr ≤ segmentEnd) && decide (pgsize ≤ phdr.pVaddr)

/-- `ROUND_UP (x, step)` of `lib/round.h`. -/
def roundUp (x step : Nat) : Nat := (x + step - 1) / step * step

/-- The arguments `load` gives `load_segment` for a `PT_LOAD` header. -/
structure SegmentLoad where
  filePage : Nat
  memPage : Nat
  readBytes : Nat
  zeroBytes : Nat
  writable : Bool
  deriving DecidableEq, Repr

/-- The `PT_LOAD` case of `load`.  It runs after `validate_segment`, which keeps
`page_offset + p_memsz` below `PHYS_BASE`, so the `uint32_t` sums cannot wrap. -/
def Phdr.segmentLoad (phdr : Phdr) : SegmentLoad :=
  let pageOffset := pgOfs phdr.pVaddr
  let (readBytes, zeroBytes) :=
    if 0 < phdr.pFilesz then
      -- a normal segment: the initial part from disk, zeros for the rest
      (pageOffset + phdr.pFilesz,
        roundUp (pageOffset + phdr.pMemsz) pgsize - (pageOffset + phdr.pFilesz))
    else (0, roundUp (pageOffset + phdr.pMemsz) pgsize)
  { filePage := pgRoundDown phdr.pOffset, memPage := pgRoundDown phdr.pVaddr, readBytes,
    zeroBytes, writable := phdr.pFlags &&& pfW != 0 }

/-- `off_t file_ofs = ehdr.e_phoff`: the unsigned offset read as a 32-bit
signed one. -/
def offT (value : Nat) : Int := if value < 2 ^ 31 then value else value - 2 ^ 32

/-! ## What a segment records -/

@[simp]
theorem validateSegment_eq_true_iff {phdr : Phdr} {fileLength : Nat} :
    validateSegment phdr fileLength = true ↔
      pgOfs phdr.pOffset = pgOfs phdr.pVaddr ∧ phdr.pOffset ≤ fileLength ∧
        phdr.pFilesz ≤ phdr.pMemsz ∧ phdr.pMemsz ≠ 0 ∧ phdr.pVaddr < physBase ∧
        (phdr.pVaddr + phdr.pMemsz) % 2 ^ 32 < physBase ∧
        phdr.pVaddr ≤ (phdr.pVaddr + phdr.pMemsz) % 2 ^ 32 ∧ pgsize ≤ phdr.pVaddr := by
  simp [validateSegment, isUserVaddr, and_assoc]

theorem le_roundUp (x : Nat) : x ≤ roundUp x pgsize := by
  simp only [roundUp, pgsize]
  omega

theorem roundUp_mod (x : Nat) : roundUp x pgsize % pgsize = 0 := by
  simp [roundUp]

/-- The spinfos `load_segment` records for a segment of `file`. -/
def SegmentLoad.spinfos (segment : SegmentLoad) (file : Nat) : List Spinfo :=
  Vm.segmentSpinfos file segment.filePage segment.memPage segment.readBytes segment.writable
    ((segment.readBytes + segment.zeroBytes) / pgsize)

theorem segmentLoad_readBytes (phdr : Phdr) :
    phdr.segmentLoad.readBytes =
      if 0 < phdr.pFilesz then pgOfs phdr.pVaddr + phdr.pFilesz else 0 := by
  unfold Phdr.segmentLoad
  split <;> rfl

theorem segmentLoad_pages (phdr : Phdr) (fits : phdr.pFilesz ≤ phdr.pMemsz) :
    phdr.segmentLoad.readBytes + phdr.segmentLoad.zeroBytes =
      roundUp (pgOfs phdr.pVaddr + phdr.pMemsz) pgsize := by
  have covered := le_roundUp (pgOfs phdr.pVaddr + phdr.pMemsz)
  unfold Phdr.segmentLoad
  split <;> dsimp only <;> omega

/-- The byte the ELF file gives user address `address` in a segment: the file's
bytes over `[p_vaddr, p_vaddr + p_filesz)`, zeros after them. -/
def Phdr.imageByte (phdr : Phdr) (image : List UInt8) (address : Nat) : UInt8 :=
  if address - phdr.pVaddr < phdr.pFilesz then image.getD (phdr.pOffset + (address - phdr.pVaddr)) 0
  else 0

/-- Every byte of a valid segment is described by the spinfo `load_segment`
records for its page, writable as `p_flags` says: once faulted in, the page
holds the ELF image. -/
theorem segmentLoad_image {phdr : Phdr} {fileLength file address : Nat}
    (valid : validateSegment phdr fileLength = true)
    (inside : phdr.pVaddr ≤ address) (below : address < phdr.pVaddr + phdr.pMemsz) :
    ∃ info ∈ phdr.segmentLoad.spinfos file, info.file = some file ∧ info.instructions = .file ∧
      info.upageAddress = pgRoundDown address ∧ info.writable = (phdr.pFlags &&& pfW != 0) ∧
      info.bytesToRead ≤ pgsize ∧
      ∀ contents, info.fileByte contents (pgOfs address) = phdr.imageByte contents address := by
  obtain ⟨sameOffset, -, fits, -, -, -, -, -⟩ := validateSegment_eq_true_iff.mp valid
  have pages := segmentLoad_pages phdr fits
  have readBytes := segmentLoad_readBytes phdr
  -- the page of `address` is the `index`-th of the segment
  have inRange : address / pgsize - phdr.pVaddr / pgsize <
      (phdr.segmentLoad.readBytes + phdr.segmentLoad.zeroBytes) / pgsize := by
    rw [pages]
    simp only [roundUp, pgOfs, pgsize]
    omega
  refine ⟨_, List.mem_of_getElem? (Vm.getElem?_segmentSpinfos file _ _ _ _ inRange),
    rfl, rfl, ?_, rfl, Nat.min_le_right _ _, ?_⟩
  · simp only [Phdr.segmentLoad, pgRoundDown, pgsize]
    omega
  · intro contents
    simp only [pgOfs, pgsize] at sameOffset
    simp only [Spinfo.fileByte, Phdr.imageByte, readBytes]
    simp only [Phdr.segmentLoad, pgOfs, pgRoundDown, pgsize]
    -- an entirely zero segment reads nothing
    by_cases nonempty : 0 < phdr.pFilesz
    · simp only [if_pos nonempty]
      split <;> split
      · congr 1
        omega
      · omega
      · omega
      · rfl
    · simp only [if_neg nonempty, Nat.zero_sub, Nat.zero_min, Nat.not_lt_zero, if_false]
      split
      · omega
      · rfl
theorem spinfos_pages_nodup (segment : SegmentLoad) (file : Nat) :
    ((segment.spinfos file).map Spinfo.upageAddress).Nodup := by
  rw [SegmentLoad.spinfos, Vm.map_upageAddress_segmentSpinfos]
  apply List.Nodup.map _ List.nodup_range
  intro first second same
  simp only [pgsize] at same
  omega

namespace Vm

section Loader

variable (findSpinfoByKpage : List Spinfo → Option Nat → Option Nat)

/-- The program-header loop of `load` in thread `current`, for the executable
`file` with bytes `image`: `count` headers are left and the next is read at
`fileOfs`.  Returns the state and whether the loop ran to its end (`false` is
its `goto done`). -/
def loadPhdrs (current file : Nat) (image : List UInt8) :
    Nat → Int → Vm → Except String (Vm × Bool)
  | 0, _, vm => .ok (vm, true)
  | count + 1, fileOfs, vm =>
      if fileOfs < 0 ∨ (image.length : Int) < fileOfs then .ok (vm, false) else
      let bytes := (image.drop fileOfs.toNat).take phdrSize
      if bytes.length ≠ phdrSize then .ok (vm, false) else
      let phdr := Phdr.ofBytes bytes
      match phdr.pType with
      | 1 =>
          if validateSegment phdr image.length then do
            let segment := phdr.segmentLoad
            let vm ← vm.loadSegment current file segment.filePage segment.memPage
              segment.readBytes segment.zeroBytes segment.writable
            loadPhdrs current file image count (fileOfs + phdrSize) vm
          else .ok (vm, false)
      -- `PT_DYNAMIC`, `PT_INTERP` and `PT_SHLIB`
      | 2 | 3 | 5 => .ok (vm, false)
      | _ => loadPhdrs current file image count (fileOfs + phdrSize) vm

/-- `load` for thread `current` from reading the ELF header of the opened
executable `file` (its bytes are `vm.files file`, read from position 0) to
`setup_stack` with the stored arguments `argv`: the state, and on success
`*eip` and `*esp`. -/
def loadExecutable (vm : Vm) (current file : Nat) (argv : List (List UInt8)) :
    Except String (Vm × Option (Nat × Nat)) := do
  let image := vm.files file
  let header := image.take ehdrSize
  let ehdr := Ehdr.ofBytes header
  if header.length ≠ ehdrSize ∨ ehdr.verified = false then return (vm, none)
  let (vm, finished) ← loadPhdrs current file image ehdr.ePhnum (offT ehdr.ePhoff) vm
  if finished = false then return (vm, none)
  let (vm, esp) ← vm.setupStack findSpinfoByKpage current argv
  return (vm, some (ehdr.eEntry, esp))

/-- The program-header loop is a run of paging events: a `loadSegment` for
each segment it records. -/
theorem loadPhdrs_run {current file : Nat} {image : List UInt8} :
    ∀ {count : Nat} {fileOfs : Int} {vm next : Vm} {finished : Bool},
      loadPhdrs current file image count fileOfs vm = .ok (next, finished) →
        ∃ events, Transition.run (step findSpinfoByKpage) vm events = .ok next := by
  intro count
  induction count with
  | zero =>
      intro fileOfs vm next finished loaded
      exact ⟨[], by cases loaded; rfl⟩
  | succ count inductionHypothesis =>
      intro fileOfs vm next finished loaded
      unfold loadPhdrs at loaded
      dsimp only at loaded
      -- the two reads that end the loop early
      split at loaded
      · exact ⟨[], by cases loaded; rfl⟩
      split at loaded
      · exact ⟨[], by cases loaded; rfl⟩
      -- the switch on `p_type`
      split at loaded
      · -- `PT_LOAD`: `load_segment` is the event
        split at loaded
        · simp only [bind, Except.bind] at loaded
          split at loaded
          · cases loaded
          · rename_i recorded segmentLoaded
            obtain ⟨events, ran⟩ := inductionHypothesis loaded
            exact ⟨_ :: events,
              by rw [Transition.run_cons_ok _ (step_loadSegment findSpinfoByKpage segmentLoaded), ran]⟩
        · exact ⟨[], by cases loaded; rfl⟩
      -- `PT_DYNAMIC`, `PT_INTERP` and `PT_SHLIB` end the loop
      case h_2 | h_3 | h_4 => exact ⟨[], by cases loaded; rfl⟩
      · exact inductionHypothesis loaded

theorem loadExecutable_run {vm next : Vm} {current file : Nat} {argv : List (List UInt8)}
    {result : Option (Nat × Nat)}
    (loaded : loadExecutable findSpinfoByKpage vm current file argv = .ok (next, result)) :
    ∃ events, Transition.run (step findSpinfoByKpage) vm events = .ok next := by
  unfold loadExecutable at loaded
  simp only [bind, Except.bind, pure, Except.pure] at loaded
  split at loaded
  · exact ⟨[], by cases loaded; rfl⟩
  split at loaded
  · cases loaded
  rename_i recorded phdrsLoaded
  obtain ⟨events, ran⟩ := loadPhdrs_run findSpinfoByKpage phdrsLoaded
  split at loaded
  · cases loaded
    exact ⟨events, ran⟩
  split at loaded
  · cases loaded
  rename_i stacked stackSet
  cases loaded
  refine ⟨events ++ [.setupStack current argv], ?_⟩
  rw [Transition.run_append, ran]
  exact Transition.run_cons_ok _ (step_setupStack findSpinfoByKpage stackSet)

theorem loadExecutable_reachable {vm next : Vm} {current file : Nat} {argv : List (List UInt8)}
    {result : Option (Nat × Nat)} (reached : Reachable findSpinfoByKpage vm)
    (loaded : loadExecutable findSpinfoByKpage vm current file argv = .ok (next, result)) :
    Reachable findSpinfoByKpage next :=
  let ⟨_, ran⟩ := loadExecutable_run findSpinfoByKpage loaded
  Transition.Reachable.run reached ran

end Loader

/-! ## Two segments in one page -/

/-- The byte thread `tid` reads at user address `address` through its page
directory, when the page is present. -/
def userByte (vm : Vm) (tid address : Nat) : Option UInt8 := do
  let thread ← vm.threads tid
  let kaddr ← thread.pagedir.getPage address
  pure (vm.memory kaddr)

/-- An `Elf32_Half` as it is stored. -/
def halfBytes (value : Nat) : List UInt8 := [UInt8.ofNat value, UInt8.ofNat (value / 0x100)]

/-- The page both segments of `sharedPageElf` lie in. -/
def sharedPage : Nat := 0x08048000

/-- The second program header of `sharedPageElf`: four writable bytes at
`0x08048080`, from file offset `0x80`. -/
def sharedPageData : Phdr :=
  { pType := 1, pOffset := 0x80, pVaddr := 0x08048080, pFilesz := 4, pMemsz := 4, pFlags := 6 }

/-- An executable whose two `PT_LOAD` segments share a page: 16 read-only
bytes at the start of `sharedPage` from file offset 0, then `sharedPageData`,
whose bytes are `0x42`. -/
def sharedPageElf : List UInt8 :=
  elfMagic ++ List.replicate 9 0 ++ halfBytes 2 ++ halfBytes 3 ++ wordBytes 1 ++
    wordBytes sharedPage ++ wordBytes ehdrSize ++ wordBytes 0 ++ wordBytes 0 ++
    halfBytes ehdrSize ++ halfBytes phdrSize ++ halfBytes 2 ++ List.replicate 6 0 ++
    ([1, 0, sharedPage, 0, 0x10, 0x10, 5, pgsize].flatMap wordBytes) ++
    ([1, 0x80, 0x08048080, 0, 4, 4, 6, pgsize].flatMap wordBytes) ++
    List.replicate 12 0 ++ List.replicate 4 0x42

/-- A valid segment records each of its pages once, each writable as `p_flags`
says, and the `FILE` branch of `page_fault` fills the frame of a page with the
segment's ELF image. -/
theorem segment_faults_in_image {phdr : Phdr} {fileLength file : Nat}
    (valid : validateSegment phdr fileLength = true) :
    ((phdr.segmentLoad.spinfos file).map Spinfo.upageAddress).Nodup ∧
      ∀ address, phdr.pVaddr ≤ address → address < phdr.pVaddr + phdr.pMemsz →
        ∃ info ∈ phdr.segmentLoad.spinfos file, info.upageAddress = pgRoundDown address ∧
          info.writable = (phdr.pFlags &&& pfW != 0) ∧
          ∀ (vm next : Vm) (kpage : Nat), vm.loadFromFile info kpage = .ok next →
            next.memory (kpage + pgOfs address) = phdr.imageByte (vm.files file) address := by
  refine ⟨spinfos_pages_nodup _ file, fun address inside below => ?_⟩
  obtain ⟨info, member, fileEq, -, page, writable, fits, image⟩ :=
    segmentLoad_image valid inside below
  refine ⟨info, member, page, writable, fun vm next kpage loaded => ?_⟩
  have inPage : pgOfs address < pgsize := Nat.mod_lt _ (by decide)
  obtain ⟨readFile, readFileEq, filled⟩ := Vm.loadFromFile_memory loaded fits inPage
  rw [fileEq, Option.some.injEq] at readFileEq
  rw [filled, ← readFileEq, image]

theorem sharedPageData_faults_in_image :
    validateSegment sharedPageData 0x84 = true ∧
      ((sharedPageData.segmentLoad.spinfos 0).map Spinfo.upageAddress).Nodup ∧
      ∀ address, sharedPageData.pVaddr ≤ address →
        address < sharedPageData.pVaddr + sharedPageData.pMemsz →
        ∃ info ∈ sharedPageData.segmentLoad.spinfos 0, info.upageAddress = pgRoundDown address ∧
          info.writable = (sharedPageData.pFlags &&& pfW != 0) ∧
          ∀ (vm next : Vm) (kpage : Nat), vm.loadFromFile info kpage = .ok next →
            next.memory (kpage + pgOfs address) = sharedPageData.imageByte (vm.files 0) address := by
  have valid : validateSegment sharedPageData 0x84 = true := by decide
  exact ⟨valid, segment_faults_in_image valid⟩

/-- `load` accepts `sharedPageElf` and records two spinfos for `sharedPage`.
`find_spinfo` returns the first, so the fault at the second segment's address
fills the page from the first segment: the process reads 0 where the file has
`0x42`. -/
theorem load_shadows_shared_page :
    Phdr.ofBytes ((sharedPageElf.drop (ehdrSize + phdrSize)).take phdrSize) = sharedPageData ∧
      sharedPageData.imageByte sharedPageElf sharedPageData.pVaddr = 0x42 ∧
      ∃ spawned loaded entry esp, Reachable firstSpinfoByKpage spawned ∧
        loadExecutable firstSpinfoByKpage spawned 1 0 [[0x61]] = .ok (loaded, some (entry, esp)) ∧
        Reachable firstSpinfoByKpage loaded ∧
        ((loaded.threads 1).map fun thread =>
          (thread.spageTable.filter fun info => info.upageAddress == sharedPage).length) = some 2 ∧
        ∃ faulted,
          step firstSpinfoByKpage loaded (.access 1 sharedPageData.pVaddr false 0 esp) =
            .ok faulted ∧
          faulted.userByte 1 sharedPageData.pVaddr = some 0 := by
  have started : Initial (init 2 2 (freshUserPool 2) fun _ => sharedPageElf) :=
    initial_init (by decide)
  have shadowing : Transition.runSatisfies (step firstSpinfoByKpage)
      (init 2 2 (freshUserPool 2) fun _ => sharedPageElf) [.spawn 1] (fun spawned =>
        match loadExecutable firstSpinfoByKpage spawned 1 0 [[0x61]] with
        | .ok (loaded, some (_, esp)) =>
            ((loaded.threads 1).map fun thread =>
              (thread.spageTable.filter fun info => info.upageAddress == sharedPage).length) ==
                some 2 &&
            Transition.movesTo
              (step firstSpinfoByKpage loaded (.access 1 sharedPageData.pVaddr false 0 esp))
              fun faulted => faulted.userByte 1 sharedPageData.pVaddr == some 0
        | .ok (_, none) | .error _ => false) = true := by
    decide +kernel
  obtain ⟨spawned, reached, holds⟩ := Transition.Reachable.of_runSatisfies started shadowing
  split at holds
  · rename_i loaded entry esp loadedEq
    rw [Bool.and_eq_true, beq_iff_eq] at holds
    obtain ⟨twice, faultedIn⟩ := holds
    obtain ⟨faulted, moved, zero⟩ := Transition.exists_of_movesTo faultedIn
    exact ⟨by decide, by decide, spawned, loaded, entry, esp, reached, loadedEq,
      loadExecutable_reachable firstSpinfoByKpage reached loadedEq, twice, faulted, moved,
      beq_iff_eq.mp zero⟩
  all_goals cases holds

end Vm

end Pintos
