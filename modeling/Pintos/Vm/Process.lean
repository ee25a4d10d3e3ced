import Mathlib
import Pintos.Vm.Frametable

/-!
# Paging in process creation and exit

The parts of `userprog/process.c` and `threads/thread.c` that touch paging:
`install_page`; `load_segment`, which records one FILE spinfo per page of a
segment and loads nothing; `setup_stack`, which records the stack page, maps
it at once and writes the arguments into it through the user mapping; and the
teardown of `thread_exit`: `process_exit` frees the frames of the resident
pages and destroys the page directory, then every spinfo is dropped and the
swap slot of each SWAP spinfo freed.

The argument strings `setup_stack` writes come from `load`'s `strtok_r` loop,
which is not part of this module: `setupStack` takes them as they arrive in
`argv`.
-/

namespace Pintos

/-- A 32-bit word in memory, least significant byte first. -/
def wordBytes (value : Nat) : List UInt8 :=
  [value, value / 0x100, value / 0x10000, value / 0x1000000].map fun byte => UInt8.ofNat byte

/-- `ptr - n` for a 32-bit pointer `ptr`. -/
def ptrSub (ptr n : Nat) : Nat := (ptr + 2 ^ 32 - n) % 2 ^ 32

namespace Vm

/-- `install_page` for thread `current`: map `upage` unless it is mapped
(`none`); the assertions are those of `pagedir_get_page` and
`pagedir_set_page` on the user page. -/
def installPage (thread : Thread) (upage kpage : Nat) (writable : Bool) :
    Except String (Option Thread) :=
  if !isUserVaddr upage then .error "assertion is_user_vaddr (uaddr) failed"
  else if thread.pagedir.getPage upage = none then
    if pgOfs upage ≠ 0 then .error "assertion pg_ofs (upage) == 0 failed"
    else .ok (some { thread with pagedir := thread.pagedir.setPage upage kpage writable })
  else .ok none

/-- The spinfos of the `while (read_bytes > 0 || zero_bytes > 0)` loop of
`load_segment`, one per page: the loop runs `(read_bytes + zero_bytes) / PGSIZE`
times, which the first `ASSERT` makes exact. -/
def segmentSpinfos (file ofs upage readBytes : Nat) (writable : Bool) : Nat → List Spinfo
  | 0 => []
  | pages + 1 =>
      let pageReadBytes := min readBytes pgsize
      { file := some file, fileOffset := ofs, bytesToRead := pageReadBytes, writable,
        upageAddress := upage, kpageAddress := none, instructions := .file,
        indexIntoSwap := -1 } ::
        segmentSpinfos file (ofs + pgsize) (upage + pgsize) (readBytes - pageReadBytes) writable
          pages

def loadSegment (vm : Vm) (current file ofs upage readBytes zeroBytes : Nat)
    (writable : Bool) : Except String Vm := do
  if (readBytes + zeroBytes) % pgsize ≠ 0 then
    throw "assertion (read_bytes + zero_bytes) % PGSIZE == 0 failed"
  if pgOfs upage ≠ 0 then throw "assertion pg_ofs (upage) == 0 failed"
  if ofs % pgsize ≠ 0 then throw "assertion ofs % PGSIZE == 0 failed"
  let some thread := vm.threads current | throw "thread_current freed"
  let added := segmentSpinfos file ofs upage readBytes writable ((readBytes + zeroBytes) / pgsize)
  return vm.setThread current { thread with spageTable := thread.spageTable ++ added }

section LoadSegment

variable {vm next : Vm} {current file ofs upage readBytes zeroBytes : Nat} {writable : Bool}

theorem loadSegment_eq_ok
    (loaded : vm.loadSegment current file ofs upage readBytes zeroBytes writable = .ok next) :
    ∃ thread, vm.threads current = some thread ∧
      next = vm.setThread current { thread with
        spageTable := thread.spageTable ++
          segmentSpinfos file ofs upage readBytes writable ((readBytes + zeroBytes) / pgsize) } := by
  simp only [loadSegment, bind, Except.bind, throw, throwThe, MonadExceptOf.throw] at loaded
  -- the three assertions, then the current thread
  split at loaded
  · cases loaded
  split at loaded
  · cases loaded
  split at loaded
  · cases loaded
  split at loaded
  · rename_i thread alive
    simp only [pure, Except.pure, Except.ok.injEq] at loaded
    exact ⟨thread, alive, loaded.symm⟩
  · cases loaded

end LoadSegment

theorem length_segmentSpinfos (file ofs upage readBytes : Nat) (writable : Bool) (pages : Nat) :
    (segmentSpinfos file ofs upage readBytes writable pages).length = pages := by
  induction pages generalizing ofs upage readBytes with
  | zero => rfl
  | succ pages inductionHypothesis => simp [segmentSpinfos, inductionHypothesis]

theorem map_upageAddress_segmentSpinfos (file ofs upage readBytes : Nat) (writable : Bool)
    (pages : Nat) :
    (segmentSpinfos file ofs upage readBytes writable pages).map Spinfo.upageAddress =
      (List.range pages).map fun index => upage + index * pgsize := by
  induction pages generalizing ofs upage readBytes with
  | zero => rfl
  | succ pages inductionHypothesis =>
      rw [segmentSpinfos, List.map_cons, inductionHypothesis, List.range_succ_eq_map,
        List.map_cons, List.map_map]
      congr 1
      apply List.map_congr_left
      intro index _
      simp only [Function.comp_apply, Nat.succ_mul]
      omega

/-- The `index`-th page of the loop: `PGSIZE` further on in the file and in
memory per page, with what is left of `read_bytes` capped at a page. -/
theorem getElem?_segmentSpinfos (file ofs upage readBytes : Nat) (writable : Bool)
    {pages index : Nat} (inRange : index < pages) :
    (segmentSpinfos file ofs upage readBytes writable pages)[index]? =
      some
        { file := some file, fileOffset := ofs + index * pgsize,
          bytesToRead := min (readBytes - index * pgsize) pgsize, writable,
          upageAddress := upage + index * pgsize, kpageAddress := none, instructions := .file,
          indexIntoSwap := -1 } := by
  induction pages generalizing ofs upage readBytes index with
  | zero => omega
  | succ pages inductionHypothesis =>
      cases index with
      | zero => simp [segmentSpinfos]
      | succ index =>
          rw [segmentSpinfos, List.getElem?_cons_succ,
            inductionHypothesis _ _ _ (by omega)]
          -- what is left after the first page is `read_bytes - PGSIZE`
          have left : readBytes - min readBytes pgsize - index * pgsize =
              readBytes - (index + 1) * pgsize := by
            rw [Nat.add_mul, Nat.one_mul]
            omega
          simp only [left, Option.some.injEq, Spinfo.mk.injEq]
          refine ⟨trivial, ?_, trivial, trivial, ?_, trivial, trivial, trivial⟩ <;>
            rw [Nat.add_mul, Nat.one_mul] <;> omega

/-- The writes of `setup_stack` below `PHYS_BASE` for the arguments `argv`
(each without its terminating null byte), and the final `esp`: the strings in
order, each lower than the one before, word alignment, a null pointer, the
pointers to the strings, `argv`, `argc` and a null return address. -/
def argumentWrites (argv : List (List UInt8)) : List (Nat × List UInt8) × Nat :=
  -- the strings, and the address of each
  let pushed := argv.foldl (fun (acc : List (Nat × List UInt8) × Nat) arg =>
      let myEsp := acc.2 - (arg.length + 1)
      (acc.1 ++ [(myEsp, arg ++ [0])], myEsp)) ([], physBase)
  let argPointers := pushed.1.map Prod.fst
  let myEsp := pushed.2
  let padding := (4 - (physBase - myEsp) % 4) % 4
  let nullSlot := myEsp - padding - 4
  -- `arg_pointers[argc - 1]` first, so `arg_pointers[0]` ends lowest
  let pointerWrites := (argPointers.reverse.zipIdx).map fun (pointer, i) =>
    (nullSlot - 4 * (i + 1), wordBytes pointer)
  let argvArrayPointer := nullSlot - 4 * argv.length
  (pushed.1 ++ [(nullSlot, wordBytes 0)] ++ pointerWrites ++
    [(argvArrayPointer - 4, wordBytes argvArrayPointer),
     (argvArrayPointer - 8, wordBytes argv.length),
     (argvArrayPointer - 12, wordBytes 0)], argvArrayPointer - 12)

/-- A kernel write of one byte through the user mapping of thread `current`, made
while `memory_master_lock` is held: a present writable page takes it (and the
MMU sets its accessed and dirty bits); any other address faults, and the fault
handler's `lock_acquire (&memory_master_lock)` fails its assertion. -/
def writeUserByte (vm : Vm) (current address : Nat) (byte : UInt8) : Except String Vm := do
  let some thread := vm.threads current | throw "thread_current freed"
  if thread.pagedir.permits address true then
    let some kaddr := thread.pagedir.getPage address | throw "unreachable"
    return { vm.setThread current { thread with pagedir := thread.pagedir.touch address true }
      with memory := Memory.write vm.memory kaddr [byte] }
  else throw "assertion !lock_held_by_current_thread (lock) failed"

def writeUserBytes (vm : Vm) (current address : Nat) : List UInt8 → Except String Vm
  | [] => .ok vm
  | byte :: rest => do
      let vm ← vm.writeUserByte current address byte
      vm.writeUserBytes current (address + 1) rest

section Creation

variable (findSpinfoByKpage : List Spinfo → Option Nat → Option Nat)

/-- `setup_stack` for thread `current`: the new state and `*esp`. -/
def setupStack (vm : Vm) (current : Nat) (argv : List (List UInt8)) :
    Except String (Vm × Nat) := do
  let some thread := vm.threads current | throw "thread_current freed"
  let stackPage := physBase - pgsize
  let index := thread.spageTable.length
  let newSpinfo : Spinfo :=
    { file := none, fileOffset := 0, bytesToRead := 0, writable := true,
      upageAddress := stackPage, kpageAddress := none, instructions := .stack,
      indexIntoSwap := -1 }
  let vm := vm.setThread current { thread with spageTable := thread.spageTable ++ [newSpinfo] }
  let (vm, kpage) ← assignPage findSpinfoByKpage vm current
  let vm := vm.updateThread current fun thread =>
    thread.modifySpinfo index fun info => { info with kpageAddress := kpage }
  let vm ← match kpage with
    | none => pure vm
    | some kpage => do
        let some thread := vm.threads current | throw "thread_current freed"
        match ← installPage thread stackPage kpage true with
        | some thread => pure (vm.setThread current thread)
        | none => do
            let vm ← vm.freeFrame (some kpage)
            vm.pallocFreePage (some kpage)
  let (writes, esp) := argumentWrites argv
  let vm ← writes.foldlM (fun vm (address, bytes) => vm.writeUserBytes current address bytes) vm
  return (vm, esp)

theorem alive_of_setupStack {vm : Vm} {current : Nat} {argv : List (List UInt8)}
    {result : Vm × Nat} (set : vm.setupStack findSpinfoByKpage current argv = .ok result) :
    (vm.threads current).isSome = true := by
  unfold setupStack at set
  cases alive : vm.threads current with
  | none =>
      simp only [alive] at set
      cases set
  | some thread => rfl

end Creation

/-- The `free_frame` loop of `process_exit` over the resident spinfos. -/
def freeResidentFrames (vm : Vm) : List Spinfo → Except String Vm
  | [] => .ok vm
  | info :: rest => do
      let vm ← if info.kpageAddress.isSome then vm.freeFrame info.kpageAddress else pure vm
      freeResidentFrames vm rest

/-- `pagedir_destroy` on the user pages: free the page of every present entry,
in address order. -/
def pagedirDestroy (vm : Vm) (pd : Pagedir) : Except String Vm :=
  pd.inAddressOrder.foldlM (fun vm entry =>
    if entry.2.present then vm.pallocFreePage (some entry.2.kpage) else pure vm) vm

/-- The loop of `thread_exit` over the supplemental page table: free the swap
slot of each SWAP spinfo. -/
def freeSwapSlots (vm : Vm) : List Spinfo → Except String Vm
  | [] => .ok vm
  | info :: rest => do
      let vm ← if info.instructions = .swap then do
          let (vm, _) ← vm.freeMetaswapEntry info.indexIntoSwap
          pure vm
        else pure vm
      freeSwapSlots vm rest

/-- `thread_exit` of thread `current`, as far as paging goes: `process_exit`,
the teardown of the supplemental page table, and the end of the thread. -/
def threadExit (vm : Vm) (current : Nat) : Except String Vm := do
  let some thread := vm.threads current | throw "thread_current freed"
  let vm ← vm.freeResidentFrames thread.spageTable
  let vm ← vm.pagedirDestroy thread.pagedir
  let vm ← vm.freeSwapSlots thread.spageTable
  return { vm with threads := Function.update vm.threads current none }

end Vm

end Pintos
