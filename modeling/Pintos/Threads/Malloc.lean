import Mathlib
import Pintos.Threads.Palloc
import Pintos.Transition

/-!
# The block allocator

`threads/malloc.c`.  A request of up to 1 kB is served from an arena of its
descriptor: a kernel page that starts with a header and is cut into blocks of
the descriptor's size, the free ones on the descriptor's free list.  A larger
request gets contiguous kernel pages whose header records their count.  Sizes
and addresses are `size_t`, 32 bits wide.

`arenas a` is the header at page `a`: it is `some` exactly when the page starts
with `ARENA_MAGIC` as `malloc` wrote it and has not been handed back to the
page allocator, whose debug build overwrites freed pages with `0xcc`.  The
descriptor of a header is its position in `descs`.  Block contents are
`memory`.  Every page `malloc` takes comes from the kernel pool, so
`palloc_free_multiple` frees into the kernel pool.
-/

namespace Pintos.Malloc

/-- `sizeof (struct arena)`: `magic`, `desc` and `free_cnt`. -/
def arenaSize : Nat := 12

/-- `struct desc` without its lock; `freeList` is `free_list` from the front. -/
structure Desc where
  blockSize : Nat
  blocksPerArena : Nat
  freeList : List Nat
  deriving DecidableEq, Repr

/-- `struct arena` whose magic is `ARENA_MAGIC`. -/
structure Arena where
  desc : Option Nat
  freeCnt : Nat
  deriving DecidableEq, Repr

structure Heap where
  descs : List Desc
  arenas : Nat → Option Arena
  /-- The kernel pool. -/
  pool : Pool
  memory : Nat → UInt8

/-- The loop of `malloc_init` from `block_size`, with `slots` entries of
`descs[10]` left. -/
def initDescs : Nat → Nat → Except String (List Desc)
  | 0, blockSize =>
      if blockSize < pgsize / 2 then
        .error "assertion desc_cnt <= sizeof descs / sizeof *descs failed"
      else .ok []
  | slots + 1, blockSize =>
      if blockSize < pgsize / 2 then
        let desc : Desc :=
          { blockSize, blocksPerArena := (pgsize - arenaSize) / blockSize, freeList := [] }
        (desc :: ·) <$> initDescs slots (blockSize * 2)
      else .ok []

def mallocInit : Except String (List Desc) := initDescs 10 16

/-- `arena_to_block (a, idx)`, for an arena of blocks of `blockSize` bytes.  Its
assertions hold at every call: the header was just written or checked, and
`idx` runs below `blocks_per_arena`. -/
def arenaToBlock (a blockSize idx : Nat) : Nat := a + arenaSize + idx * blockSize

/-- The blocks of the arena at `a`. -/
def arenaBlocks (a : Nat) (desc : Desc) : List Nat :=
  (List.range desc.blocksPerArena).map (arenaToBlock a desc.blockSize)

namespace Heap

/-- `block_to_arena`: the arena of block `b`, with its checks. -/
def blockToArena (heap : Heap) (b : Nat) : Except String (Nat × Arena) := do
  let a := pgRoundDown b
  if a = 0 then throw "assertion a != NULL failed"
  let some arena := heap.arenas a | throw "assertion a->magic == ARENA_MAGIC failed"
  match arena.desc with
  | some d =>
      let some desc := heap.descs[d]? | throw "a->desc is not a descriptor"
      -- `pg_ofs (b) - sizeof *a` is a `size_t` difference
      if (pgOfs b + 2 ^ 32 - arenaSize) % 2 ^ 32 % desc.blockSize ≠ 0 then
        throw "assertion a->desc == NULL || (pg_ofs (b) - sizeof *a) % a->desc->block_size == 0 failed"
      return (a, arena)
  | none =>
      if pgOfs b ≠ arenaSize then
        throw "assertion a->desc != NULL || pg_ofs (b) == sizeof *a failed"
      return (a, arena)

/-- `palloc_get_multiple (0, page_cnt)` from the kernel pool. -/
def pallocGetMultiple (heap : Heap) (pageCnt : Nat) : Heap × Option Nat :=
  let (pool, pages) := heap.pool.getMultiple pageCnt
  ({ heap with pool }, pages)

/-- `palloc_free_multiple (pages, page_cnt)` into the kernel pool. -/
def pallocFreeMultiple (heap : Heap) (pages pageCnt : Nat) : Except String Heap := do
  if pgOfs pages ≠ 0 then throw "assertion pg_ofs (pages) == 0 failed"
  if pages = 0 ∨ pageCnt = 0 then return heap
  let memory := Memory.fill heap.memory pages (pgsize * pageCnt) 0xcc
  let pool ← heap.pool.freeMultiple pages pageCnt
  return { heap with
    pool, memory
    arenas := fun page =>
      if pages ≤ page ∧ page < pages + pgsize * pageCnt then none else heap.arenas page }

/-- A request too big for every descriptor. -/
def mallocBig (heap : Heap) (size : Nat) : Heap × Option Nat :=
  -- `DIV_ROUND_UP (size + sizeof *a, PGSIZE)`, every sum in `size_t`
  let pageCnt := ((size + arenaSize) % 2 ^ 32 + pgsize - 1) % 2 ^ 32 / pgsize
  match heap.pallocGetMultiple pageCnt with
  | (heap, none) => (heap, none)
  | (heap, some a) =>
      ({ heap with arenas := Function.update heap.arenas a (some { desc := none, freeCnt := pageCnt }) },
        some (a + arenaSize))

/-- A new arena for descriptor `d` at page `a`: its header, and its blocks at the
back of the free list. -/
def addArena (heap : Heap) (d : Nat) (desc : Desc) (a : Nat) : Heap :=
  { heap with
    arenas := Function.update heap.arenas a (some { desc := some d, freeCnt := desc.blocksPerArena })
    descs := heap.descs.set d { desc with freeList := desc.freeList ++ arenaBlocks a desc } }

/-- The end of `malloc` for descriptor `d`: pop the front of the free list and
count the block used in its arena. -/
def takeBlock (heap : Heap) (d : Nat) : Except String (Heap × Option Nat) := do
  let some desc := heap.descs[d]? | throw "d is not a descriptor"
  match desc.freeList with
  | [] => throw "assertion !list_empty (list) failed"
  | b :: rest =>
      let heap := { heap with descs := heap.descs.set d { desc with freeList := rest } }
      let (a, arena) ← heap.blockToArena b
      -- `a->free_cnt--` in `size_t`
      let freeCnt := (arena.freeCnt + 2 ^ 32 - 1) % 2 ^ 32
      return ({ heap with arenas := Function.update heap.arenas a (some { arena with freeCnt }) },
        some b)

/-- `malloc` for descriptor `d`, making a new arena when its free list is empty. -/
def mallocSmall (heap : Heap) (d : Nat) (desc : Desc) : Except String (Heap × Option Nat) :=
  if desc.freeList = [] then
    match heap.pallocGetMultiple 1 with
    | (heap, none) => .ok (heap, none)
    | (heap, some a) => (heap.addArena d desc a).takeBlock d
  else heap.takeBlock d

/-- `malloc (size)`: the state and the block, `none` for a null pointer. -/
def malloc (heap : Heap) (size : Nat) : Except String (Heap × Option Nat) :=
  if size = 0 then .ok (heap, none)
  else
    -- the smallest descriptor whose blocks hold `size` bytes
    match heap.descs.findIdx? fun desc => decide (size ≤ desc.blockSize) with
    | none => .ok (heap.mallocBig size)
    | some d =>
        match heap.descs[d]? with
        | some desc => heap.mallocSmall d desc
        | none => .error "d is not a descriptor"

/-- `calloc (a, b)`. -/
def calloc (heap : Heap) (a b : Nat) : Except String (Heap × Option Nat) := do
  let size := a * b % 2 ^ 32
  if size < a ∨ size < b then return (heap, none)
  let (heap, p) ← heap.malloc size
  match p with
  | some p => return ({ heap with memory := Memory.fill heap.memory p size 0 }, some p)
  | none => return (heap, none)

/-- `block_size`: the bytes allocated for `block`. -/
def blockSize (heap : Heap) (block : Nat) : Except String Nat := do
  let (_, arena) ← heap.blockToArena block
  match arena.desc with
  | some d =>
      let some desc := heap.descs[d]? | throw "a->desc is not a descriptor"
      return desc.blockSize
  | none => return (pgsize * arena.freeCnt + 2 ^ 32 - pgOfs block) % 2 ^ 32

/-- The loop of `free` that takes an arena's blocks off the free list with
`list_remove`.  A block that is not on the list would be unlinked through
stale pointers. -/
def removeBlocks (freeList : List Nat) : List Nat → Except String (List Nat)
  | [] => .ok freeList
  | b :: rest =>
      if b ∈ freeList then removeBlocks (freeList.erase b) rest
      else .error "list_remove of a block that is not on the free list"

/-- `free (p)`. -/
def free (heap : Heap) (p : Nat) : Except String Heap := do
  if p = 0 then return heap
  let (a, arena) ← heap.blockToArena p
  match arena.desc with
  | none => heap.pallocFreeMultiple a arena.freeCnt
  | some d =>
      let some desc := heap.descs[d]? | throw "a->desc is not a descriptor"
      -- the debug build clears the block
      let memory := Memory.fill heap.memory p desc.blockSize 0xcc
      let freeList := p :: desc.freeList
      -- `++a->free_cnt` in `size_t`
      let freeCnt := (arena.freeCnt + 1) % 2 ^ 32
      let heap := { heap with
        memory
        descs := heap.descs.set d { desc with freeList }
        arenas := Function.update heap.arenas a (some { arena with freeCnt }) }
      if desc.blocksPerArena ≤ freeCnt then
        if freeCnt ≠ desc.blocksPerArena then
          throw "assertion a->free_cnt == d->blocks_per_arena failed"
        -- the arena is unused: off the free list and back to the page allocator
        let freeList ← removeBlocks freeList (arenaBlocks a desc)
        { heap with descs := heap.descs.set d { desc with freeList } }.pallocFreeMultiple a 1
      else return heap

/-- `realloc (old_block, new_size)`. -/
def realloc (heap : Heap) (oldBlock newSize : Nat) : Except String (Heap × Option Nat) := do
  if newSize = 0 then
    let heap ← heap.free oldBlock
    return (heap, none)
  let (heap, newBlock) ← heap.malloc newSize
  match newBlock with
  | some newBlock =>
      if oldBlock = 0 then return (heap, some newBlock)
      let oldSize ← heap.blockSize oldBlock
      let heap := { heap with
        memory := Memory.copy heap.memory oldBlock heap.memory newBlock (min newSize oldSize) }
      let heap ← heap.free oldBlock
      return (heap, some newBlock)
  | none => return (heap, none)

/-! ## Requests near `SIZE_MAX` -/

theorem pallocGetMultiple_page {heap next : Heap} {pageCnt a : Nat}
    (got : heap.pallocGetMultiple pageCnt = (next, some a)) :
    ∃ idx, a = heap.pool.base + pgsize * idx := by
  unfold pallocGetMultiple at got
  cases taken : heap.pool.getMultiple pageCnt with
  | mk pool page =>
      rw [taken] at got
      simp only [Prod.mk.injEq] at got
      rw [got.2] at taken
      exact Pool.getMultiple_page taken

/-- The header of a big block, read back by `block_size`. -/
theorem blockSize_big {heap : Heap} {a pageCnt : Nat} (aligned : pgOfs a = 0) (positive : 0 < a)
    (header : heap.arenas a = some { desc := none, freeCnt := pageCnt }) :
    heap.blockSize (a + arenaSize) = .ok ((pgsize * pageCnt + 2 ^ 32 - arenaSize) % 2 ^ 32) := by
  have roundDown : pgRoundDown (a + arenaSize) = a := by
    simp only [pgRoundDown, pgOfs, arenaSize, pgsize] at aligned ⊢
    omega
  have offset : pgOfs (a + arenaSize) = arenaSize := by
    simp only [pgOfs, arenaSize, pgsize] at aligned ⊢
    omega
  simp [blockSize, blockToArena, roundDown, offset, header, Nat.pos_iff_ne_zero.mp positive,
    bind, Except.bind, pure, Except.pure]

/-- A request within 11 bytes of `SIZE_MAX` that `malloc` satisfies gets one
page: `block_size` of the block is 4084 bytes. -/
theorem malloc_huge_gets_one_page {heap next : Heap} {size block : Nat}
    (huge : 2 ^ 32 - 11 ≤ size) (sizeT : size < 2 ^ 32)
    (small : ∀ desc ∈ heap.descs, desc.blockSize < size)
    (aligned : pgOfs heap.pool.base = 0) (positive : 0 < heap.pool.base)
    (allocated : heap.malloc size = .ok (next, some block)) :
    next.blockSize block = .ok (pgsize - arenaSize) := by
  have noDesc : (heap.descs.findIdx? fun desc => decide (size ≤ desc.blockSize)) = none := by
    rw [List.findIdx?_eq_none_iff]
    intro desc member
    simpa using small desc member
  have nonzero : size ≠ 0 := by omega
  simp only [malloc, nonzero, if_false, noDesc, Except.ok.injEq] at allocated
  -- `size + sizeof *a` wraps to at most 11 bytes: one page
  have onePage : ((size + arenaSize) % 2 ^ 32 + pgsize - 1) % 2 ^ 32 / pgsize = 1 := by
    simp only [arenaSize, pgsize]
    omega
  unfold mallocBig at allocated
  rw [onePage] at allocated
  dsimp only at allocated
  cases got : heap.pallocGetMultiple 1 with
  | mk taken page =>
      rw [got] at allocated
      cases page with
      | none => cases allocated
      | some a =>
          simp only [Prod.mk.injEq, Option.some.injEq] at allocated
          obtain ⟨rfl, rfl⟩ := allocated
          obtain ⟨idx, rfl⟩ := pallocGetMultiple_page got
          have pageAligned : pgOfs (heap.pool.base + pgsize * idx) = 0 := by
            simp only [pgOfs, pgsize] at aligned ⊢
            omega
          have usable : (pgsize * 1 + 2 ^ 32 - arenaSize) % 2 ^ 32 = pgsize - arenaSize := by
            decide
          rw [← usable]
          exact blockSize_big pageAligned (by omega) (Function.update_self _ _ _)
end Heap

/-- The descriptors `malloc_init` makes. -/
def bootDescs : List Desc :=
  [16, 32, 64, 128, 256, 512, 1024].map fun blockSize =>
    { blockSize, blocksPerArena := (pgsize - arenaSize) / blockSize, freeList := [] }

example : mallocInit = .ok bootDescs := rfl

/-- The allocator after `malloc_init`, over a kernel pool of four free pages. -/
def bootHeap : Heap :=
  { descs := bootDescs, arenas := fun _ => none
    pool := { usedMap := List.replicate 4 false, base := 0xc0101000 }
    memory := fun _ => 0 }

theorem sizeMax_gets_one_page :
    (2 ^ 32 - 11 ≤ 2 ^ 32 - 1 ∧ 2 ^ 32 - 1 < 2 ^ 32 ∧
        (∀ desc ∈ bootHeap.descs, desc.blockSize < 2 ^ 32 - 1) ∧
        pgOfs bootHeap.pool.base = 0 ∧ 0 < bootHeap.pool.base) ∧
      ∃ next block, bootHeap.malloc (2 ^ 32 - 1) = .ok (next, some block) ∧
        next.blockSize block = .ok (pgsize - arenaSize) := by
  have huge : 2 ^ 32 - 11 ≤ 2 ^ 32 - 1 ∧ 2 ^ 32 - 1 < 2 ^ 32 := by decide
  have small : ∀ desc ∈ bootHeap.descs, desc.blockSize < 2 ^ 32 - 1 := by decide
  have aligned : pgOfs bootHeap.pool.base = 0 := by decide
  have positive : 0 < bootHeap.pool.base := by decide
  obtain ⟨next, block, allocated⟩ :
      ∃ next block, bootHeap.malloc (2 ^ 32 - 1) = .ok (next, some block) := ⟨_, _, rfl⟩
  exact ⟨⟨huge.1, huge.2, small, aligned, positive⟩, next, block, allocated,
    Heap.malloc_huge_gets_one_page huge.1 huge.2 small aligned positive allocated⟩

/-! ## Products past `SIZE_MAX` -/

namespace Heap

/-- `calloc` tests only the wrapped product against its factors: when the product
passes `SIZE_MAX` but wraps to at least both factors, the request goes to
`malloc` with the wrapped size, and fewer bytes than asked are zeroed. -/
theorem calloc_overflow_allocates {heap next : Heap} {a b p : Nat} (overflows : 2 ^ 32 ≤ a * b)
    (passes : a ≤ a * b % 2 ^ 32 ∧ b ≤ a * b % 2 ^ 32)
    (allocated : heap.malloc (a * b % 2 ^ 32) = .ok (next, some p)) :
    heap.calloc a b = .ok ({ next with memory := Memory.fill next.memory p (a * b % 2 ^ 32) 0 }, some p) ∧
      a * b % 2 ^ 32 < a * b := by
  have unchecked : ¬ (a * b % 2 ^ 32 < a ∨ a * b % 2 ^ 32 < b) := by omega
  refine ⟨?_, by omega⟩
  simp only [calloc, unchecked, if_false, allocated, bind, Except.bind, pure, Except.pure]

end Heap

/-- The allocator after `malloc_init` over a kernel pool of 64 free pages. -/
def roomyHeap : Heap := { bootHeap with pool := { usedMap := List.replicate 64 false, base := 0xc0101000 } }

/-- `calloc (65537, 65537)`: the product `65537 * 65537` wraps to `131073`, larger than
both factors, and `calloc` returns a block of 33 pages less its header. -/
theorem calloc_65537_squared :
    2 ^ 32 ≤ 65537 * 65537 ∧ (65537 ≤ 65537 * 65537 % 2 ^ 32 ∧ 65537 ≤ 65537 * 65537 % 2 ^ 32) ∧
      ∃ next, roomyHeap.calloc 65537 65537 = .ok (next, some 0xc010100c) ∧
        next.blockSize 0xc010100c = .ok 135156 := by
  have overflows : 2 ^ 32 ≤ 65537 * 65537 := by decide
  have passes : 65537 ≤ 65537 * 65537 % 2 ^ 32 ∧ 65537 ≤ 65537 * 65537 % 2 ^ 32 := by decide
  have allocated : roomyHeap.malloc (65537 * 65537 % 2 ^ 32) =
      .ok ((roomyHeap.mallocBig 131073).1, some 0xc010100c) := rfl
  exact ⟨overflows, passes, _, (Heap.calloc_overflow_allocates overflows passes allocated).1, rfl⟩
end Pintos.Malloc
