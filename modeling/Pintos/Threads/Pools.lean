import Mathlib
import Pintos.Control
import Pintos.Threads.Bitmap
import Pintos.Transition

/-!
# The two pools of the page allocator

`threads/palloc.c` over packed bitmaps.  `palloc_init` splits the memory above
1 MB into a kernel pool and a user pool; each pool keeps its bitmap in its own
first pages and hands out the pages after them.  `palloc_get_multiple` takes
the pool `PAL_USER` names and the first run of free pages its bitmap shows;
`palloc_free_multiple` finds the pool with `page_from_pool` and clears the
bits.  The debug build fills freed pages with `0xcc`.

The calls are a transition system whose actions are those of a client that
frees only what it was given: `live` records the allocations handed out and
not yet freed.
-/

namespace Pintos.Pools

open Bitmap

/-- The flags of `enum palloc_flags` set in a call. -/
structure Flags where
  assert : Bool
  zero : Bool
  user : Bool
  deriving DecidableEq, Repr

/-- `struct pool` without its lock: `used_map` points at `mapAddress`, where
the bitmap `usedMap` lies. -/
structure PackedPool where
  mapAddress : Nat
  usedMap : Packed
  base : Nat

/-- The pool as `Pool` sees it. -/
def PackedPool.toPool (pool : PackedPool) : Pool := ⟨pool.usedMap.toList, pool.base⟩

/-- `pg_no`. -/
def pgNo (va : Nat) : Nat := va / pgsize

/-- `page_from_pool`. -/
def PackedPool.pageFromPool (pool : PackedPool) (page : Nat) : Bool :=
  let pageNo := pgNo page
  let startPage := pgNo pool.base
  let endPage := startPage + pool.usedMap.bitCnt
  decide (startPage ≤ pageNo) && decide (pageNo < endPage)

structure Palloc where
  kernelPool : PackedPool
  userPool : PackedPool
  memory : Nat → UInt8

namespace Palloc

/-- The pool `PAL_USER` selects. -/
def pool (palloc : Palloc) (user : Bool) : PackedPool :=
  if user then palloc.userPool else palloc.kernelPool

def setPool (palloc : Palloc) (user : Bool) (pool : PackedPool) : Palloc :=
  if user then { palloc with userPool := pool } else { palloc with kernelPool := pool }

/-- `palloc_get_multiple (flags, page_cnt)`: the state and the first page,
`none` for a null pointer. -/
def getMultiple (palloc : Palloc) (flags : Flags) (pageCnt : Nat) :
    Except String (Palloc × Option Nat) := do
  let pool := palloc.pool flags.user
  if pageCnt = 0 then return (palloc, none)
  let (usedMap, pageIdx) ← pool.usedMap.scanAndFlip 0 pageCnt false
  let palloc := palloc.setPool flags.user { pool with usedMap }
  match pageIdx with
  | some pageIdx =>
      let pages := pool.base + pgsize * pageIdx
      let memory :=
        if flags.zero then Memory.fill palloc.memory pages (pgsize * pageCnt) 0 else palloc.memory
      return ({ palloc with memory }, some pages)
  | none =>
      if flags.assert then throw "palloc_get: out of pages"
      return (palloc, none)

/-- The pool `palloc_free_multiple` frees into: `true` for the user pool. -/
def poolOf (palloc : Palloc) (pages : Nat) : Except String Bool :=
  if palloc.kernelPool.pageFromPool pages then .ok false
  else if palloc.userPool.pageFromPool pages then .ok true
  else .error "executed an unreachable statement"

/-- `palloc_free_multiple (pages, page_cnt)`. -/
def freeMultiple (palloc : Palloc) (pages pageCnt : Nat) : Except String Palloc := do
  if pgOfs pages ≠ 0 then throw "assertion pg_ofs (pages) == 0 failed"
  if pages = 0 ∨ pageCnt = 0 then return palloc
  let user ← palloc.poolOf pages
  let pool := palloc.pool user
  let pageIdx := pgNo pages - pgNo pool.base
  let memory := Memory.fill palloc.memory pages (pgsize * pageCnt) 0xcc
  -- `ASSERT (bitmap_all (pool->used_map, page_idx, page_cnt))`
  if ← pool.usedMap.contains pageIdx pageCnt false then
    throw "assertion bitmap_all (pool->used_map, page_idx, page_cnt) failed"
  let usedMap ← pool.usedMap.setMultiple pageIdx pageCnt false
  return { palloc.setPool user { pool with usedMap } with memory }

end Palloc

/-- `init_pool (p, base, page_cnt, name)`: the bitmap at `base`, in a buffer
whose words are `buffer`, and the pages after it. -/
def initPool (base pageCnt : Nat) (name : String) (buffer : Nat → BitVec 32) :
    Except String PackedPool := do
  let bmPages := (bufSize pageCnt + pgsize - 1) / pgsize
  if bmPages > pageCnt then throw ("Not enough memory in " ++ name ++ " for bitmap.")
  let pageCnt := pageCnt - bmPages
  let usedMap ← Packed.createInBuf pageCnt buffer (bmPages * pgsize)
  return { mapAddress := base, usedMap, base := base + bmPages * pgsize }

/-- `ptov`. -/
def ptov (paddr : Nat) : Except String Nat :=
  if paddr < physBase then .ok ((paddr + physBase) % 2 ^ 32)
  else .error "assertion (void *) paddr < PHYS_BASE failed"

/-- `palloc_init (user_page_limit)` with `init_ram_pages` pages of RAM, which
`start.S` makes at least 1 MB; the buffers are what the bitmaps' pages held. -/
def pallocInit (ramPages userPageLimit : Nat) (kernelBuffer userBuffer : Nat → BitVec 32)
    (memory : Nat → UInt8) : Except String Palloc := do
  let freeStart ← ptov (1024 * 1024)
  let freeEnd ← ptov (ramPages * pgsize)
  let freePages := (freeEnd - freeStart) / pgsize
  let userPages := min (freePages / 2) userPageLimit
  let kernelPages := freePages - userPages
  let kernelPool ← initPool freeStart kernelPages "kernel pool" kernelBuffer
  let userPool ← initPool (freeStart + kernelPages * pgsize) userPages "user pool" userBuffer
  return { kernelPool, userPool, memory }

/-! ## What one call does -/

namespace Palloc

@[simp]
theorem pool_setPool_self (palloc : Palloc) (user : Bool) (pool : PackedPool) :
    (palloc.setPool user pool).pool user = pool := by
  cases user <;> rfl

@[simp]
theorem pool_setPool_not (palloc : Palloc) (user : Bool) (pool : PackedPool) :
    (palloc.setPool user pool).pool (!user) = palloc.pool (!user) := by
  cases user <;> rfl

@[simp]
theorem pool_withMemory (palloc : Palloc) (memory : Nat → UInt8) (user : Bool) :
    ({ palloc with memory } : Palloc).pool user = palloc.pool user := by
  cases user <;> rfl

/-- What `palloc_get_multiple` does when it returns pages: it takes the first
run of `page_cnt` free pages of the pool `PAL_USER` selects, and marks it used. -/
theorem getMultiple_eq_some {palloc next : Palloc} {flags : Flags} {pageCnt pages : Nat}
    (got : palloc.getMultiple flags pageCnt = .ok (next, some pages)) :
    ∃ idx, pages = (palloc.pool flags.user).base + pgsize * idx ∧ 0 < pageCnt ∧
      Run (palloc.pool flags.user).usedMap.toList idx pageCnt false ∧
      (∀ earlier < idx, ¬ Run (palloc.pool flags.user).usedMap.toList earlier pageCnt false) ∧
      (∃ usedMap : Packed, usedMap.bitCnt = (palloc.pool flags.user).usedMap.bitCnt ∧
        usedMap.toList = Bitmap.setMultiple (palloc.pool flags.user).usedMap.toList idx pageCnt true ∧
        next.pool flags.user = { palloc.pool flags.user with usedMap }) ∧
      next.pool (!flags.user) = palloc.pool (!flags.user) := by
  unfold getMultiple at got
  simp only [bind, Except.bind, pure, Except.pure] at got
  split at got
  · cases got
  rename_i nonzero
  obtain ⟨flipped, flippedEq, sameCnt, flippedList⟩ :=
    Packed.scanAndFlip_eq (palloc.pool flags.user).usedMap false (Nat.zero_le _)
  rw [flippedEq] at got
  cases found : Bitmap.scan (palloc.pool flags.user).usedMap.toList 0 pageCnt false with
  | none =>
      simp only [Bitmap.scanAndFlip, found] at got
      split at got <;> cases got
  | some idx =>
      simp only [Bitmap.scanAndFlip, found, Except.ok.injEq, Prod.mk.injEq,
        Option.some.injEq] at got flippedList
      obtain ⟨rfl, rfl⟩ := got
      obtain ⟨-, run, first⟩ := Bitmap.scan_eq_some found
      refine ⟨idx, rfl, Nat.pos_of_ne_zero nonzero, run, fun earlier below => first earlier
        (Nat.zero_le _) below, ⟨flipped, sameCnt, flippedList, ?_⟩, ?_⟩
      · simp
      · simp

/-- `palloc_get_multiple` returns a null pointer only for no pages, or when the
pool has no run of `page_cnt` free pages; the pools are then as they were. -/
theorem getMultiple_eq_none {palloc next : Palloc} {flags : Flags} {pageCnt : Nat}
    (got : palloc.getMultiple flags pageCnt = .ok (next, none)) :
    (pageCnt = 0 ∨ ∀ idx, ¬ Run (palloc.pool flags.user).usedMap.toList idx pageCnt false) ∧
      ∀ user, next.pool user = palloc.pool user := by
  unfold getMultiple at got
  simp only [bind, Except.bind, pure, Except.pure] at got
  split at got
  · rename_i zero
    cases got
    exact ⟨.inl zero, fun _ => rfl⟩
  cases found : Bitmap.scan (palloc.pool flags.user).usedMap.toList 0 pageCnt false with
  | some idx =>
      obtain ⟨flipped, flippedEq, -, -⟩ :=
        Packed.scanAndFlip_eq (palloc.pool flags.user).usedMap false (Nat.zero_le _)
      rw [flippedEq] at got
      simp only [Bitmap.scanAndFlip, found] at got
      cases got
  | none =>
      rw [Packed.scanAndFlip_of_scan_none _ (Nat.zero_le _) found] at got
      dsimp only at got
      split at got
      · cases got
      · cases got
        refine ⟨.inr fun idx => Bitmap.scan_eq_none found idx (Nat.zero_le _), fun user => ?_⟩
        cases user <;> cases flags.user <;> rfl

/-- What `palloc_free_multiple` does when it returns: it finds the pool of
`pages` and clears their bits. -/
theorem freeMultiple_eq_ok {palloc next : Palloc} {pages pageCnt : Nat}
    (freed : palloc.freeMultiple pages pageCnt = .ok next) (nonzero : pages ≠ 0)
    (positive : 0 < pageCnt) :
    ∃ user, palloc.poolOf pages = .ok user ∧
      (∃ usedMap : Packed, usedMap.bitCnt = (palloc.pool user).usedMap.bitCnt ∧
        usedMap.toList = Bitmap.setMultiple (palloc.pool user).usedMap.toList
          (pgNo pages - pgNo (palloc.pool user).base) pageCnt false ∧
        next.pool user = { palloc.pool user with usedMap }) ∧
      next.pool (!user) = palloc.pool (!user) := by
  unfold freeMultiple at freed
  simp only [bind, Except.bind, pure, Except.pure, throw, throwThe, MonadExceptOf.throw] at freed
  split at freed
  · cases freed
  have notEarly : ¬ (pages = 0 ∨ pageCnt = 0) := by omega
  rw [if_neg notEarly] at freed
  split at freed
  · cases freed
  rename_i user pooled
  split at freed
  · cases freed
  rename_i used checked
  split at freed
  · cases freed
  split at freed
  · cases freed
  rename_i usedMap set
  cases freed
  obtain ⟨-, sameCnt, setList⟩ := Packed.setMultiple_eq_ok set
  exact ⟨user, pooled, ⟨usedMap, sameCnt, setList, by simp⟩, by simp⟩
end Palloc

/-! ## The allocator and its clients -/

/-- A call of the page allocator. -/
inductive Call where
  | getMultiple (flags : Flags) (pageCnt : Nat)
  | freeMultiple (pages pageCnt : Nat)

/-- Pages handed out: `pageCnt` pages from `pages`, from the user pool when
`user` is set. -/
structure Block where
  user : Bool
  pages : Nat
  pageCnt : Nat
  deriving DecidableEq, Repr

structure System where
  palloc : Palloc
  live : List Block

/-- One call.  A client frees only a range it was given and has not freed. -/
def step (sys : System) : Call → Except String System
  | .getMultiple flags pageCnt => do
      let (palloc, pages) ← sys.palloc.getMultiple flags pageCnt
      match pages with
      | some pages => return { palloc, live := { user := flags.user, pages, pageCnt } :: sys.live }
      | none => return { sys with palloc }
  | .freeMultiple pages pageCnt =>
      match sys.live.find? fun block => block.pages == pages && block.pageCnt == pageCnt with
      | some block => do
          let palloc ← sys.palloc.freeMultiple pages pageCnt
          return { palloc, live := sys.live.erase block }
      | none => .error "palloc_free_multiple of pages that are not allocated"

/-- The states `palloc_init` leaves, with the 1 MB to 64 MB of RAM `start.S`
allows. -/
def Initial (sys : System) : Prop :=
  sys.live = [] ∧
    ∃ ramPages userPageLimit kernelBuffer userBuffer memory,
      256 ≤ ramPages ∧ ramPages ≤ 0x4000 ∧
        pallocInit ramPages userPageLimit kernelBuffer userBuffer memory = .ok sys.palloc

def Reachable : System → Prop := Transition.Reachable Initial step

/-! ## The pages the bitmaps track -/

/-- The page index of `pages` in `pool`, as `palloc_free_multiple` computes it. -/
def PackedPool.pageIdx (pool : PackedPool) (pages : Nat) : Nat := pgNo pages - pgNo pool.base

/-- Page `i` of `pool` is one of the pages of `block`. -/
def Block.Covers (pool : PackedPool) (block : Block) (i : Nat) : Prop :=
  pool.pageIdx block.pages ≤ i ∧ i < pool.pageIdx block.pages + block.pageCnt

instance (pool : PackedPool) (block : Block) (i : Nat) : Decidable (block.Covers pool i) :=
  inferInstanceAs (Decidable (_ ∧ _))

/-- The addresses of the pages of `block`. -/
def Block.Holds (block : Block) (page : Nat) : Prop :=
  block.pages ≤ page ∧ page < block.pages + pgsize * block.pageCnt

instance (block : Block) (page : Nat) : Decidable (block.Holds page) :=
  inferInstanceAs (Decidable (_ ∧ _))

/-- Two blocks share no address. -/
def Block.Disjoint (b c : Block) : Prop :=
  b.pages + pgsize * b.pageCnt ≤ c.pages ∨ c.pages + pgsize * c.pageCnt ≤ b.pages

/-- Two blocks share no page of `pool`. -/
def Apart (pool : PackedPool) (b c : Block) : Prop :=
  pool.pageIdx b.pages + b.pageCnt ≤ pool.pageIdx c.pages ∨
    pool.pageIdx c.pages + c.pageCnt ≤ pool.pageIdx b.pages

/-- The bitmap of `pool` records exactly the pages of `blocks`, which lie in the
pool, apart from each other. -/
structure Tracks (pool : PackedPool) (blocks : List Block) : Prop where
  aligned : ∀ b ∈ blocks, b.pages = pool.base + pgsize * pool.pageIdx b.pages
  inside : ∀ b ∈ blocks, 0 < b.pageCnt ∧ pool.pageIdx b.pages + b.pageCnt ≤ pool.usedMap.bitCnt
  used : ∀ i < pool.usedMap.bitCnt,
    pool.usedMap.toList[i]? = some (decide (∃ b ∈ blocks, b.Covers pool i))
  apart : blocks.Pairwise (Apart pool)

@[simp]
theorem pageIdx_withUsedMap (pool : PackedPool) (usedMap : Packed) (pages : Nat) :
    ({ pool with usedMap } : PackedPool).pageIdx pages = pool.pageIdx pages := rfl

@[simp]
theorem covers_withUsedMap (pool : PackedPool) (usedMap : Packed) (block : Block) (i : Nat) :
    block.Covers { pool with usedMap } i ↔ block.Covers pool i := Iff.rfl

@[simp]
theorem apart_withUsedMap (pool : PackedPool) (usedMap : Packed) (b c : Block) :
    Apart { pool with usedMap } b c ↔ Apart pool b c := Iff.rfl

theorem pageIdx_base_add {pool : PackedPool} (aligned : pgOfs pool.base = 0) (idx : Nat) :
    pool.pageIdx (pool.base + pgsize * idx) = idx := by
  simp only [PackedPool.pageIdx, pgNo, pgOfs, pgsize] at aligned ⊢
  omega

theorem Apart.ne {pool : PackedPool} {b c : Block} (apart : Apart pool b c) (positive : 0 < b.pageCnt) :
    b ≠ c := by
  rintro rfl
  unfold Apart at apart
  omega

/-- A block that covers none of the pages of another, each of at least one
page, is apart from it. -/
theorem apart_of_not_covers {pool : PackedPool} {b c : Block} (positive : 0 < c.pageCnt)
    (uncovered : ∀ i, b.Covers pool i → ¬ c.Covers pool i) (nonempty : 0 < b.pageCnt) :
    Apart pool b c := by
  unfold Apart
  by_contra overlap
  by_cases first : pool.pageIdx b.pages ≤ pool.pageIdx c.pages
  · exact uncovered (pool.pageIdx c.pages) ⟨first, by omega⟩ ⟨le_refl _, by omega⟩
  · exact uncovered (pool.pageIdx b.pages) ⟨le_refl _, by omega⟩ ⟨by omega, by omega⟩

theorem Apart.symm {pool : PackedPool} {b c : Block} (apart : Apart pool b c) : Apart pool c b :=
  Or.symm apart

instance (pool : PackedPool) : Std.Symm (Apart pool) := ⟨fun _ _ apart => apart.symm⟩

namespace Tracks

variable {pool : PackedPool} {blocks : List Block}

theorem nodup (tracks : Tracks pool blocks) : blocks.Nodup :=
  List.nodup_iff_pairwise_ne.mpr <| tracks.apart.imp_of_mem fun member _ apart =>
    apart.ne (tracks.inside _ member).1

theorem add (tracks : Tracks pool blocks) (aligned : pgOfs pool.base = 0) {idx cnt : Nat}
    (user : Bool) (positive : 0 < cnt) (run : Run pool.usedMap.toList idx cnt false)
    {usedMap : Packed} (sameCnt : usedMap.bitCnt = pool.usedMap.bitCnt)
    (marked : usedMap.toList = Bitmap.setMultiple pool.usedMap.toList idx cnt true) :
    Tracks { pool with usedMap }
      ({ user, pages := pool.base + pgsize * idx, pageCnt := cnt } :: blocks) := by
  have newIdx := pageIdx_base_add aligned idx
  have fits : idx + cnt ≤ pool.usedMap.bitCnt := by simpa using run.1
  -- no tracked block covers a page of the run
  have free : ∀ i, idx ≤ i → i < idx + cnt → ¬ ∃ b ∈ blocks, b.Covers pool i := by
    intro i low high covered
    have bit := tracks.used i (by omega)
    have isFree := run.2 (i - idx) (by omega)
    rw [Nat.add_sub_cancel' low, bit, Option.some.injEq, decide_eq_false_iff_not] at isFree
    exact isFree covered
  refine ⟨?_, ?_, ?_, ?_⟩
  · intro b member
    rcases List.mem_cons.mp member with rfl | old
    · exact congrArg _ (congrArg _ newIdx.symm)
    · exact tracks.aligned b old
  · intro b member
    rcases List.mem_cons.mp member with rfl | old
    · exact ⟨positive, by simpa [newIdx, sameCnt] using fits⟩
    · simpa [sameCnt] using tracks.inside b old
  · intro i below
    rw [sameCnt] at below
    rw [marked, Bitmap.getElem?_setMultiple, tracks.used i below]
    simp only [Option.map_some, Option.some.injEq, List.mem_cons, exists_eq_or_imp]
    by_cases inRun : idx ≤ i ∧ i < idx + cnt
    · simp [inRun, Block.Covers, newIdx]
    · have notNew : ¬ Block.Covers pool { user, pages := pool.base + pgsize * idx, pageCnt := cnt } i := by
        simpa [Block.Covers, newIdx] using inRun
      simp [inRun, notNew]
  · refine List.pairwise_cons.mpr ⟨fun b member => ?_, tracks.apart⟩
    show Apart pool _ b
    refine apart_of_not_covers (tracks.inside b member).1 ?_ positive
    intro i covers coversOld
    simp only [Block.Covers, newIdx] at covers
    exact free i covers.1 covers.2 ⟨b, member, coversOld⟩

theorem remove (tracks : Tracks pool blocks) {b : Block} (member : b ∈ blocks)
    {usedMap : Packed} (sameCnt : usedMap.bitCnt = pool.usedMap.bitCnt)
    (cleared : usedMap.toList =
      Bitmap.setMultiple pool.usedMap.toList (pool.pageIdx b.pages) b.pageCnt false) :
    Tracks { pool with usedMap } (blocks.erase b) := by
  have others : ∀ c ∈ blocks.erase b, c ≠ b ∧ c ∈ blocks := fun c =>
    tracks.nodup.mem_erase_iff.mp
  refine ⟨fun c kept => tracks.aligned c (others c kept).2, fun c kept => ?_, ?_,
    tracks.apart.sublist List.erase_sublist⟩
  · simpa [sameCnt] using tracks.inside c (others c kept).2
  intro i below
  rw [sameCnt] at below
  rw [cleared, Bitmap.getElem?_setMultiple, tracks.used i below]
  simp only [Option.map_some, Option.some.injEq, covers_withUsedMap]
  by_cases inBlock : pool.pageIdx b.pages ≤ i ∧ i < pool.pageIdx b.pages + b.pageCnt
  · -- the page was `b`'s and no other block's
    have alone : ¬ ∃ c ∈ blocks.erase b, c.Covers pool i := by
      rintro ⟨c, kept, covers⟩
      have apart : Apart pool b c :=
        tracks.apart.forall member (others c kept).2 (others c kept).1.symm
      unfold Apart at apart
      unfold Block.Covers at covers
      omega
    rw [if_pos inBlock]
    exact (decide_eq_false alone).symm
  · have same : (∃ c ∈ blocks, c.Covers pool i) ↔ ∃ c ∈ blocks.erase b, c.Covers pool i := by
      constructor
      · rintro ⟨c, kept, covers⟩
        have ne : c ≠ b := by
          rintro rfl
          exact inBlock covers
        exact ⟨c, tracks.nodup.mem_erase_iff.mpr ⟨ne, kept⟩, covers⟩
      · rintro ⟨c, kept, covers⟩
        exact ⟨c, (others c kept).2, covers⟩
    rw [if_neg inBlock]
    exact decide_eq_decide.mpr same

theorem range (tracks : Tracks pool blocks) {b : Block} (member : b ∈ blocks) :
    pool.base ≤ b.pages ∧ b.pages + pgsize * b.pageCnt ≤ pool.base + pgsize * pool.usedMap.bitCnt := by
  have aligned := tracks.aligned b member
  have inside := (tracks.inside b member).2
  constructor
  · omega
  · rw [aligned, Nat.add_assoc, ← Nat.mul_add]
    exact Nat.add_le_add_left (Nat.mul_le_mul_left _ inside) _

theorem nil (clear : pool.usedMap.toList = List.replicate pool.usedMap.bitCnt false) :
    Tracks pool [] where
  aligned := by simp
  inside := by simp
  used i below := by simp [clear, below]
  apart := List.Pairwise.nil

theorem disjoint (tracks : Tracks pool blocks) {b c : Block} (bMember : b ∈ blocks)
    (cMember : c ∈ blocks) (apart : Apart pool b c) : b.Disjoint c := by
  have bAligned := tracks.aligned b bMember
  have cAligned := tracks.aligned c cMember
  unfold Apart at apart
  unfold Block.Disjoint
  unfold pgsize at bAligned cAligned ⊢
  omega

end Tracks

/-- `page_from_pool` holds exactly for the addresses of the pool's pages. -/
theorem PackedPool.pageFromPool_iff {pool : PackedPool} (aligned : pgOfs pool.base = 0) (page : Nat) :
    pool.pageFromPool page = true ↔
      pool.base ≤ page ∧ page < pool.base + pgsize * pool.usedMap.bitCnt := by
  simp only [PackedPool.pageFromPool, Bool.and_eq_true, decide_eq_true_eq]
  simp only [pgNo, pgOfs, pgsize] at aligned ⊢
  omega

/-- How `palloc_init` lays the pools out: each pool's pages start at a page
boundary after its bitmap, and the kernel pool's pages end before the user
pool's bitmap. -/
structure Layout (palloc : Palloc) : Prop where
  aligned : ∀ user, pgOfs (palloc.pool user).base = 0
  mapBefore : ∀ user,
    (palloc.pool user).mapAddress + bufSize (palloc.pool user).usedMap.bitCnt ≤ (palloc.pool user).base
  ordered : (palloc.pool false).base + pgsize * (palloc.pool false).usedMap.bitCnt ≤
    (palloc.pool true).mapAddress

/-- Two states whose pools differ at most in the bits of their bitmaps. -/
def Palloc.SameShape (palloc next : Palloc) : Prop :=
  ∀ user, (next.pool user).mapAddress = (palloc.pool user).mapAddress ∧
    (next.pool user).base = (palloc.pool user).base ∧
    (next.pool user).usedMap.bitCnt = (palloc.pool user).usedMap.bitCnt

namespace Layout

variable {palloc : Palloc}

theorem of_sameShape (layout : Layout palloc) {next : Palloc} (same : palloc.SameShape next) :
    Layout next where
  aligned user := by rw [(same user).2.1]; exact layout.aligned user
  mapBefore user := by
    rw [(same user).1, (same user).2.1, (same user).2.2]
    exact layout.mapBefore user
  ordered := by
    rw [(same false).2.1, (same false).2.2, (same true).1]
    exact layout.ordered

theorem pageFromPool_other (layout : Layout palloc) {user : Bool} {page : Nat}
    (inPool : (palloc.pool user).pageFromPool page = true) :
    (palloc.pool (!user)).pageFromPool page = false := by
  rw [PackedPool.pageFromPool_iff (layout.aligned user)] at inPool
  rw [Bool.eq_false_iff, ne_eq, PackedPool.pageFromPool_iff (layout.aligned _)]
  have ordered := layout.ordered
  have userMap := layout.mapBefore true
  unfold bufSize at userMap
  cases user <;> simp only [Bool.not_false, Bool.not_true] <;> omega

/-- `palloc_free_multiple` finds the pool a page belongs to. -/
theorem poolOf_eq (layout : Layout palloc) {user : Bool} {page : Nat}
    (inPool : (palloc.pool user).pageFromPool page = true) :
    palloc.poolOf page = .ok user := by
  have other := layout.pageFromPool_other inPool
  cases user
  · change palloc.kernelPool.pageFromPool page = true at inPool
    simp [Palloc.poolOf, inPool]
  · change palloc.userPool.pageFromPool page = true at inPool
    change palloc.kernelPool.pageFromPool page = false at other
    simp [Palloc.poolOf, inPool, other]

end Layout

namespace Palloc

theorem sameShape_of_update {palloc next : Palloc} {user : Bool} {usedMap : Packed}
    (sameCnt : usedMap.bitCnt = (palloc.pool user).usedMap.bitCnt)
    (updated : next.pool user = { palloc.pool user with usedMap })
    (other : next.pool (!user) = palloc.pool (!user)) : palloc.SameShape next := by
  intro pick
  by_cases chosen : pick = user
  · subst chosen
    rw [updated]
    exact ⟨rfl, rfl, sameCnt⟩
  · rw [Bool.eq_not_of_ne chosen, other]
    exact ⟨rfl, rfl, rfl⟩

theorem sameShape_getMultiple {palloc next : Palloc} {flags : Flags} {pageCnt : Nat}
    {pages : Option Nat} (got : palloc.getMultiple flags pageCnt = .ok (next, pages)) :
    palloc.SameShape next := by
  cases pages with
  | none =>
      intro user
      rw [(getMultiple_eq_none got).2 user]
      exact ⟨rfl, rfl, rfl⟩
  | some pages =>
      obtain ⟨-, -, -, -, -, ⟨usedMap, sameCnt, -, updated⟩, other⟩ := getMultiple_eq_some got
      exact sameShape_of_update sameCnt updated other

theorem sameShape_freeMultiple {palloc next : Palloc} {pages pageCnt : Nat}
    (freed : palloc.freeMultiple pages pageCnt = .ok next) (nonzero : pages ≠ 0)
    (positive : 0 < pageCnt) : palloc.SameShape next := by
  obtain ⟨user, -, ⟨usedMap, sameCnt, -, updated⟩, other⟩ := freeMultiple_eq_ok freed nonzero positive
  exact sameShape_of_update sameCnt updated other

end Palloc

theorem step_getMultiple_eq_ok {sys next : System} {flags : Flags} {pageCnt : Nat}
    (stepped : step sys (.getMultiple flags pageCnt) = .ok next) :
    (sys.palloc.getMultiple flags pageCnt = .ok (next.palloc, none) ∧ next.live = sys.live) ∨
      ∃ pages, sys.palloc.getMultiple flags pageCnt = .ok (next.palloc, some pages) ∧
        next.live = { user := flags.user, pages, pageCnt } :: sys.live := by
  simp only [step, bind, Except.bind, pure, Except.pure] at stepped
  split at stepped
  · cases stepped
  rename_i result got
  obtain ⟨palloc, pages⟩ := result
  cases pages with
  | none =>
      cases stepped
      exact .inl ⟨got, rfl⟩
  | some pages =>
      cases stepped
      exact .inr ⟨pages, got, rfl⟩

theorem step_freeMultiple_eq_ok {sys next : System} {pages pageCnt : Nat}
    (stepped : step sys (.freeMultiple pages pageCnt) = .ok next) :
    ∃ block ∈ sys.live, block.pages = pages ∧ block.pageCnt = pageCnt ∧
      sys.palloc.freeMultiple pages pageCnt = .ok next.palloc ∧ next.live = sys.live.erase block := by
  simp only [step, bind, Except.bind, pure, Except.pure] at stepped
  split at stepped
  · rename_i block found
    split at stepped
    · cases stepped
    rename_i palloc freed
    cases stepped
    have matching := List.find?_some found
    simp only [Bool.and_eq_true, beq_iff_eq] at matching
    exact ⟨block, List.mem_of_find?_eq_some found, matching.1, matching.2, freed, rfl⟩
  · cases stepped

/-! ## The pools `palloc_init` makes -/

theorem ptov_eq_ok {paddr va : Nat} (mapped : ptov paddr = .ok va) (low : paddr < 0x40000000) :
    va = paddr + physBase := by
  unfold ptov at mapped
  split at mapped
  · have fits : paddr + physBase < 2 ^ 32 := by
      unfold physBase
      omega
    rw [Nat.mod_eq_of_lt fits] at mapped
    exact (Except.ok.inj mapped).symm
  · cases mapped

/-- What `init_pool` makes: a bitmap in the first `bmPages` pages, all clear,
for the pages after them. -/
theorem initPool_eq_ok {base pageCnt : Nat} {name : String} {buffer : Nat → BitVec 32}
    {pool : PackedPool} (made : initPool base pageCnt name buffer = .ok pool) :
    ∃ bmPages, bmPages ≤ pageCnt ∧ bufSize (pageCnt - bmPages) ≤ bmPages * pgsize ∧
      pool.mapAddress = base ∧ pool.base = base + bmPages * pgsize ∧
      pool.usedMap.bitCnt = pageCnt - bmPages ∧
      pool.usedMap.toList = List.replicate (pageCnt - bmPages) false := by
  unfold initPool at made
  simp only [bind, Except.bind, pure, Except.pure, throw, throwThe, MonadExceptOf.throw] at made
  split at made
  · cases made
  rename_i fits
  split at made
  · cases made
  rename_i usedMap created
  cases made
  obtain ⟨sameCnt, cleared⟩ := Packed.createInBuf_toList created
  exact ⟨_, Nat.le_of_not_gt fits, Packed.createInBuf_fits created, rfl, rfl, sameCnt, cleared⟩

/-- `palloc_init` lays the pools out as `Layout` says, with no page used. -/
theorem pallocInit_eq_ok {ramPages userPageLimit : Nat} {kernelBuffer userBuffer : Nat → BitVec 32}
    {memory : Nat → UInt8} {palloc : Palloc}
    (made : pallocInit ramPages userPageLimit kernelBuffer userBuffer memory = .ok palloc) :
    Layout palloc ∧
      ∀ user, (palloc.pool user).usedMap.toList =
        List.replicate (palloc.pool user).usedMap.bitCnt false := by
  unfold pallocInit at made
  obtain ⟨freeStart, started, made⟩ := Control.bind_eq_ok made
  obtain ⟨freeEnd, -, made⟩ := Control.bind_eq_ok made
  dsimp only at made
  obtain ⟨kernelPool, kernelMade, made⟩ := Control.bind_eq_ok made
  obtain ⟨userPool, userMade, made⟩ := Control.bind_eq_ok made
  cases made
  have freeStartEq := ptov_eq_ok started (by decide)
  obtain ⟨kernelBm, kernelFits, kernelBuf, kernelMap, kernelBase, kernelCnt, kernelClear⟩ :=
    initPool_eq_ok kernelMade
  obtain ⟨userBm, -, userBuf, userMap, userBase, userCnt, userClear⟩ := initPool_eq_ok userMade
  refine ⟨⟨fun user => ?_, fun user => ?_, ?_⟩, fun user => ?_⟩
  · cases user
    · show pgOfs kernelPool.base = 0
      simp only [kernelBase, freeStartEq, pgOfs, pgsize, physBase]
      omega
    · show pgOfs userPool.base = 0
      simp only [userBase, freeStartEq, pgOfs, pgsize, physBase]
      omega
  · cases user
    · show kernelPool.mapAddress + bufSize kernelPool.usedMap.bitCnt ≤ kernelPool.base
      rw [kernelMap, kernelCnt, kernelBase]
      omega
    · show userPool.mapAddress + bufSize userPool.usedMap.bitCnt ≤ userPool.base
      rw [userMap, userCnt, userBase]
      omega
  · show kernelPool.base + pgsize * kernelPool.usedMap.bitCnt ≤ userPool.mapAddress
    rw [kernelBase, kernelCnt, userMap, Nat.add_assoc, Nat.mul_comm pgsize, ← Nat.add_mul,
      Nat.add_sub_cancel' kernelFits]
  · cases user
    · show kernelPool.usedMap.toList = List.replicate kernelPool.usedMap.bitCnt false
      rw [kernelClear, kernelCnt]
    · show userPool.usedMap.toList = List.replicate userPool.usedMap.bitCnt false
      rw [userClear, userCnt]

/-! ## The invariant -/

/-- No live block holds `page`. -/
def System.Free (sys : System) (page : Nat) : Prop := ∀ b ∈ sys.live, ¬ b.Holds page

instance (sys : System) (page : Nat) : Decidable (sys.Free page) :=
  inferInstanceAs (Decidable (∀ b ∈ sys.live, _))

/-- The `cnt` pages of the pool `user` selects from its page `idx` exist and
are free. -/
def System.FreeRun (sys : System) (user : Bool) (idx cnt : Nat) : Prop :=
  idx + cnt ≤ (sys.palloc.pool user).usedMap.bitCnt ∧
    ∀ k < cnt, sys.Free ((sys.palloc.pool user).base + pgsize * (idx + k))

instance (sys : System) (user : Bool) (idx cnt : Nat) : Decidable (sys.FreeRun user idx cnt) :=
  inferInstanceAs (Decidable (_ ∧ _))

/-- The pools keep the layout `palloc_init` gave them, and the bitmap of each
tracks the live blocks taken from it. -/
structure Invariant (sys : System) : Prop where
  layout : Layout sys.palloc
  tracks : ∀ user, Tracks (sys.palloc.pool user) (sys.live.filter (·.user == user))

namespace Invariant

variable {sys : System}

theorem of_initial (initial : Initial sys) : Invariant sys := by
  obtain ⟨empty, _, _, _, _, _, -, -, made⟩ := initial
  obtain ⟨layout, clear⟩ := pallocInit_eq_ok made
  refine ⟨layout, fun user => ?_⟩
  rw [empty]
  exact Tracks.nil (clear user)

theorem mem_tracked {b : Block} (member : b ∈ sys.live) :
    b ∈ sys.live.filter (·.user == b.user) :=
  List.mem_filter.mpr ⟨member, beq_self_eq_true _⟩

theorem range (inv : Invariant sys) {b : Block} (member : b ∈ sys.live) :
    (sys.palloc.pool b.user).base ≤ b.pages ∧
      b.pages + pgsize * b.pageCnt ≤
        (sys.palloc.pool b.user).base + pgsize * (sys.palloc.pool b.user).usedMap.bitCnt :=
  (inv.tracks b.user).range (mem_tracked member)

theorem positive (inv : Invariant sys) {b : Block} (member : b ∈ sys.live) : 0 < b.pageCnt :=
  ((inv.tracks b.user).inside b (mem_tracked member)).1

theorem pageFromPool_of_holds (inv : Invariant sys) {b : Block} (member : b ∈ sys.live)
    {page : Nat} (holds : b.Holds page) :
    (sys.palloc.pool b.user).pageFromPool page = true ∧
      (sys.palloc.pool (!b.user)).pageFromPool page = false := by
  have inPool : (sys.palloc.pool b.user).pageFromPool page = true := by
    rw [PackedPool.pageFromPool_iff (inv.layout.aligned b.user)]
    have range := inv.range member
    unfold Block.Holds at holds
    omega
  exact ⟨inPool, inv.layout.pageFromPool_other inPool⟩

theorem get (inv : Invariant sys) {flags : Flags} {pageCnt pages : Nat} {palloc : Palloc}
    (got : sys.palloc.getMultiple flags pageCnt = .ok (palloc, some pages)) :
    Invariant { palloc, live := { user := flags.user, pages, pageCnt } :: sys.live } := by
  refine ⟨inv.layout.of_sameShape (Palloc.sameShape_getMultiple got), fun user => ?_⟩
  obtain ⟨idx, rfl, positive, run, -, ⟨usedMap, sameCnt, marked, updated⟩, other⟩ :=
    Palloc.getMultiple_eq_some got
  dsimp only
  by_cases chosen : user = flags.user
  · subst chosen
    rw [List.filter_cons_of_pos (by simp), updated]
    exact (inv.tracks _).add (inv.layout.aligned _) _ positive run sameCnt marked
  · rw [Bool.eq_not_of_ne chosen, List.filter_cons_of_neg (by simp), other]
    exact inv.tracks _

theorem free (inv : Invariant sys) {b : Block} (member : b ∈ sys.live) {palloc : Palloc}
    (freed : sys.palloc.freeMultiple b.pages b.pageCnt = .ok palloc) :
    Invariant { palloc, live := sys.live.erase b } := by
  have range := inv.range member
  have positive := inv.positive member
  have nonzero : b.pages ≠ 0 := by
    have mapBefore := inv.layout.mapBefore b.user
    unfold bufSize at mapBefore
    omega
  refine ⟨inv.layout.of_sameShape (Palloc.sameShape_freeMultiple freed nonzero positive),
    fun user => ?_⟩
  obtain ⟨found, pooled, ⟨usedMap, sameCnt, cleared, updated⟩, other⟩ :=
    Palloc.freeMultiple_eq_ok freed nonzero positive
  have own := inv.layout.poolOf_eq (inv.pageFromPool_of_holds member
    ⟨le_refl _, Nat.lt_add_of_pos_right (Nat.mul_pos (by decide) positive)⟩).1
  rw [own] at pooled
  cases pooled
  dsimp only
  by_cases chosen : user = b.user
  · subst chosen
    rw [← List.erase_filter, updated]
    exact (inv.tracks _).remove (mem_tracked member) sameCnt cleared
  · have untracked : b ∉ sys.live.filter (·.user == !b.user) := by simp
    rw [Bool.eq_not_of_ne chosen, ← List.erase_filter, List.erase_of_not_mem untracked, other]
    exact inv.tracks _

theorem preserved (inv : Invariant sys) {call : Call} {next : System}
    (stepped : step sys call = .ok next) : Invariant next := by
  cases call with
  | getMultiple flags pageCnt =>
      rcases step_getMultiple_eq_ok stepped with ⟨got, same⟩ | ⟨pages, got, added⟩
      · refine ⟨inv.layout.of_sameShape (Palloc.sameShape_getMultiple got), fun user => ?_⟩
        rw [same, (Palloc.getMultiple_eq_none got).2 user]
        exact inv.tracks user
      · obtain ⟨palloc, live⟩ := next
        dsimp only at got added
        subst added
        exact inv.get got
  | freeMultiple pages pageCnt =>
      obtain ⟨b, member, rfl, rfl, freed, erased⟩ := step_freeMultiple_eq_ok stepped
      obtain ⟨palloc, live⟩ := next
      dsimp only at freed erased
      subst erased
      exact inv.free member freed

theorem holds_iff_covers (inv : Invariant sys) {b : Block} (member : b ∈ sys.live) (i : Nat) :
    b.Holds ((sys.palloc.pool b.user).base + pgsize * i) ↔ b.Covers (sys.palloc.pool b.user) i := by
  have aligned := (inv.tracks b.user).aligned b (mem_tracked member)
  unfold Block.Holds Block.Covers
  unfold pgsize at aligned ⊢
  omega

theorem free_iff (inv : Invariant sys) {user : Bool} {i : Nat}
    (below : i < (sys.palloc.pool user).usedMap.bitCnt) :
    sys.Free ((sys.palloc.pool user).base + pgsize * i) ↔
      ¬ ∃ b ∈ sys.live.filter (·.user == user), b.Covers (sys.palloc.pool user) i := by
  constructor
  · rintro free ⟨b, tracked, covers⟩
    obtain ⟨member, sameUser⟩ := List.mem_filter.mp tracked
    rw [beq_iff_eq] at sameUser
    subst sameUser
    exact free b member ((inv.holds_iff_covers member i).mpr covers)
  · rintro uncovered b member holds
    have sameUser : b.user = user := by
      by_contra differ
      have inPool : (sys.palloc.pool user).pageFromPool
          ((sys.palloc.pool user).base + pgsize * i) = true := by
        rw [PackedPool.pageFromPool_iff (inv.layout.aligned user)]
        unfold pgsize
        omega
      have notOther := (inv.pageFromPool_of_holds member holds).2
      rw [← Bool.eq_not_of_ne (Ne.symm differ), inPool] at notOther
      cases notOther
    subst sameUser
    exact uncovered ⟨b, mem_tracked member, (inv.holds_iff_covers member i).mp holds⟩

theorem run_iff (inv : Invariant sys) (user : Bool) (idx cnt : Nat) :
    Run (sys.palloc.pool user).usedMap.toList idx cnt false ↔ sys.FreeRun user idx cnt := by
  unfold Run System.FreeRun
  rw [Packed.length_toList]
  constructor
  · rintro ⟨fits, bits⟩
    refine ⟨fits, fun k below => (inv.free_iff (by omega)).mpr ?_⟩
    have bit := bits k below
    rw [(inv.tracks user).used _ (by omega), Option.some.injEq, decide_eq_false_iff_not] at bit
    exact bit
  · rintro ⟨fits, free⟩
    refine ⟨fits, fun k below => ?_⟩
    rw [(inv.tracks user).used _ (by omega), Option.some.injEq, decide_eq_false_iff_not]
    exact (inv.free_iff (by omega)).mp (free k below)

theorem kernel_before_user (inv : Invariant sys) {b c : Block} (bLive : b ∈ sys.live)
    (cLive : c ∈ sys.live) (kernel : b.user = false) (user : c.user = true) :
    b.pages + pgsize * b.pageCnt ≤ c.pages := by
  have bRange := inv.range bLive
  have cRange := inv.range cLive
  have ordered := inv.layout.ordered
  have userMap := inv.layout.mapBefore true
  rw [kernel] at bRange
  rw [user] at cRange
  omega

theorem disjoint (inv : Invariant sys) : sys.live.Pairwise Block.Disjoint := by
  refine List.pairwise_of_forall_sublist fun {b c} sub => ?_
  have bLive : b ∈ sys.live := sub.subset (by simp)
  have cLive : c ∈ sys.live := sub.subset (by simp)
  by_cases sameUser : b.user = c.user
  · -- one pool: its bitmap keeps the two apart
    have tracked : List.Sublist [b, c] (sys.live.filter (·.user == b.user)) := by
      have kept := sub.filter (·.user == b.user)
      simpa [List.filter_cons, sameUser] using kept
    have apart := (inv.tracks b.user).apart.forall_sublist tracked
    exact (inv.tracks b.user).disjoint (tracked.subset (by simp)) (tracked.subset (by simp)) apart
  · -- two pools: the kernel pool ends before the user pool begins
    have other : c.user = !b.user := Bool.eq_not_of_ne (Ne.symm sameUser)
    cases bUser : b.user
    · rw [bUser] at other
      exact .inl (inv.kernel_before_user bLive cLive bUser other)
    · rw [bUser] at other
      exact .inr (inv.kernel_before_user cLive bLive other bUser)

/-- A null pointer from `palloc_get_multiple`: no pages asked for, or no run
of free pages. -/
theorem getMultiple_null (inv : Invariant sys) {flags : Flags} {pageCnt : Nat} {next : Palloc}
    (got : sys.palloc.getMultiple flags pageCnt = .ok (next, none)) :
    pageCnt = 0 ∨ ∀ idx, ¬ sys.FreeRun flags.user idx pageCnt := by
  rcases (Palloc.getMultiple_eq_none got).1 with zero | noRun
  · exact .inl zero
  · exact .inr fun idx free => noRun idx ((inv.run_iff _ _ _).mpr free)

/-- Pages from `palloc_get_multiple`: the first run of free pages. -/
theorem getMultiple_firstFit (inv : Invariant sys) {flags : Flags} {pageCnt pages : Nat}
    {next : Palloc} (got : sys.palloc.getMultiple flags pageCnt = .ok (next, some pages)) :
    ∃ idx, pages = (sys.palloc.pool flags.user).base + pgsize * idx ∧
      sys.FreeRun flags.user idx pageCnt ∧ ∀ earlier < idx, ¬ sys.FreeRun flags.user earlier pageCnt := by
  obtain ⟨idx, placed, -, run, first, -⟩ := Palloc.getMultiple_eq_some got
  exact ⟨idx, placed, (inv.run_iff _ _ _).mp run,
    fun earlier below free => first earlier below ((inv.run_iff _ _ _).mpr free)⟩

end Invariant

theorem Reachable.invariant {sys : System} (reachable : Reachable sys) : Invariant sys :=
  Transition.Reachable.invariant (fun _ initial => Invariant.of_initial initial)
    (fun _ _ _ inv stepped => inv.preserved stepped) reachable

/-! ## What the allocator guarantees -/

/-- The allocator's guarantees in a state: the live blocks are disjoint and lie
in their pools after the bitmaps, \`page_from_pool\` finds their pool, and
\`palloc_get_multiple\` returns the first run of free pages, and a null pointer
only for no pages or when there is no such run. -/
structure Safe (sys : System) : Prop where
  disjoint : sys.live.Pairwise Block.Disjoint
  inPool : ∀ b ∈ sys.live, 0 < b.pageCnt ∧
    (sys.palloc.pool b.user).mapAddress + bufSize (sys.palloc.pool b.user).usedMap.bitCnt ≤
      (sys.palloc.pool b.user).base ∧
    (sys.palloc.pool b.user).base ≤ b.pages ∧
    b.pages + pgsize * b.pageCnt ≤
      (sys.palloc.pool b.user).base + pgsize * (sys.palloc.pool b.user).usedMap.bitCnt
  classified : ∀ b ∈ sys.live, ∀ page, b.Holds page →
    (sys.palloc.pool b.user).pageFromPool page = true ∧
      (sys.palloc.pool (!b.user)).pageFromPool page = false
  nullOnlyWhenFull : ∀ flags pageCnt next,
    sys.palloc.getMultiple flags pageCnt = .ok (next, none) →
      pageCnt = 0 ∨ ∀ idx, ¬ sys.FreeRun flags.user idx pageCnt
  firstFit : ∀ flags pageCnt next pages,
    sys.palloc.getMultiple flags pageCnt = .ok (next, some pages) →
      ∃ idx, pages = (sys.palloc.pool flags.user).base + pgsize * idx ∧
        sys.FreeRun flags.user idx pageCnt ∧ ∀ earlier < idx, ¬ sys.FreeRun flags.user earlier pageCnt

theorem palloc_reachable_safe {sys : System} (reachable : Reachable sys) : Safe sys := by
  have inv := reachable.invariant
  exact {
    disjoint := inv.disjoint
    inPool := fun b member => ⟨inv.positive member, inv.layout.mapBefore b.user, inv.range member⟩
    classified := fun b member _ holds => inv.pageFromPool_of_holds member holds
    nullOnlyWhenFull := fun _ _ _ got => inv.getMultiple_null got
    firstFit := fun _ _ _ _ got => inv.getMultiple_firstFit got }

/-- The pools \`palloc_init\` makes with 1 MB and 32 kB of RAM: a page of bitmap
and three pages in each. -/
def smallPalloc : Palloc where
  kernelPool := { mapAddress := 0xc0100000, usedMap := ⟨3, [0], rfl⟩, base := 0xc0101000 }
  userPool := { mapAddress := 0xc0104000, usedMap := ⟨3, [0], rfl⟩, base := 0xc0105000 }
  memory _ := 0

theorem pallocInit_small :
    pallocInit 264 0x100 (fun _ => 0) (fun _ => 0) (fun _ => 0) = .ok smallPalloc := rfl

def smallBoot : System := { palloc := smallPalloc, live := [] }

theorem smallBoot_reachable : Reachable smallBoot :=
  .initial ⟨rfl, 264, 0x100, _, _, _, by decide, by decide, pallocInit_small⟩

/-- Two user pages taken from \`smallPalloc\`. -/
def twoUserPages : System where
  palloc := { smallPalloc with
    userPool := { mapAddress := 0xc0104000, usedMap := ⟨3, [3], rfl⟩, base := 0xc0105000 } }
  live := [{ user := true, pages := 0xc0105000, pageCnt := 2 }]

theorem twoUserPages_safe : Reachable twoUserPages ∧ Safe twoUserPages := by
  have stepped : step smallBoot (.getMultiple ⟨false, false, true⟩ 2) = .ok twoUserPages := rfl
  have reached : Reachable twoUserPages := .step smallBoot_reachable stepped
  exact ⟨reached, palloc_reachable_safe reached⟩

/-- \`palloc_get_multiple (0, 0)\` returns a null pointer although the kernel
pool has a run of zero free pages, as every pool has. -/
theorem getMultiple_zero_null :
    Reachable smallBoot ∧
      smallBoot.palloc.getMultiple ⟨false, false, false⟩ 0 = .ok (smallPalloc, none) ∧
      smallBoot.FreeRun false 0 0 :=
  ⟨smallBoot_reachable, rfl, by decide⟩

end Pintos.Pools
