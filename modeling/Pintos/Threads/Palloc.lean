import Mathlib
import Pintos.Memory

/-!
# The page allocator

`threads/vaddr.h` gives the page geometry; `lib/kernel/bitmap.c` the bitmap
operations a pool uses; `threads/palloc.c` the pools themselves.  A pool is its
bitmap of used pages and the address of its first page: page `i` of the pool is
at `base + PGSIZE * i`.  `palloc_get_multiple` is `bitmap_scan_and_flip` from
bit 0, `palloc_free_multiple` asserts that the pages are in use and clears their
bits (after filling them with `0xcc`, as the debug build does).
-/

namespace Pintos

/-! ## `threads/vaddr.h` -/

def pgsize : Nat := 4096

/-- `PHYS_BASE`: user addresses lie below it, kernel addresses above. -/
def physBase : Nat := 0xc0000000

def pgRoundDown (va : Nat) : Nat := va / pgsize * pgsize

def pgOfs (va : Nat) : Nat := va % pgsize

def isUserVaddr (va : Nat) : Bool := va < physBase

def isKernelVaddr (va : Nat) : Bool := physBase ≤ va

/-! ## `lib/kernel/bitmap.c` -/

namespace Bitmap

/-- `bitmap_contains`: some bit of `[start, start + cnt)` equals `value`. -/
def contains (bits : List Bool) (start cnt : Nat) (value : Bool) : Bool :=
  (List.range cnt).any fun i => bits.getD (start + i) false == value

/-- `bitmap_scan`: the first `i ≥ start` such that the `cnt` bits from `i` all
equal `value`; `none` is `BITMAP_ERROR`. -/
def scan (bits : List Bool) (start cnt : Nat) (value : Bool) : Option Nat :=
  if cnt ≤ bits.length then
    (List.range' start (bits.length - cnt + 1 - start)).find? fun i =>
      !contains bits i cnt (!value)
  else none

def setMultiple (bits : List Bool) (start cnt : Nat) (value : Bool) : List Bool :=
  bits.mapIdx fun i bit => if start ≤ i ∧ i < start + cnt then value else bit

def scanAndFlip (bits : List Bool) (start cnt : Nat) (value : Bool) :
    List Bool × Option Nat :=
  match scan bits start cnt value with
  | some idx => (setMultiple bits idx cnt !value, some idx)
  | none => (bits, none)

@[simp]
theorem length_setMultiple (bits : List Bool) (start cnt : Nat) (value : Bool) :
    (setMultiple bits start cnt value).length = bits.length := by
  simp [setMultiple]

theorem getElem?_setMultiple (bits : List Bool) (start cnt : Nat) (value : Bool) (i : Nat) :
    (setMultiple bits start cnt value)[i]? =
      bits[i]?.map fun bit => if start ≤ i ∧ i < start + cnt then value else bit := by
  simp [setMultiple, List.getElem?_mapIdx]

theorem scan_one_spec {bits : List Bool} {start idx : Nat} {value : Bool}
    (found : scan bits start 1 value = some idx) :
    start ≤ idx ∧ bits[idx]? = some value := by
  unfold scan at found
  split at found
  · obtain ⟨passes, mem⟩ := List.find?_some found, List.mem_of_find?_eq_some found
    simp only [List.mem_range'_1] at mem
    simp only [contains, List.range_one, List.any_cons, List.any_nil, Bool.or_false,
      Nat.add_zero, Bool.not_eq_eq_eq_not, Bool.not_true, beq_eq_false_iff_ne, ne_eq] at passes
    refine ⟨mem.1, ?_⟩
    rw [List.getElem?_eq_getElem (by omega)]
    rw [List.getD_eq_getElem _ _ (by omega)] at passes
    cases value <;> simp_all
  · cases found

/-- The `cnt` bits from `i` lie in the bitmap and all equal `value`. -/
def Run (bits : List Bool) (i cnt : Nat) (value : Bool) : Prop :=
  i + cnt ≤ bits.length ∧ ∀ j < cnt, bits[i + j]? = some value

instance (bits : List Bool) (i cnt : Nat) (value : Bool) : Decidable (Run bits i cnt value) :=
  inferInstanceAs (Decidable (_ ∧ _))

theorem contains_eq_false_iff {bits : List Bool} {i cnt : Nat} {value : Bool}
    (inside : i + cnt ≤ bits.length) :
    contains bits i cnt (!value) = false ↔ Run bits i cnt value := by
  simp only [contains, List.any_eq_false, List.mem_range, Run, inside, true_and, beq_iff_eq]
  refine forall_congr' fun j => imp_congr_right fun below => ?_
  rw [List.getD_eq_getElem _ _ (by omega), List.getElem?_eq_getElem (by omega), Option.some.injEq]
  cases value <;> simp

/-- `bitmap_scan` finds the first run of `cnt` bits equal to `value` at or after
`start`. -/
theorem scan_eq_some {bits : List Bool} {start cnt i : Nat} {value : Bool}
    (found : scan bits start cnt value = some i) :
    start ≤ i ∧ Run bits i cnt value ∧
      ∀ earlier, start ≤ earlier → earlier < i → ¬ Run bits earlier cnt value := by
  unfold scan at found
  split at found
  · rename_i fits
    obtain ⟨free, member, before⟩ := List.find?_range'_eq_some.mp found
    rw [List.mem_range'_1] at member
    refine ⟨member.1, (contains_eq_false_iff (by omega)).mp (by simpa using free), ?_⟩
    intro earlier from_start below run
    have taken := before earlier from_start below
    rw [Bool.not_not, ← Bool.not_eq_false, (contains_eq_false_iff run.1).mpr run] at taken
    exact absurd taken (by decide)
  · cases found

/-- `bitmap_scan` fails only when no run of `cnt` bits equal to `value` starts at
or after `start`. -/
theorem scan_eq_none {bits : List Bool} {start cnt : Nat} {value : Bool}
    (missing : scan bits start cnt value = none) :
    ∀ i, start ≤ i → ¬ Run bits i cnt value := by
  intro i from_start run
  unfold scan at missing
  split at missing
  · have taken := List.find?_range'_eq_none.mp missing i from_start (by have := run.1; omega)
    rw [Bool.not_not, ← Bool.not_eq_false, (contains_eq_false_iff run.1).mpr run] at taken
    exact absurd taken (by decide)
  · rename_i tooMany
    exact tooMany (by have := run.1; omega)

@[simp]
theorem setMultiple_zero (bits : List Bool) (start : Nat) (value : Bool) :
    setMultiple bits start 0 value = bits := by
  apply List.ext_getElem?
  intro i
  have outside : ¬ (start ≤ i ∧ i < start) := by omega
  rw [getElem?_setMultiple, Nat.add_zero]
  simp only [outside, if_false, Option.map_id']

theorem setMultiple_all (bits : List Bool) (value : Bool) :
    setMultiple bits 0 bits.length value = List.replicate bits.length value := by
  apply List.ext_getElem?
  intro i
  rw [getElem?_setMultiple, List.getElem?_replicate]
  by_cases inside : i < bits.length <;> simp [inside]

theorem setMultiple_succ (bits : List Bool) (start cnt : Nat) (value : Bool) :
    (setMultiple bits start cnt value).set (start + cnt) value =
      setMultiple bits start (cnt + 1) value := by
  apply List.ext_getElem?
  intro i
  rw [List.getElem?_set, getElem?_setMultiple, getElem?_setMultiple, length_setMultiple]
  by_cases same : start + cnt = i
  · subst same
    by_cases inBounds : start + cnt < bits.length <;> simp [inBounds]
  · have inRange : (start ≤ i ∧ i < start + cnt) ↔ (start ≤ i ∧ i < start + (cnt + 1)) := by
      omega
    simp only [same, if_false, inRange]

end Bitmap

/-! ## `threads/palloc.c` -/

/-- `struct pool`: the bitmap of used pages, and the address of page 0. -/
structure Pool where
  usedMap : List Bool
  base : Nat

namespace Pool

/-- `palloc_get_multiple` on this pool, without `PAL_ZERO`: the new bitmap and
the first page of the block, `none` for a null pointer. -/
def getMultiple (pool : Pool) (pageCnt : Nat) : Pool × Option Nat :=
  if pageCnt = 0 then (pool, none)
  else
    match Bitmap.scanAndFlip pool.usedMap 0 pageCnt false with
    | (bits, some idx) => ({ pool with usedMap := bits }, some (pool.base + pgsize * idx))
    | (bits, none) => ({ pool with usedMap := bits }, none)

/-- `page_from_pool`: the page lies inside this pool. -/
def pageFromPool (pool : Pool) (page : Nat) : Bool :=
  pool.base / pgsize ≤ page / pgsize ∧ page / pgsize < pool.base / pgsize + pool.usedMap.length

def pageIdx (pool : Pool) (page : Nat) : Nat := page / pgsize - pool.base / pgsize

/-- `palloc_free_multiple` on this pool: `ASSERT (bitmap_all (...))` is the
error case. -/
def freeMultiple (pool : Pool) (pages pageCnt : Nat) : Except String Pool :=
  let idx := pool.pageIdx pages
  if !Bitmap.contains pool.usedMap idx pageCnt false then
    .ok { pool with usedMap := Bitmap.setMultiple pool.usedMap idx pageCnt false }
  else .error "assertion bitmap_all (pool->used_map, page_idx, page_cnt) failed"

@[simp]
theorem base_getMultiple (pool : Pool) (pageCnt : Nat) :
    (pool.getMultiple pageCnt).1.base = pool.base := by
  unfold getMultiple
  split
  · rfl
  · split <;> rfl

theorem getMultiple_page {pool next : Pool} {pageCnt page : Nat}
    (got : pool.getMultiple pageCnt = (next, some page)) :
    ∃ idx, page = pool.base + pgsize * idx := by
  unfold getMultiple at got
  split at got
  · cases got
  · split at got
    · rename_i idx _
      simp only [Prod.mk.injEq, Option.some.injEq] at got
      exact ⟨idx, got.2.symm⟩
    · cases got

end Pool

end Pintos
