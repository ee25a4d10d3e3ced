import Mathlib
import Pintos.Vm.Swaptable

/-!
# The frame table and clock eviction

`vm/frametable.c`, with the two calls of `threads/palloc.c` it makes on the
user pool.  `assign_page` takes the first empty frame, or the frame
`evict_page` empties, and fills it with a fresh zeroed user page owned by the
current thread.

`evict_page` calls `find_spinfo_by_kpage`, which no file of the source
defines.  It is the parameter `findSpinfoByKpage` of this module: given a
supplemental page table and a frame's page it names the position of a spinfo,
or `none` for a null pointer (dereferenced at once).

The `do ... while` loop of the clock is `clockLoop`; it is given one turn more
than there are frames, after which every accessed bit it passed is clear.
-/

namespace Pintos.Vm

def pallocGetUserPage (vm : Vm) : Vm × Option Nat :=
  match vm.userPool.getMultiple 1 with
  | (pool, some page) =>
      ({ vm with userPool := pool, memory := Memory.fill vm.memory page pgsize 0 }, some page)
  | (pool, none) => ({ vm with userPool := pool }, none)

/-- `palloc_free_page` of a user page: the page is poisoned with `0xcc`, then
its bit is cleared.  The kernel pool is not part of this model, so a page
outside the user pool reaches `NOT_REACHED`. -/
def pallocFreePage (vm : Vm) (page : Option Nat) : Except String Vm :=
  match page with
  | none => .ok vm
  | some page =>
      if pgOfs page ≠ 0 then .error "assertion pg_ofs (pages) == 0 failed"
      else if vm.userPool.pageFromPool page then
        match vm.userPool.freeMultiple page 1 with
        | .ok pool => .ok { vm with userPool := pool, memory := Memory.fill vm.memory page pgsize 0xcc }
        | .error message => .error message
      else .error "NOT_REACHED"

/-- `get_metaframe_bypage`: the first frame holding `page`. -/
def getMetaframeBypage (vm : Vm) (page : Option Nat) : Except String (Option Nat) :=
  match page with
  | none => .error "Page in get metaframe by page == NULL"
  | some page => .ok (vm.frametable.findIdx? fun frame => frame.page == some page)

/-- `free_frame`.  A page held by no frame makes `frame2free` null. -/
def freeFrame (vm : Vm) (page : Option Nat) : Except String Vm := do
  let some slot ← vm.getMetaframeBypage page | throw "frame2free == NULL dereferenced"
  return { vm with
    frametable := vm.frametable.set slot { isfilled := false, page := none, owner := none } }

/-- What `evict_page` relies on `find_spinfo_by_kpage` for: whenever a spinfo
of the table holds the page, it returns the position of one that does. -/
def FindsByKpage (findSpinfoByKpage : List Spinfo → Option Nat → Option Nat) : Prop :=
  ∀ table kpage, (∃ info ∈ table, info.kpageAddress = kpage) →
    ∃ index, findSpinfoByKpage table kpage = some index ∧
      ∃ inRange : index < table.length, table[index].kpageAddress = kpage

/-- A function with that behaviour: the first spinfo holding the page. -/
def firstSpinfoByKpage (table : List Spinfo) (kpage : Option Nat) : Option Nat :=
  table.findIdx? fun info => info.kpageAddress == kpage

theorem findsByKpage_firstSpinfoByKpage : FindsByKpage firstSpinfoByKpage := by
  intro table kpage holding
  obtain ⟨info, member, holds⟩ := holding
  cases found : firstSpinfoByKpage table kpage with
  | none =>
      rw [firstSpinfoByKpage, List.findIdx?_eq_none_iff] at found
      simp at found
      exact absurd holds (found info member)
  | some index =>
      obtain ⟨inRange, matching, _⟩ := List.findIdx?_eq_some_iff_getElem.mp found
      exact ⟨index, rfl, inRange, by simpa using matching⟩

section Eviction

variable (findSpinfoByKpage : List Spinfo → Option Nat → Option Nat)

/-- The `do ... while (is_accessed_bit_set)` loop of `evict_page`: move the hand,
look up the spinfo of the page under it, read and clear its accessed bit.
Returns the state, the owner and the spinfo's position once a page was found
with the bit clear. -/
def clockLoop (vm : Vm) : Nat → Except String (Vm × Nat × Nat)
  | 0 => .error "the clock went round with every accessed bit set"
  | fuel + 1 => do
      let hand := if vm.frametable.length ≤ vm.clockHand + 1 then 0 else vm.clockHand + 1
      let some frame := vm.frametable[hand]? | throw "frametable[clock_hand] out of range"
      let some owner := frame.owner | throw "owner_of_frame == NULL dereferenced"
      let some thread := vm.threads owner | throw "owner_of_frame already freed"
      let some index := findSpinfoByKpage thread.spageTable frame.page
        | throw "current_spinfo == NULL dereferenced"
      let some spinfo := thread.spageTable[index]? | throw "current_spinfo == NULL dereferenced"
      let upage := spinfo.upageAddress
      let isAccessedBitSet := thread.pagedir.isAccessed upage
      let vm := { vm with clockHand := hand }.setThread owner
        { thread with pagedir := thread.pagedir.setAccessed upage false }
      if isAccessedBitSet then clockLoop vm fuel else return (vm, owner, index)

/-- `evict_page`: pick a victim with the clock, write it to swap if it is a
stack page or dirty, unmap it, free its page and its frame.  Returns the
victim's frame (`&frametable[clock_hand]`). -/
def evictPage (vm : Vm) : Except String (Vm × Nat) := do
  let (vm, owner, index) ← clockLoop findSpinfoByKpage vm (vm.frametable.length + 1)
  let some frame := vm.frametable[vm.clockHand]? | throw "frametable[clock_hand] out of range"
  let some thread := vm.threads owner | throw "owner_of_frame already freed"
  let some spinfo := thread.spageTable[index]? | throw "current_spinfo == NULL dereferenced"
  let currentKpage := frame.page
  let currentPage := spinfo.upageAddress
  let pageIsdirty := thread.pagedir.isDirty currentPage
  let (vm, spinfo) ←
    if spinfo.instructions = .stack ∨ pageIsdirty = true then do
      let (vm, slot) ← vm.moveIntoSwap currentKpage spinfo.instructions pageIsdirty
      pure (vm, { spinfo with indexIntoSwap := slot, instructions := .swap })
    else pure (vm, spinfo)
  let vm := vm.setThread owner
    { thread with
      pagedir := thread.pagedir.clearPage currentPage
      spageTable := thread.spageTable.set index { spinfo with kpageAddress := none } }
  let vm ← vm.pallocFreePage currentKpage
  let vm ← vm.freeFrame currentKpage
  return (vm, vm.clockHand)

/-- `next_empty_frame`: the first empty frame, or the one `evict_page` frees. -/
def nextEmptyFrame (vm : Vm) : Except String (Vm × Nat) :=
  match vm.frametable.findIdx? fun frame => !frame.isfilled with
  | some slot => .ok (vm, slot)
  | none => evictPage findSpinfoByKpage vm

/-- `assign_page` on behalf of thread `current`: the new state and the page,
`none` when the user pool had no page left. -/
def assignPage (vm : Vm) (current : Nat) : Except String (Vm × Option Nat) := do
  let (vm, slot) ← nextEmptyFrame findSpinfoByKpage vm
  let (vm, newPage) := vm.pallocGetUserPage
  return ({ vm with
    frametable := vm.frametable.set slot
      { isfilled := true, page := newPage, owner := some current } }, newPage)

end Eviction

end Pintos.Vm
