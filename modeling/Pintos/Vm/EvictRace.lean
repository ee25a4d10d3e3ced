import Mathlib
import Pintos.Vm.Invariants

/-!
# Eviction against the running owner

`evict_page` runs with `memory_master_lock` held, but the lock does not stop the
thread whose page is being evicted: that thread keeps running user code on the
page through its mapping until `pagedir_clear_page` removes it.  Here
`evict_page` is cut, after its clock loop, at the points where the owner can
run: the dirty-bit test, each of the eight `block_write`s of `move_into_swap`
(a disk write blocks the evicting thread), the bookkeeping that ends the copy,
`pagedir_clear_page`, and the release of the frame.  A write of the owner is
done by the MMU while its page is present and writable; otherwise it faults and
waits in `page_fault` for `memory_master_lock`.

Run with nothing in between, the pieces are `evictPage`
(`evictPage_eq_runEvictor`).  An owner write between the copy of its sector and
`pagedir_clear_page` lands in the frame but not in the swap slot, and the
frame is then freed.
-/

namespace Pintos.Vm

/-- How far `evict_page` has got past its clock loop. -/
inductive EvictPc where
  /-- `page_isdirty = pagedir_is_dirty (...)` and the test after it. -/
  | testDirty
  /-- The `block_write` of sector `sector` of the slot. -/
  | writeSector (sector : Nat)
  /-- The end of `move_into_swap` and the two writes to the spinfo. -/
  | recordSwap
  | clearPage
  /-- `kpage_address = NULL`, `palloc_free_page` and `free_frame`. -/
  | release
  | done
  deriving DecidableEq, Repr

/-- An `evict_page` in progress: the machine, the locals of `evict_page`, and
the slot `move_into_swap` took. -/
structure Eviction where
  vm : Vm
  owner : Nat
  index : Nat
  currentKpage : Option Nat
  currentPage : Nat
  pageIsdirty : Bool
  slot : Nat
  pc : EvictPc

section Begin

variable (findSpinfoByKpage : List Spinfo → Option Nat → Option Nat)

/-- `evict_page` up to the end of its clock loop. -/
def beginEviction (vm : Vm) : Except String Eviction := do
  let (vm, owner, index) ← clockLoop findSpinfoByKpage vm (vm.frametable.length + 1)
  let some frame := vm.frametable[vm.clockHand]? | throw "frametable[clock_hand] out of range"
  let some thread := vm.threads owner | throw "owner_of_frame already freed"
  let some spinfo := thread.spageTable[index]? | throw "current_spinfo == NULL dereferenced"
  return {
    vm := vm
    owner := owner
    index := index
    currentKpage := frame.page
    currentPage := spinfo.upageAddress
    pageIsdirty := false
    slot := 0
    pc := .testDirty }

end Begin

/-- The owner's record and the victim's spinfo, as `evict_page` reads them
through `owner_of_frame` and `current_spinfo`. -/
def Eviction.victim (eviction : Eviction) : Except String (Thread × Spinfo) := do
  let some thread := eviction.vm.threads eviction.owner | throw "owner_of_frame already freed"
  let some spinfo := thread.spageTable[eviction.index]?
    | throw "current_spinfo == NULL dereferenced"
  return (thread, spinfo)

/-- The evicting thread runs to its next scheduling point. -/
def evictorStep (eviction : Eviction) : Except String Eviction :=
  match eviction.pc with
  | .testDirty => do
      let (thread, spinfo) ← eviction.victim
      let pageIsdirty := thread.pagedir.isDirty eviction.currentPage
      if spinfo.instructions = .stack ∨ pageIsdirty = true then
        -- `move_into_swap` up to its copy loop
        let some _ := eviction.currentKpage | throw "Page in move_into_swap == NULL"
        let slot ← eviction.vm.nextEmptyMetaswapEntry
        return { eviction with pageIsdirty := pageIsdirty, slot := slot, pc := .writeSector 0 }
      else return { eviction with pageIsdirty := pageIsdirty, pc := .clearPage }
  | .writeSector sector => do
      let some page := eviction.currentKpage | throw "Page in move_into_swap == NULL"
      let some entry := eviction.vm.swaptable[eviction.slot]?
        | throw "no empty swap entries available"
      let swapBlock := blockWrite eviction.vm.swapBlock (8 * entry.swapIndex + sector)
        eviction.vm.memory (page + blockSectorSize * sector)
      return { eviction with
        vm := { eviction.vm with swapBlock := swapBlock }
        pc := if sector + 1 < 8 then .writeSector (sector + 1) else .recordSwap }
  | .recordSwap => do
      let (thread, spinfo) ← eviction.victim
      let some entry := eviction.vm.swaptable[eviction.slot]?
        | throw "no empty swap entries available"
      let vm := { eviction.vm with
        swaptable := eviction.vm.swaptable.set eviction.slot
          { entry with
            isfilled := true, instructionsForPageheld := spinfo.instructions
            isdirty := eviction.pageIsdirty } }
      let spinfo := { spinfo with indexIntoSwap := entry.swapIndex, instructions := .swap }
      return { eviction with
        vm := vm.setThread eviction.owner
          { thread with spageTable := thread.spageTable.set eviction.index spinfo }
        pc := .clearPage }
  | .clearPage => do
      let (thread, _) ← eviction.victim
      return { eviction with
        vm := eviction.vm.setThread eviction.owner
          { thread with pagedir := thread.pagedir.clearPage eviction.currentPage }
        pc := .release }
  | .release => do
      let (thread, spinfo) ← eviction.victim
      let vm := eviction.vm.setThread eviction.owner
        { thread with
          spageTable := thread.spageTable.set eviction.index { spinfo with kpageAddress := none } }
      let vm ← vm.pallocFreePage eviction.currentKpage
      let vm ← vm.freeFrame eviction.currentKpage
      return { eviction with vm := vm, pc := .done }
  | .done => .ok eviction

/-- What can happen next: a step of the evicting thread, or a user-mode write
of the owner. -/
inductive RaceAction where
  | evictor
  | ownerWrite (address : Nat) (byte : UInt8)
  deriving DecidableEq, Repr

/-- One step of the two threads. -/
def raceStep (eviction : Eviction) : RaceAction → Except String Eviction
  | .evictor => evictorStep eviction
  | .ownerWrite address byte => do
      let some thread := eviction.vm.threads eviction.owner
        | throw "owner_of_frame already freed"
      if thread.pagedir.permits address true then
        return { eviction with vm := eviction.vm.perform eviction.owner thread address true byte }
      -- the fault waits in `page_fault` for the lock the evicting thread holds
      else throw "blocked on memory_master_lock"

/-! ## With nothing in between, the pieces are `evict_page` -/

theorem victim_eq_ok {eviction : Eviction} {thread : Thread} {spinfo : Spinfo}
    (alive : eviction.vm.threads eviction.owner = some thread)
    (found : thread.spageTable[eviction.index]? = some spinfo) :
    eviction.victim = .ok (thread, spinfo) := by
  simp only [Eviction.victim, alive, found]
  rfl

theorem raceStep_done {eviction : Eviction} (done : eviction.pc = .done) :
    raceStep eviction .evictor = .ok eviction := by
  simp only [raceStep, evictorStep, done]

theorem run_done {eviction : Eviction} (done : eviction.pc = .done) :
    ∀ steps, Transition.run raceStep eviction (List.replicate steps .evictor) = .ok eviction
  | 0 => rfl
  | steps + 1 => by
      rw [List.replicate_succ, Transition.run_cons_ok _ (raceStep_done done)]
      exact run_done done steps

section Steps

variable {eviction : Eviction} {thread : Thread} {spinfo : Spinfo}
  (victim : eviction.victim = .ok (thread, spinfo))
include victim

theorem raceStep_keep (testing : eviction.pc = .testDirty)
    (keeping : ¬(spinfo.instructions = .stack ∨
      thread.pagedir.isDirty eviction.currentPage = true)) :
    raceStep eviction .evictor = .ok { eviction with
      pageIsdirty := thread.pagedir.isDirty eviction.currentPage, pc := .clearPage } := by
  simp only [raceStep, evictorStep, testing, victim, bind, Except.bind, if_neg keeping]
  rfl

theorem raceStep_swap {page slot : Nat} (testing : eviction.pc = .testDirty)
    (swapping : spinfo.instructions = .stack ∨ thread.pagedir.isDirty eviction.currentPage = true)
    (kpage : eviction.currentKpage = some page)
    (slotFound : eviction.vm.nextEmptyMetaswapEntry = .ok slot) :
    raceStep eviction .evictor = .ok { eviction with
      pageIsdirty := thread.pagedir.isDirty eviction.currentPage, slot := slot
      pc := .writeSector 0 } := by
  simp only [raceStep, evictorStep, testing, victim, bind, Except.bind, if_pos swapping, kpage, slotFound]
  rfl

theorem raceStep_recordSwap {entry : MetaswapEntry} (recording : eviction.pc = .recordSwap)
    (slot : eviction.vm.swaptable[eviction.slot]? = some entry) :
    raceStep eviction .evictor = .ok { eviction with
      vm := ({ eviction.vm with
        swaptable := eviction.vm.swaptable.set eviction.slot
          { entry with
            isfilled := true, instructionsForPageheld := spinfo.instructions
            isdirty := eviction.pageIsdirty } }).setThread eviction.owner
        { thread with
          spageTable := thread.spageTable.set eviction.index
            { spinfo with indexIntoSwap := entry.swapIndex, instructions := .swap } }
      pc := .clearPage } := by
  simp only [raceStep, evictorStep, recording, victim, bind, Except.bind, slot]
  rfl

theorem raceStep_clearPage (clearing : eviction.pc = .clearPage) :
    raceStep eviction .evictor = .ok { eviction with
      vm := eviction.vm.setThread eviction.owner
        { thread with pagedir := thread.pagedir.clearPage eviction.currentPage }
      pc := .release } := by
  simp only [raceStep, evictorStep, clearing, victim, bind, Except.bind]
  rfl

theorem run_release (releasing : eviction.pc = .release) (steps : Nat) :
    Transition.run raceStep eviction (List.replicate (steps + 1) .evictor) = (do
      let vm ← (eviction.vm.setThread eviction.owner
        { thread with
          spageTable := thread.spageTable.set eviction.index
            { spinfo with kpageAddress := none } }).pallocFreePage eviction.currentKpage
      let vm ← vm.freeFrame eviction.currentKpage
      return { eviction with vm := vm, pc := .done }) := by
  simp only [List.replicate_succ, Transition.run, raceStep, evictorStep, releasing, victim, bind,
    Except.bind]
  cases (eviction.vm.setThread eviction.owner
      { thread with
        spageTable := thread.spageTable.set eviction.index
          { spinfo with kpageAddress := none } }).pallocFreePage eviction.currentKpage with
  | error message => rfl
  | ok freed =>
      dsimp only
      cases freed.freeFrame eviction.currentKpage with
      | error message => rfl
      | ok vm => exact run_done rfl steps

end Steps

/-- The copy loop of `move_into_swap`, one sector per step: after `count`
steps the first `count` sectors of the slot hold the frame's bytes. -/
theorem run_copyLoop {eviction : Eviction} {page : Nat} {entry : MetaswapEntry}
    (copying : eviction.pc = .writeSector 0) (kpage : eviction.currentKpage = some page)
    (slot : eviction.vm.swaptable[eviction.slot]? = some entry) :
    ∀ count ≤ 8,
      Transition.run raceStep eviction (List.replicate count .evictor) =
        .ok { eviction with
          vm := { eviction.vm with
            swapBlock := writeSectors eviction.vm.swapBlock entry.swapIndex eviction.vm.memory
              page count }
          pc := if count < 8 then .writeSector count else .recordSwap }
  | 0, _ => by
      rw [if_pos (by decide), ← copying]
      rfl
  | count + 1, bounded => by
      rw [List.replicate_succ', Transition.run_append,
        run_copyLoop copying kpage slot count (by omega)]
      have inLoop : count < 8 := by omega
      simp only [inLoop, if_true, Transition.run, raceStep, evictorStep, kpage, slot]
      rfl

theorem evictPage_eq_runEvictor (findSpinfoByKpage : List Spinfo → Option Nat → Option Nat)
    (vm : Vm) :
    evictPage findSpinfoByKpage vm = (do
      let eviction ← beginEviction findSpinfoByKpage vm
      let eviction ← Transition.run raceStep eviction (List.replicate 12 .evictor)
      return (eviction.vm, eviction.vm.clockHand)) := by
  unfold evictPage beginEviction
  simp only [bind, Except.bind, pure, Except.pure, throw, throwThe, MonadExceptOf.throw]
  split
  · rfl
  rename_i _ result looped
  obtain ⟨vm, owner, index⟩ := result
  dsimp only
  cases frameFound : vm.frametable[vm.clockHand]? with
  | none => rfl
  | some frame =>
  cases alive : vm.threads owner with
  | none => rfl
  | some thread =>
  cases found : thread.spageTable[index]? with
  | none => simp only [found]
  | some spinfo =>
  simp only [found]
  have victim : Eviction.victim {
      vm := vm, owner := owner, index := index, currentKpage := frame.page
      currentPage := spinfo.upageAddress, pageIsdirty := false, slot := 0, pc := .testDirty } =
      .ok (thread, spinfo) :=
    victim_eq_ok alive found
  by_cases swapping :
      spinfo.instructions = .stack ∨ thread.pagedir.isDirty spinfo.upageAddress = true
  · rw [if_pos swapping,
      show List.replicate 12 RaceAction.evictor =
        .evictor :: (List.replicate 8 .evictor ++ .evictor :: .evictor :: List.replicate (0 + 1) .evictor)
        from rfl]
    cases kpage : frame.page with
    | none =>
        rw [kpage] at victim
        simp only [Transition.run, raceStep, evictorStep, victim, bind, Except.bind, if_pos swapping]
        rfl
    | some page =>
    rw [kpage] at victim
    cases slotFound : vm.nextEmptyMetaswapEntry with
    | error message =>
        simp only [Transition.run, raceStep, evictorStep, victim, bind, Except.bind, if_pos swapping,
          Vm.moveIntoSwap, slotFound]
    | ok slot =>
    obtain ⟨inRange, _⟩ := nextEmptyMetaswapEntry_spec slotFound
    have entryFound := List.getElem?_eq_getElem inRange
    simp only [Vm.moveIntoSwap, slotFound, entryFound, bind, Except.bind, pure, Except.pure]
    rw [Transition.run_cons_ok _ (raceStep_swap victim rfl swapping rfl slotFound),
      Transition.run_append, run_copyLoop rfl rfl entryFound 8 le_rfl]
    dsimp only
    have indexInRange : index < thread.spageTable.length := (List.getElem?_eq_some_iff.mp found).1
    rw [if_neg (lt_irrefl 8),
      Transition.run_cons_ok _ (raceStep_recordSwap (victim_eq_ok alive found) rfl entryFound),
      Transition.run_cons_ok _ (raceStep_clearPage (victim_eq_ok (Vm.setThread_threads_self _ _ _)
        (List.getElem?_set_self indexInRange)) rfl),
      run_release (victim_eq_ok (Vm.setThread_threads_self _ _ _)
        (List.getElem?_set_self indexInRange)) rfl]
    simp only [Vm.setThread_setThread, List.set_set]
    dsimp only [bind, Except.bind, pure, Except.pure]
    split
    · rfl
    · split <;> rfl
  · rw [if_neg swapping,
      show List.replicate 12 RaceAction.evictor =
        .evictor :: .evictor :: List.replicate (9 + 1) .evictor from rfl,
      Transition.run_cons_ok _ (raceStep_keep victim rfl swapping),
      Transition.run_cons_ok _ (raceStep_clearPage (victim_eq_ok alive found) rfl)]
    have unmapped : (vm.setThread owner
        { thread with pagedir := thread.pagedir.clearPage spinfo.upageAddress }).threads owner =
        some { thread with pagedir := thread.pagedir.clearPage spinfo.upageAddress } := by
      simp
    rw [run_release (victim_eq_ok unmapped found) rfl, Vm.setThread_setThread]
    dsimp only [bind, Except.bind, pure, Except.pure]
    split
    · rfl
    · split <;> rfl

/-! ## A lost write -/

/-- Process 1's stack page fills the only frame, and process 2 starts: its
`setup_stack` calls `assign_page`, which has to evict. -/
def evictionPending : List Event := [.spawn 1, .setupStack 1 [[0x61]], .spawn 2]

/-- The evicting thread tests the dirty bit and copies sector 0 of the page;
process 1 writes `0x55` to the first byte of its stack page; the evicting
thread then finishes. -/
def lostWriteSchedule : List RaceAction :=
  [.evictor, .evictor, .ownerWrite stackPage 0x55] ++ List.replicate 10 .evictor

theorem eviction_loses_owner_write :
    ∃ vm eviction final address byte, Reachable firstSpinfoByKpage vm ∧
      (∀ frame ∈ vm.frametable, frame.isfilled = true) ∧
      beginEviction firstSpinfoByKpage vm = .ok eviction ∧
      Transition.run raceStep eviction lostWriteSchedule = .ok final ∧ final.pc = .done ∧
      RaceAction.ownerWrite address byte ∈ lostWriteSchedule ∧
      ∃ info, final.vm.spinfoOf final.owner (pgRoundDown address) = some info ∧
        info.instructions = .swap ∧ info.kpageAddress = none ∧
        final.vm.swapBlock (8 * info.indexIntoSwap.toNat * blockSectorSize + pgOfs address) ≠
          byte := by
  have started : Initial (init 1 2 (freshUserPool 1) fun _ => []) := initial_init (by decide)
  have losing : Transition.runSatisfies (step firstSpinfoByKpage)
      (init 1 2 (freshUserPool 1) fun _ => []) evictionPending (fun vm =>
        decide (∀ frame ∈ vm.frametable, frame.isfilled = true) &&
        match beginEviction firstSpinfoByKpage vm with
        | .ok eviction => Transition.runSatisfies raceStep eviction lostWriteSchedule fun final =>
            final.pc == .done &&
            (final.vm.spinfoOf final.owner stackPage).any fun info =>
              info.instructions == .swap && info.kpageAddress.isNone &&
              final.vm.swapBlock (8 * info.indexIntoSwap.toNat * blockSectorSize) != 0x55
        | .error _ => false) = true := by
    decide +kernel
  obtain ⟨vm, reached, holds⟩ := Transition.Reachable.of_runSatisfies started losing
  rw [Bool.and_eq_true] at holds
  obtain ⟨full, evicting⟩ := holds
  split at evicting
  · rename_i eviction begun
    obtain ⟨final, ran, lost⟩ := Transition.exists_of_runSatisfies evicting
    rw [Bool.and_eq_true, beq_iff_eq] at lost
    obtain ⟨finished, swapped⟩ := lost
    obtain ⟨info, found, kind⟩ := (Option.any_eq_true _ _).mp swapped
    simp only [Bool.and_eq_true, beq_iff_eq, Option.isNone_iff_eq_none, bne_iff_ne] at kind
    obtain ⟨⟨isSwap, evicted⟩, differs⟩ := kind
    have aligned : pgRoundDown stackPage = stackPage := by decide
    have offset : pgOfs stackPage = 0 := by decide
    refine ⟨vm, eviction, final, stackPage, 0x55, reached, of_decide_eq_true full, begun, ran,
      finished, by decide, info, by rw [aligned]; exact found, isSwap, evicted, ?_⟩
    rw [offset, Nat.add_zero]
    exact differs
  · cases evicting

end Pintos.Vm
