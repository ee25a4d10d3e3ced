import Mathlib
import Pintos.Vm.System

/-!
# The frame-table and swap-table invariants

What the frame table and the swap table are meant to record about the live
threads' supplemental page tables and page directories, stated for any state
and shown to hold in every initial state.  Short runs of demand paging break
both:

* `page_fault` takes a frame with `assign_page` before it looks at the faulting
  address, and its `kill` path ends the thread without giving the frame back:
  the frame stays filled, owned by a thread that no longer exists;
* on a swap-in `page_fault` copies the page's kind from the entry that
  `free_metaswap_entry` has just reset to `USELESS`, so a stack page comes back
  from swap as a `USELESS` page, and when it is evicted dirty again its swap
  slot records the kind `USELESS`.

The runs use `firstSpinfoByKpage` for `find_spinfo_by_kpage`: it has the
behaviour `evict_page` relies on (`findsByKpage_firstSpinfoByKpage`).
-/

namespace Pintos.Vm

/-- The spinfo thread `tid` has for the user page `upage` (`find_spinfo`). -/
def spinfoOf (vm : Vm) (tid upage : Nat) : Option Spinfo := do
  let thread ← vm.threads tid
  let index ← findSpinfo thread.spageTable upage
  thread.spageTable[index]?

/-- The frame-table invariant. -/
structure FrameTableInvariant (vm : Vm) : Prop where
  /-- A frame is filled exactly when it holds a page. -/
  filledIffPage : ∀ frame ∈ vm.frametable, frame.isfilled = true ↔ frame.page.isSome
  /-- No page is held by two filled frames. -/
  pagesNodup : (vm.frametable.filterMap fun frame =>
    if frame.isfilled then frame.page else none).Nodup
  /-- Filled frames hold pages of the user pool. -/
  pagesFromPool : ∀ frame ∈ vm.frametable, ∀ page, frame.isfilled = true →
    frame.page = some page → vm.userPool.pageFromPool page = true
  /-- A filled frame's owner is alive, exactly one of the owner's spinfos holds
  the page, and the owner's page directory maps that spinfo's page to it. -/
  ownerHolds : ∀ frame ∈ vm.frametable, frame.isfilled = true →
    ∃ (owner : Nat) (thread : Thread), frame.owner = some owner ∧ vm.threads owner = some thread ∧
      (∃! index : Nat, ∃ info : Spinfo, thread.spageTable[index]? = some info ∧
        info.kpageAddress = frame.page) ∧
      ∀ info ∈ thread.spageTable, info.kpageAddress = frame.page →
        thread.pagedir.getPage info.upageAddress = frame.page
  /-- Every resident spinfo of a live thread has a filled frame for its page. -/
  residentFramed : ∀ tid thread, vm.threads tid = some thread →
    ∀ info ∈ thread.spageTable, info.kpageAddress.isSome →
      ∃ frame ∈ vm.frametable, frame.isfilled = true ∧ frame.page = info.kpageAddress

/-- `holder` names a live thread and the position of one of its SWAP spinfos
that refers to swap slot `index`. -/
def SwapHolder (vm : Vm) (index : Nat) (holder : Nat × Nat) : Prop :=
  ∃ (thread : Thread) (info : Spinfo), vm.threads holder.1 = some thread ∧
    thread.spageTable[holder.2]? = some info ∧
    info.instructions = .swap ∧ info.indexIntoSwap = index

/-- The swap-table invariant. -/
structure SwapTableInvariant (vm : Vm) : Prop where
  /-- A filled slot is referred to by exactly one SWAP spinfo of a live thread. -/
  filledHeld : ∀ entry ∈ vm.swaptable, entry.isfilled = true →
    ∃! holder, vm.SwapHolder entry.swapIndex holder
  /-- A filled slot holds a file page or a stack page. -/
  filledKind : ∀ entry ∈ vm.swaptable, entry.isfilled = true →
    entry.instructionsForPageheld = .file ∨ entry.instructionsForPageheld = .stack
  /-- Every SWAP spinfo of a live thread refers to a filled slot. -/
  swapFilled : ∀ tid thread, vm.threads tid = some thread →
    ∀ info ∈ thread.spageTable, info.instructions = .swap →
      ∃ entry ∈ vm.swaptable, entry.isfilled = true ∧ info.indexIntoSwap = entry.swapIndex

section Initial

variable {vm : Vm} (initial : Initial vm)
include initial

theorem isfilled_of_initial {frame : Metaframe} (member : frame ∈ vm.frametable) :
    frame.isfilled = false := by
  rw [initial.frames frame member]
  rfl

theorem isfilled_slot_of_initial {entry : MetaswapEntry} (member : entry ∈ vm.swaptable) :
    entry.isfilled = false := by
  obtain ⟨index, inRange, rfl⟩ := List.mem_iff_getElem.mp member
  rw [initial.slots index inRange]
  rfl

theorem frameTableInvariant_of_initial : FrameTableInvariant vm where
  filledIffPage frame member := by
    rw [initial.frames frame member]
    decide
  pagesNodup := by
    have noPages : (vm.frametable.filterMap fun frame =>
        if frame.isfilled then frame.page else none) = [] := by
      refine List.filterMap_eq_nil_iff.mpr fun frame member => ?_
      simp [isfilled_of_initial initial member]
    rw [noPages]
    exact List.nodup_nil
  pagesFromPool frame member _ filled := by
    simp [isfilled_of_initial initial member] at filled
  ownerHolds frame member filled := by
    simp [isfilled_of_initial initial member] at filled
  residentFramed tid _ alive := by
    simp [initial.threads tid] at alive

theorem swapTableInvariant_of_initial : SwapTableInvariant vm where
  filledHeld entry member filled := by
    simp [isfilled_slot_of_initial initial member] at filled
  filledKind entry member filled := by
    simp [isfilled_slot_of_initial initial member] at filled
  swapFilled tid _ alive := by
    simp [initial.threads tid] at alive

end Initial

theorem not_frameTableInvariant_of_dead_owner {vm : Vm} {frame : Metaframe} {owner : Nat}
    (member : frame ∈ vm.frametable) (filled : frame.isfilled = true)
    (owned : frame.owner = some owner) (dead : vm.threads owner = none) :
    ¬ FrameTableInvariant vm := by
  intro invariant
  obtain ⟨holder, thread, ownedBy, alive, -⟩ := invariant.ownerHolds frame member filled
  rw [owned, Option.some.injEq] at ownedBy
  subst ownedBy
  rw [dead] at alive
  cases alive

theorem not_swapTableInvariant_of_useless {vm : Vm} {entry : MetaswapEntry}
    (member : entry ∈ vm.swaptable) (filled : entry.isfilled = true)
    (useless : entry.instructionsForPageheld = .useless) :
    ¬ SwapTableInvariant vm := by
  intro invariant
  rcases invariant.filledKind entry member filled with kind | kind <;>
    rw [useless] at kind <;> cases kind

/-! ## Runs that break the invariants

Both runs start with one process whose `setup_stack` is given the single
argument `"a"`, with the user pool at `PHYS_BASE + 4 MB`. -/

/-- The stack page `setup_stack` maps. -/
def stackPage : Nat := physBase - pgsize

def growPage : Nat := physBase - 2 * pgsize

def freshUserPool (pages : Nat) : Pool :=
  { usedMap := List.replicate pages false, base := physBase + 0x400000 }

/-- The process reads address 0 in user mode: no spinfo covers it and it is no
stack access, so `page_fault` kills the process, after `assign_page` has
handed it the second frame. -/
def killedAfterAssign : List Event :=
  [.spawn 1, .setupStack 1 [[0x61]], .access 1 0 false 0 (physBase - 64)]

theorem frameTable_keeps_dead_owner :
    ∃ vm, Reachable firstSpinfoByKpage vm ∧ ¬ FrameTableInvariant vm := by
  have started : Initial (init 2 2 (freshUserPool 2) fun _ => []) := initial_init (by decide)
  have orphaning : Transition.runSatisfies (step firstSpinfoByKpage)
      (init 2 2 (freshUserPool 2) fun _ => []) killedAfterAssign (fun vm =>
        decide (∃ frame ∈ vm.frametable,
          frame.isfilled = true ∧ frame.owner = some 1 ∧ (vm.threads 1).isNone = true)) =
      true := by
    decide
  obtain ⟨vm, reached, orphaned⟩ := Transition.Reachable.of_runSatisfies started orphaning
  obtain ⟨frame, member, filled, owned, dead⟩ := of_decide_eq_true orphaned
  exact ⟨vm, reached,
    not_frameTableInvariant_of_dead_owner member filled owned (Option.isNone_iff_eq_none.mp dead)⟩

/-- After the orphaned frame, a second process starts and takes the other
frame for its stack: every frame is filled. -/
def deadFrameEvictionRun : List Event :=
  killedAfterAssign ++ [.spawn 2, .setupStack 2 [[0x62]]]

/-- The second process's stack then grows: `evict_page` is entered with every
frame filled, and its first turn moves the hand onto the orphaned frame, whose
owner's `struct thread` is gone. -/
theorem eviction_follows_dead_owner :
    ∃ vm, Reachable firstSpinfoByKpage vm ∧ (∀ frame ∈ vm.frametable, frame.isfilled = true) ∧
      step firstSpinfoByKpage vm (.access 2 growPage true 7 growPage) =
        .error "owner_of_frame already freed" := by
  have started : Initial (init 2 2 (freshUserPool 2) fun _ => []) := initial_init (by decide)
  have evicting : Transition.runSatisfies (step firstSpinfoByKpage)
      (init 2 2 (freshUserPool 2) fun _ => []) deadFrameEvictionRun (fun vm =>
        decide (∀ frame ∈ vm.frametable, frame.isfilled = true) &&
          Transition.stopsWith (step firstSpinfoByKpage vm (.access 2 growPage true 7 growPage))
            "owner_of_frame already freed") = true := by
    decide
  obtain ⟨vm, reached, holds⟩ := Transition.Reachable.of_runSatisfies started evicting
  simp only [Bool.and_eq_true, decide_eq_true_eq] at holds
  exact ⟨vm, reached, holds.1, Transition.eq_error_of_stopsWith holds.2⟩

/-- With one frame: the process writes below its stack page, which grows the
stack into the only frame and sends the stack page to swap as a STACK page. -/
def stackSwappedOut : List Event :=
  [.spawn 1, .setupStack 1 [[0x61]], .access 1 growPage true 7 growPage]

/-- The process then reads its stack page, which comes back from swap (and
sends the grown page to swap). -/
def swapInStack : Event := .access 1 stackPage false 0 growPage

theorem swapIn_resets_kind :
    ∃ before event after, Reachable firstSpinfoByKpage before ∧
      step firstSpinfoByKpage before event = .ok after ∧
      (∃ info, before.spinfoOf 1 stackPage = some info ∧ info.instructions = .swap ∧
        ∃ entry ∈ before.swaptable, entry.isfilled = true ∧
          (entry.swapIndex : Int) = info.indexIntoSwap ∧ entry.instructionsForPageheld = .stack) ∧
      ∃ info, after.spinfoOf 1 stackPage = some info ∧ info.kpageAddress.isSome ∧
        info.instructions = .useless := by
  have started : Initial (init 1 2 (freshUserPool 1) fun _ => []) := initial_init (by decide)
  have swapping : Transition.runSatisfies (step firstSpinfoByKpage)
      (init 1 2 (freshUserPool 1) fun _ => []) stackSwappedOut (fun before =>
        ((before.spinfoOf 1 stackPage).any fun info => info.instructions == .swap &&
          before.swaptable.any fun entry => entry.isfilled &&
            (entry.swapIndex : Int) == info.indexIntoSwap &&
              entry.instructionsForPageheld == .stack) &&
        Transition.runSatisfies (step firstSpinfoByKpage) before [swapInStack] fun after =>
          (after.spinfoOf 1 stackPage).any fun info =>
            info.kpageAddress.isSome && info.instructions == .useless) = true := by
    decide
  obtain ⟨before, reached, holds⟩ := Transition.Reachable.of_runSatisfies started swapping
  rw [Bool.and_eq_true] at holds
  obtain ⟨swapped, restored⟩ := holds
  obtain ⟨after, ran, reloaded⟩ := Transition.exists_of_runSatisfies restored
  obtain ⟨next, moved, ended⟩ := Transition.run_cons_eq_ok ran
  rw [Transition.run_nil, Except.ok.injEq] at ended
  subst ended
  refine ⟨before, swapInStack, next, reached, moved, ?_, ?_⟩
  · obtain ⟨info, found, kind⟩ := (Option.any_eq_true _ _).mp swapped
    simp only [Bool.and_eq_true, beq_iff_eq, List.any_eq_true] at kind
    obtain ⟨isSwap, entry, member, ⟨filled, slot⟩, stack⟩ := kind
    exact ⟨info, found, isSwap, entry, member, filled, slot, stack⟩
  · obtain ⟨info, found, kind⟩ := (Option.any_eq_true _ _).mp reloaded
    simp only [Bool.and_eq_true, beq_iff_eq] at kind
    exact ⟨info, found, kind⟩

/-- After the swap-in, the process reads the grown page back: the stack page,
now `USELESS` and dirty, is evicted into slot 0. -/
def uselessSlotRun : List Event :=
  stackSwappedOut ++ [swapInStack, .access 1 growPage false 0 growPage]

theorem swapTable_records_useless :
    ∃ vm, Reachable firstSpinfoByKpage vm ∧ ¬ SwapTableInvariant vm := by
  have started : Initial (init 1 2 (freshUserPool 1) fun _ => []) := initial_init (by decide)
  have recording : Transition.runSatisfies (step firstSpinfoByKpage)
      (init 1 2 (freshUserPool 1) fun _ => []) uselessSlotRun (fun vm =>
        decide (∃ entry ∈ vm.swaptable,
          entry.isfilled = true ∧ entry.instructionsForPageheld = .useless)) = true := by
    decide
  obtain ⟨vm, reached, recorded⟩ := Transition.Reachable.of_runSatisfies started recording
  obtain ⟨entry, member, filled, useless⟩ := of_decide_eq_true recorded
  exact ⟨vm, reached, not_swapTableInvariant_of_useless member filled useless⟩

end Pintos.Vm
