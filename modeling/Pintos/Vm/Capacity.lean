import Mathlib
import Pintos.Threads.Pools
import Pintos.Userprog.Syscall

/-!
# The frame table against the user pool

`init_frametable` counts the frames from `init_ram_pages` alone: half the free
pages above 1 MB, less one page for a bitmap.  `palloc_init` gives the user pool
the same half, capped by the `-ul` limit, less the pages of its bitmap.
`assign_page` takes a frame first and a user page second, so when the table has
more frames than the pool has pages, a frame is filled with a null page.

`start.S` caps RAM at 64 MB, so `init_ram_pages` is at most `0x4000`.
-/

namespace Pintos.Vm

open Pools

/-- `init_frametable (init_ram_pages)`: `num_user_frames`. -/
def initFrametable (ramPages : Nat) : Except String Int := do
  let freeStart ← ptov (1024 * 1024)
  let freeEnd ← ptov (ramPages * pgsize)
  let freePages := (freeEnd - freeStart) / pgsize
  let userPages := freePages / 2
  return toInt32 ((userPages + 2 ^ 32 - 1) % 2 ^ 32)

theorem ptov_ramPages {ramPages va : Nat} (ram : ramPages ≤ 0x4000)
    (mapped : ptov (ramPages * pgsize) = .ok va) : va = ramPages * pgsize + physBase :=
  ptov_eq_ok mapped (by unfold pgsize; omega)

theorem freePages_eq (ramPages : Nat) :
    (ramPages * pgsize + physBase - (1024 * 1024 + physBase)) / pgsize = ramPages - 256 := by
  unfold pgsize physBase
  omega

theorem initFrametable_eq_ok {ramPages : Nat} {frames : Int} (ram : ramPages ≤ 0x4000)
    (counted : initFrametable ramPages = .ok frames) (room : 0 < (ramPages - 256) / 2) :
    frames = ((ramPages - 256) / 2 - 1 : Nat) := by
  unfold initFrametable at counted
  obtain ⟨freeStart, started, counted⟩ := Control.bind_eq_ok counted
  obtain ⟨freeEnd, ended, counted⟩ := Control.bind_eq_ok counted
  rw [ptov_eq_ok started (by decide), ptov_ramPages ram ended, freePages_eq] at counted
  rw [← Except.ok.inj counted]
  unfold toInt32
  split <;> omega

/-- The user pool `palloc_init` makes: the capped half of the free pages, less at
least one page of bitmap. -/
theorem pallocInit_userPool {ramPages limit : Nat} {kernelBuffer userBuffer : Nat → BitVec 32}
    {memory : Nat → UInt8} {palloc : Palloc} (ram : ramPages ≤ 0x4000)
    (made : pallocInit ramPages limit kernelBuffer userBuffer memory = .ok palloc) :
    ∃ bmPages, 0 < bmPages ∧ bmPages ≤ min ((ramPages - 256) / 2) limit ∧
      palloc.userPool.usedMap.bitCnt = min ((ramPages - 256) / 2) limit - bmPages := by
  unfold pallocInit at made
  obtain ⟨freeStart, started, made⟩ := Control.bind_eq_ok made
  obtain ⟨freeEnd, ended, made⟩ := Control.bind_eq_ok made
  rw [ptov_eq_ok started (by decide), ptov_ramPages ram ended, freePages_eq] at made
  obtain ⟨kernelPool, -, made⟩ := Control.bind_eq_ok made
  obtain ⟨userPool, userMade, made⟩ := Control.bind_eq_ok made
  cases made
  obtain ⟨bmPages, fits, buffered, -, -, counted, -⟩ := initPool_eq_ok userMade
  refine ⟨bmPages, ?_, fits, counted⟩
  -- a bitmap takes at least its header
  unfold Bitmap.bufSize pgsize at buffered
  omega

/-! ## Handing out frames -/

/-- The first `k` frames, the `i`-th filled by `owner` with page `i` of the pool at `base`. -/
def handedFrames (base owner k : Nat) : List Metaframe :=
  (List.range k).map fun i => { isfilled := true, page := some (base + pgsize * i), owner := some owner }

/-- The first `k` of `frames` frames hold the first `k` of the `cnt` pages of the pool. -/
structure Handed (vm : Vm) (base owner frames cnt k : Nat) : Prop where
  table : vm.frametable = handedFrames base owner k ++ List.replicate (frames - k) emptyMetaframe
  pool : vm.userPool = { usedMap := List.replicate k true ++ List.replicate (cnt - k) false, base }

theorem findIdx?_handed (base owner k m : Nat) :
    (handedFrames base owner k ++ List.replicate (m + 1) emptyMetaframe).findIdx?
      (fun frame => !frame.isfilled) = some k := by
  have filled : (handedFrames base owner k).findIdx? (fun frame => !frame.isfilled) = none := by
    simp [List.findIdx?_eq_none_iff, handedFrames]
  rw [List.findIdx?_append, filled, List.replicate_succ, List.findIdx?_cons]
  simp [handedFrames, emptyMetaframe]

theorem set_handed (base owner k m : Nat) (frame : Metaframe)
    (filled : frame = { isfilled := true, page := some (base + pgsize * k), owner := some owner }) :
    (handedFrames base owner k ++ List.replicate (m + 1) emptyMetaframe).set k frame =
      handedFrames base owner (k + 1) ++ List.replicate m emptyMetaframe := by
  have length : (handedFrames base owner k).length = k := by simp [handedFrames]
  rw [List.set_append_right _ _ (by omega), length, Nat.sub_self, List.replicate_succ,
    List.set_cons_zero, filled]
  simp [handedFrames, List.range_succ]

theorem getElem?_used (k m i : Nat) :
    (List.replicate k true ++ List.replicate m false)[i]? =
      if i < k then some true else if i < k + m then some false else none := by
  rw [List.getElem?_append]
  split_ifs <;> simp_all [List.getElem?_replicate] <;> omega

theorem scan_used (k m : Nat) :
    Bitmap.scan (List.replicate k true ++ List.replicate m false) 0 1 false =
      if m = 0 then none else some k := by
  have run : ∀ i, Bitmap.Run (List.replicate k true ++ List.replicate m false) i 1 false ↔
      k ≤ i ∧ i < k + m := by
    intro i
    simp only [Bitmap.Run, List.length_append, List.length_replicate, Nat.lt_one_iff,
      forall_eq, Nat.add_zero, getElem?_used]
    split_ifs <;> simp <;> omega
  cases found : Bitmap.scan (List.replicate k true ++ List.replicate m false) 0 1 false with
  | none =>
    have missing := Bitmap.scan_eq_none found k (Nat.zero_le k)
    rw [run] at missing
    split_ifs
    · rfl
    · omega
  | some i =>
    obtain ⟨-, first, earliest⟩ := Bitmap.scan_eq_some found
    rw [run] at first
    have atK := earliest k (Nat.zero_le k)
    rw [run] at atK
    split_ifs
    · omega
    · rw [Option.some.injEq]
      omega

theorem setMultiple_used (k m : Nat) :
    Bitmap.setMultiple (List.replicate k true ++ List.replicate (m + 1) false) k 1 true =
      List.replicate (k + 1) true ++ List.replicate m false := by
  apply List.ext_getElem?
  intro i
  rw [Bitmap.getElem?_setMultiple, getElem?_used, getElem?_used]
  split_ifs <;> simp <;> omega

theorem getMultiple_used (base k m : Nat) :
    Pool.getMultiple { usedMap := List.replicate k true ++ List.replicate (m + 1) false, base } 1 =
      ({ usedMap := List.replicate (k + 1) true ++ List.replicate m false, base },
        some (base + pgsize * k)) := by
  simp [Pool.getMultiple, Bitmap.scanAndFlip, scan_used, setMultiple_used]

theorem getMultiple_exhausted (base k : Nat) :
    Pool.getMultiple { usedMap := List.replicate k true ++ List.replicate 0 false, base } 1 =
      ({ usedMap := List.replicate k true ++ List.replicate 0 false, base }, none) := by
  simp only [Pool.getMultiple, Bitmap.scanAndFlip, scan_used]
  rfl

section Assign

variable (findSpinfoByKpage : List Spinfo → Option Nat → Option Nat)

/-- `count` calls of `assign_page` for `owner`, and the pages they return. -/
def assignPages (vm : Vm) (owner : Nat) : Nat → Except String (Vm × List (Option Nat))
  | 0 => .ok (vm, [])
  | count + 1 => do
      let (vm, pages) ← assignPages vm owner count
      let (vm, page) ← assignPage findSpinfoByKpage vm owner
      return (vm, pages ++ [page])

/-- While both last, `assign_page` fills the next frame with the next page. -/
theorem assignPage_handed {vm : Vm} {base owner frames cnt k : Nat}
    (handed : Handed vm base owner frames cnt k) (frameLeft : k < frames) (pageLeft : k < cnt) :
    ∃ vm', assignPage findSpinfoByKpage vm owner = .ok (vm', some (base + pgsize * k)) ∧
      Handed vm' base owner frames cnt (k + 1) := by
  obtain ⟨table, pool⟩ := handed
  obtain ⟨m, rfl⟩ : ∃ m, frames = k + (m + 1) := ⟨frames - k - 1, by omega⟩
  obtain ⟨c, rfl⟩ : ∃ c, cnt = k + (c + 1) := ⟨cnt - k - 1, by omega⟩
  rw [Nat.add_sub_cancel_left] at table pool
  have found : vm.frametable.findIdx? (fun frame => !frame.isfilled) = some k := by
    rw [table, findIdx?_handed]
  exact ⟨_, by
      simp only [assignPage, nextEmptyFrame, found, pallocGetUserPage, pool, getMultiple_used,
        bind, Except.bind, pure, Except.pure]
      rfl,
    ⟨by
      simp only [table]
      rw [set_handed _ _ _ _ _ rfl]
      congr 2
      omega,
    by
      simp only
      congr 3
      omega⟩⟩

/-- Once the pool is spent, `assign_page` still takes a free frame, and fills it with
a null page. -/
theorem assignPage_exhausted {vm : Vm} {base owner frames cnt : Nat}
    (handed : Handed vm base owner frames cnt cnt) (frameLeft : cnt < frames) :
    ∃ vm', assignPage findSpinfoByKpage vm owner = .ok (vm', none) ∧
      vm'.frametable[cnt]? = some { isfilled := true, page := none, owner := some owner } := by
  obtain ⟨table, pool⟩ := handed
  obtain ⟨m, rfl⟩ : ∃ m, frames = cnt + (m + 1) := ⟨frames - cnt - 1, by omega⟩
  simp only [Nat.add_sub_cancel_left, Nat.sub_self] at table pool
  have found : vm.frametable.findIdx? (fun frame => !frame.isfilled) = some cnt := by
    rw [table, findIdx?_handed]
  have length : (handedFrames base owner cnt).length = cnt := by simp [handedFrames]
  exact ⟨_, by
      simp only [assignPage, nextEmptyFrame, found, pallocGetUserPage, pool, getMultiple_exhausted,
        bind, Except.bind, pure, Except.pure]
      rfl,
    by
      simp only [table]
      rw [List.getElem?_set_self (by simp [length])]⟩

theorem assignPages_handed {vm : Vm} {base owner frames cnt : Nat}
    (handed : Handed vm base owner frames cnt 0) {k : Nat} (pageLeft : k ≤ cnt)
    (frameLeft : k ≤ frames) :
    ∃ vm', assignPages findSpinfoByKpage vm owner k =
        .ok (vm', (List.range k).map fun i => some (base + pgsize * i)) ∧
      Handed vm' base owner frames cnt k := by
  induction k with
  | zero => exact ⟨vm, rfl, handed⟩
  | succ k ih =>
    obtain ⟨vm₁, ran, handed₁⟩ := ih (by omega) (by omega)
    obtain ⟨vm₂, assigned, handed₂⟩ :=
      assignPage_handed findSpinfoByKpage handed₁ (by omega) (by omega)
    refine ⟨vm₂, ?_, handed₂⟩
    simp only [assignPages, ran, assigned, List.range_succ, List.map_append, List.map_singleton,
      bind, Except.bind, pure, Except.pure]

theorem handed_init (frames slots cnt : Nat) (base : Nat) (files : Nat → List UInt8) (owner : Nat) :
    Handed (init frames slots { usedMap := List.replicate cnt false, base } files) base owner frames
      cnt 0 :=
  ⟨by simp [init, handedFrames], by simp [init]⟩

/-- For every RAM size and every `-ul` limit below half the free pages that
`palloc_init` accepts, the frame table counts more frames than the user pool has
pages: from the boot state, the call of `assign_page` after the pool's last page
finds an empty frame and fills it with a null page. -/
theorem userPool_runs_out_first {ramPages limit : Nat} {kernelBuffer userBuffer : Nat → BitVec 32}
    {memory : Nat → UInt8} {palloc : Palloc} {frames : Int} (ram : ramPages ≤ 0x4000)
    (made : pallocInit ramPages limit kernelBuffer userBuffer memory = .ok palloc)
    (counted : initFrametable ramPages = .ok frames) (limited : limit < (ramPages - 256) / 2)
    (slots owner : Nat) (files : Nat → List UInt8) :
    (palloc.userPool.usedMap.bitCnt : Int) < frames ∧
      ∃ vm pages, assignPages findSpinfoByKpage
          (init frames.toNat slots palloc.userPool.toPool files) owner
          (palloc.userPool.usedMap.bitCnt + 1) = .ok (vm, pages ++ [none]) ∧
        vm.frametable[palloc.userPool.usedMap.bitCnt]? =
          some { isfilled := true, page := none, owner := some owner } := by
  obtain ⟨bmPages, positive, fits, cntEq⟩ := pallocInit_userPool ram made
  have framesEq := initFrametable_eq_ok ram counted (by omega)
  have fewer : palloc.userPool.usedMap.bitCnt < frames.toNat := by omega
  refine ⟨by omega, ?_⟩
  have cleared := (pallocInit_eq_ok made).2 true
  have poolEq : palloc.userPool.toPool =
      { usedMap := List.replicate palloc.userPool.usedMap.bitCnt false,
        base := palloc.userPool.base } := by
    simpa [PackedPool.toPool, Palloc.pool] using cleared
  rw [poolEq]
  obtain ⟨vm₁, ran, handed⟩ :=
    assignPages_handed findSpinfoByKpage (handed_init _ slots _ palloc.userPool.base files owner)
      (Nat.le_refl _)
      fewer.le
  obtain ⟨vm₂, assigned, nullFrame⟩ := assignPage_exhausted findSpinfoByKpage handed fewer
  exact ⟨vm₂, _, by
    simp only [assignPages, ran, assigned, bind, Except.bind, pure, Except.pure]
    rfl, nullFrame⟩

end Assign

/-- 4 MB of RAM and `-ul 2`: one user page and 383 frames. -/
theorem limitedBoot_runs_out :
    (0x400 ≤ 0x4000 ∧ 2 < (0x400 - 256) / 2) ∧
      ∃ palloc frames, pallocInit 0x400 2 (fun _ => 0) (fun _ => 0) (fun _ => 0) = .ok palloc ∧
        initFrametable 0x400 = .ok frames ∧
        (palloc.userPool.usedMap.bitCnt : Int) < frames ∧
        ∃ vm pages, assignPages firstSpinfoByKpage
            (init frames.toNat 4 palloc.userPool.toPool fun _ => []) 1
            (palloc.userPool.usedMap.bitCnt + 1) = .ok (vm, pages ++ [none]) ∧
          vm.frametable[palloc.userPool.usedMap.bitCnt]? =
            some { isfilled := true, page := none, owner := some 1 } := by
  obtain ⟨palloc, made⟩ :
      ∃ palloc, pallocInit 0x400 2 (fun _ => 0) (fun _ => 0) (fun _ => 0) = .ok palloc := ⟨_, rfl⟩
  obtain ⟨frames, counted⟩ : ∃ frames, initFrametable 0x400 = .ok frames := ⟨_, rfl⟩
  have bounds : 0x400 ≤ 0x4000 ∧ 2 < (0x400 - 256) / 2 := by decide
  exact ⟨bounds, palloc, frames, made, counted,
    userPool_runs_out_first firstSpinfoByKpage bounds.1 made counted bounds.2 4 1 fun _ => []⟩

end Pintos.Vm
