import Mathlib
import Pintos.BinaryHeap
import Pintos.Memory
import Pintos.Lib.Search

/-!
# Heap sort (lib/stdlib.c)

`sort` sorts CNT elements of SIZE bytes in place: it builds a heap with `heapify` and then
swaps the root behind the heap and sifts until one element is left.  Elements have 1-based
indexes, `do_swap` exchanges two of them byte by byte, and the comparison is any function of
the memory and two element pointers, with AUX closed over.  A memory `Represents` the value
array `a` when element `p` holds the bytes `a (p + 1)`; each routine is shown to act on the
values as its counterpart in `BinaryHeap` does.
-/

namespace Pintos.HeapSort

open Comparison BinaryHeap

/-- `do_swap`: exchange, byte by byte, the elements with 1-based indexes A_IDX and B_IDX. -/
def doSwap (memory : Nat → UInt8) (array aIdx bIdx size : Nat) : Nat → UInt8 :=
  let a := array + (aIdx - 1) * size
  let b := array + (bIdx - 1) * size
  (List.range size).foldl (fun memory i =>
    let t := memory (a + i)
    Function.update (Function.update memory (a + i) (memory (b + i))) (b + i) t) memory

/-- `do_compare`: compare the elements with 1-based indexes A_IDX and B_IDX. -/
def doCompare (memory : Nat → UInt8) (array aIdx bIdx size : Nat)
    (compare : (Nat → UInt8) → Nat → Nat → Int) : Int :=
  compare memory (array + (aIdx - 1) * size) (array + (bIdx - 1) * size)

/-- The index `heapify` calls `max`: I, or the larger of its children within CNT. -/
def heapifyMax (memory : Nat → UInt8) (array i cnt size : Nat)
    (compare : (Nat → UInt8) → Nat → Nat → Int) : Nat :=
  let left := 2 * i % 2 ^ 32
  let right := (2 * i + 1) % 2 ^ 32
  let max := if left ≤ cnt ∧ 0 < doCompare memory array left i size compare then left else i
  if right ≤ cnt ∧ 0 < doCompare memory array right max size compare then right else max

/-- The loop of `heapify`, with a unit of fuel per turn. -/
def heapifyLoop (array cnt size : Nat) (compare : (Nat → UInt8) → Nat → Nat → Int) :
    Nat → (Nat → UInt8) → Nat → Except String (Nat → UInt8)
  | 0, _, _ => .error "out of fuel"
  | fuel + 1, memory, i =>
      let max := heapifyMax memory array i cnt size compare
      if max = i then .ok memory
      else heapifyLoop array cnt size compare fuel (doSwap memory array i max size) max

/-- `heapify`: float element I down the heap of CNT elements.  I rises every turn, so
`cnt + 1` turns are enough. -/
def heapify (memory : Nat → UInt8) (array i cnt size : Nat)
    (compare : (Nat → UInt8) → Nat → Nat → Int) : Except String (Nat → UInt8) :=
  heapifyLoop array cnt size compare (cnt + 1) memory i

/-- The first loop of `sort`: heapify I for I from the given index down to 1. -/
def buildLoop (array cnt size : Nat) (compare : (Nat → UInt8) → Nat → Nat → Int) :
    Nat → (Nat → UInt8) → Except String (Nat → UInt8)
  | 0, memory => .ok memory
  | i + 1, memory => do
      let memory ← heapify memory array (i + 1) cnt size compare
      buildLoop array cnt size compare i memory

/-- The second loop of `sort`, from a heap of I elements down to one. -/
def sortLoop (array size : Nat) (compare : (Nat → UInt8) → Nat → Nat → Int) :
    Nat → (Nat → UInt8) → Except String (Nat → UInt8)
  | 0, memory => .ok memory
  | 1, memory => .ok memory
  | i + 2, memory => do
      let memory := doSwap memory array 1 (i + 2) size
      let memory ← heapify memory array 1 (i + 1) size compare
      sortLoop array size compare (i + 1) memory

def sort (memory : Nat → UInt8) (array cnt size : Nat)
    (compare : (Nat → UInt8) → Nat → Nat → Int) : Except String (Nat → UInt8) := do
  if array = 0 ∧ cnt ≠ 0 then throw "assertion array != NULL || cnt == 0 failed"
  if size = 0 then throw "assertion size > 0 failed"
  let memory ← buildLoop array cnt size compare (cnt / 2) memory
  sortLoop array size compare cnt memory

def qsort (memory : Nat → UInt8) (array cnt size : Nat)
    (compare : (Nat → UInt8) → Nat → Nat → Int) : Except String (Nat → UInt8) :=
  sort memory array cnt size fun memory => Search.compareThunk (compare memory)

/-- The CNT elements of the array, in order. -/
def elements (memory : Nat → UInt8) (array cnt size : Nat) : List (List UInt8) :=
  (List.range cnt).map fun p => Memory.read memory (array + p * size) size

/-! ## Bytes -/

/-- Where a byte comes from after the ranges of `size` bytes at `a` and `b` are exchanged. -/
def swapSource (a b size x : Nat) : Nat :=
  if a ≤ x ∧ x < a + size then x - a + b
  else if b ≤ x ∧ x < b + size then x - b + a
  else x

theorem apart_of_ne {p q size o : Nat} (different : p ≠ q) (small : o < size) :
    p * size + o < q * size ∨ q * size + size ≤ p * size + o := by
  rcases Nat.lt_or_gt_of_ne different with less | more
  · have : (p + 1) * size ≤ q * size := Nat.mul_le_mul_right size less
    rw [Nat.add_one_mul] at this
    omega
  · have : (q + 1) * size ≤ p * size := Nat.mul_le_mul_right size more
    rw [Nat.add_one_mul] at this
    omega

/-- The first `count` turns of the byte loop of `do_swap` exchange the first `count` bytes. -/
theorem swapBytes_eq (memory : Nat → UInt8) {a b size : Nat}
    (apart : a = b ∨ a + size ≤ b ∨ b + size ≤ a) {count : Nat} (le : count ≤ size) :
    (List.range count).foldl (fun memory i =>
        Function.update (Function.update memory (a + i) (memory (b + i))) (b + i) (memory (a + i)))
      memory = memory ∘ swapSource a b count := by
  induction count with
  | zero =>
    funext x
    simp only [List.range_zero, List.foldl_nil, Function.comp_apply, swapSource]
    rw [if_neg (by omega), if_neg (by omega)]
  | succ count ih =>
    rw [List.range_succ, List.foldl_append, List.foldl_cons, List.foldl_nil, ih (by omega)]
    funext x
    simp only [Function.update_apply, Function.comp_apply]
    by_cases atB : x = b + count
    · rw [if_pos atB, atB]
      congr 1
      unfold swapSource
      split_ifs <;> omega
    · by_cases atA : x = a + count
      · rw [if_neg atB, if_pos atA, atA]
        congr 1
        unfold swapSource
        split_ifs <;> omega
      · rw [if_neg atB, if_neg atA]
        congr 1
        unfold swapSource
        split_ifs <;> omega

theorem doSwap_eq (memory : Nat → UInt8) (array aIdx bIdx size : Nat) :
    doSwap memory array aIdx bIdx size =
      memory ∘ swapSource (array + (aIdx - 1) * size) (array + (bIdx - 1) * size) size := by
  have apart : array + (aIdx - 1) * size = array + (bIdx - 1) * size ∨
      array + (aIdx - 1) * size + size ≤ array + (bIdx - 1) * size ∨
      array + (bIdx - 1) * size + size ≤ array + (aIdx - 1) * size := by
    by_cases same : aIdx - 1 = bIdx - 1
    · exact .inl (by rw [same])
    · rcases Nat.eq_zero_or_pos size with zero | positive
      · subst zero
        simp
      · have first := apart_of_ne same positive
        have last := apart_of_ne same (show size - 1 < size by omega)
        omega
  exact swapBytes_eq memory apart (Nat.le_refl size)

/-! ## Values -/

/-- The memory holds value `a (p + 1)` in element `p`: `a` is the array with 1-based
indexes. -/
def Represents (memory : Nat → UInt8) (array size : Nat) (a : Nat → List UInt8) : Prop :=
  ∀ p, Memory.read memory (array + p * size) size = a (p + 1)

/-- Addresses outside the first `n` elements. -/
def Outside (array n size x : Nat) : Prop := x < array ∨ array + n * size ≤ x

/-- `memory'` agrees with `memory` outside the first `n` elements. -/
def Framed (array n size : Nat) (memory memory' : Nat → UInt8) : Prop :=
  ∀ x, Outside array n size x → memory' x = memory x

section Values

variable {array size : Nat} {memory memory' memory'' : Nat → UInt8} {a : Nat → List UInt8}

theorem represents_read (memory : Nat → UInt8) (array size : Nat) :
    Represents memory array size fun i => Memory.read memory (array + (i - 1) * size) size :=
  fun p => by simp

theorem Represents.elements (represents : Represents memory array size a) (cnt : Nat) :
    elements memory array cnt size = (List.range cnt).map fun p => a (p + 1) :=
  List.map_congr_left fun p _ => represents p

theorem Framed.refl (array n size : Nat) (memory : Nat → UInt8) : Framed array n size memory memory :=
  fun _ _ => rfl

theorem Framed.trans {n : Nat} (first : Framed array n size memory memory')
    (second : Framed array n size memory' memory'') : Framed array n size memory memory'' :=
  fun x out => (second x out).trans (first x out)

theorem Framed.mono {n m : Nat} (le : n ≤ m) (framed : Framed array n size memory memory') :
    Framed array m size memory memory' := by
  intro x out
  have : n * size ≤ m * size := Nat.mul_le_mul_right size le
  exact framed x (by unfold Outside at out ⊢; omega)

/-- `do_swap` swaps the values of two elements, and no byte outside the array. -/
theorem doSwap_represents (represents : Represents memory array size a) {i j n : Nat}
    (iInside : 1 ≤ i ∧ i ≤ n) (jInside : 1 ≤ j ∧ j ≤ n) :
    Represents (doSwap memory array i j size) array size (a ∘ Equiv.swap i j) ∧
      Framed array n size memory (doSwap memory array i j size) := by
  rw [doSwap_eq]
  constructor
  · intro p
    have source : ∀ o, o < size →
        swapSource (array + (i - 1) * size) (array + (j - 1) * size) size (array + p * size + o) =
          array + (Equiv.swap (i - 1) (j - 1) p) * size + o := by
      intro o small
      rw [Equiv.swap_apply_def]
      by_cases atI : p = i - 1
      · subst atI
        unfold swapSource
        split_ifs <;> omega
      · have apartI := apart_of_ne atI small
        by_cases atJ : p = j - 1
        · subst atJ
          unfold swapSource
          split_ifs <;> omega
        · have apartJ := apart_of_ne atJ small
          unfold swapSource
          split_ifs <;> omega
    have moved : Memory.read (memory ∘ swapSource (array + (i - 1) * size)
        (array + (j - 1) * size) size) (array + p * size) size =
        Memory.read memory (array + (Equiv.swap (i - 1) (j - 1) p) * size) size := by
      unfold Memory.read
      exact List.map_congr_left fun o inside => by
        simp only [Function.comp_apply, Nat.add_assoc] at source ⊢
        rw [source o (List.mem_range.mp inside)]
    rw [moved, represents, Function.comp_apply, Equiv.swap_apply_def, Equiv.swap_apply_def]
    split_ifs <;> first | omega | (congr 1 <;> omega)
  · intro x out
    have : i * size ≤ n * size := Nat.mul_le_mul_right size iInside.2
    have : j * size ≤ n * size := Nat.mul_le_mul_right size jInside.2
    have iEnd : (i - 1) * size + size = i * size := by
      rw [← Nat.add_one_mul, Nat.sub_add_cancel iInside.1]
    have jEnd : (j - 1) * size + size = j * size := by
      rw [← Nat.add_one_mul, Nat.sub_add_cancel jInside.1]
    simp only [Function.comp_apply]
    congr 1
    unfold swapSource Outside at *
    split_ifs <;> omega

theorem doCompare_eq {cmp : List UInt8 → List UInt8 → Int} {compare : (Nat → UInt8) → Nat → Nat → Int}
    (reads : ∀ memory p q, compare memory p q = cmp (Memory.read memory p size) (Memory.read memory q size))
    (represents : Represents memory array size a) {i j : Nat} (iPositive : 1 ≤ i) (jPositive : 1 ≤ j) :
    doCompare memory array i j size compare = cmp (a i) (a j) := by
  rw [doCompare, reads, represents, represents, Nat.sub_add_cancel iPositive,
    Nat.sub_add_cancel jPositive]

end Values

/-! ## Refinement -/

section Refinement

variable {array size : Nat} {cmp : List UInt8 → List UInt8 → Int}
  {compare : (Nat → UInt8) → Nat → Nat → Int}
  (reads : ∀ memory p q,
    compare memory p q = cmp (Memory.read memory p size) (Memory.read memory q size))
include reads

theorem heapifyMax_eq {memory : Nat → UInt8} {a : Nat → List UInt8}
    (represents : Represents memory array size a) {k n : Nat} (positive : 1 ≤ k)
    (small : 2 * k + 1 < 2 ^ 32) :
    heapifyMax memory array k n size compare = largest cmp a n k := by
  have left : 2 * k % 2 ^ 32 = 2 * k := Nat.mod_eq_of_lt (by omega)
  have right : (2 * k + 1) % 2 ^ 32 = 2 * k + 1 := Nat.mod_eq_of_lt small
  unfold heapifyMax largest
  simp only [left, right,
    doCompare_eq reads represents (show 1 ≤ 2 * k by omega) positive]
  -- the right child is compared with whichever index the left comparison kept
  by_cases first : 2 * k ≤ n ∧ 0 < cmp (a (2 * k)) (a k)
  · rw [if_pos first,
      doCompare_eq reads represents (show 1 ≤ 2 * k + 1 by omega) (show 1 ≤ 2 * k by omega)]
  · rw [if_neg first, doCompare_eq reads represents (show 1 ≤ 2 * k + 1 by omega) positive]

theorem heapifyLoop_spec {n : Nat} (small : 2 * n + 1 < 2 ^ 32) {fuel : Nat} :
    ∀ {memory : Nat → UInt8} {a : Nat → List UInt8} {k : Nat},
      Represents memory array size a → 1 ≤ k → k ≤ n → n - k < fuel →
      ∃ memory', heapifyLoop array n size compare fuel memory k = .ok memory' ∧
        Represents memory' array size (siftDown cmp a n k) ∧ Framed array n size memory memory' := by
  induction fuel with
  | zero => intros; omega
  | succ fuel ih =>
    intro memory a k represents positive inside enough
    rw [heapifyLoop, siftDown]
    simp only [heapifyMax_eq reads represents positive (show 2 * k + 1 < 2 ^ 32 by omega)]
    by_cases stays : largest cmp a n k = k
    · rw [if_pos stays, if_pos stays]
      exact ⟨memory, rfl, represents, .refl array n size memory⟩
    · rw [if_neg stays, if_neg stays]
      obtain ⟨below, -, deeper⟩ := (largest_eq_or cmp a n k).resolve_left stays
      obtain ⟨swapped, framed⟩ := doSwap_represents represents ⟨positive, inside⟩ ⟨by omega, below⟩
      obtain ⟨memory', run, result, rest⟩ := ih swapped (by omega) below (by omega)
      exact ⟨memory', run, result, framed.trans rest⟩

theorem heapify_spec {n : Nat} (small : 2 * n + 1 < 2 ^ 32) {memory : Nat → UInt8}
    {a : Nat → List UInt8} {k : Nat} (represents : Represents memory array size a)
    (positive : 1 ≤ k) (inside : k ≤ n) :
    ∃ memory', heapify memory array k n size compare = .ok memory' ∧
      Represents memory' array size (siftDown cmp a n k) ∧ Framed array n size memory memory' :=
  heapifyLoop_spec reads small represents positive inside (by omega)

theorem buildLoop_spec {cnt : Nat} (small : 2 * cnt + 1 < 2 ^ 32) (i : Nat) :
    ∀ {memory : Nat → UInt8} {a : Nat → List UInt8}, i ≤ cnt → Represents memory array size a →
      ∃ memory', buildLoop array cnt size compare i memory = .ok memory' ∧
        Represents memory' array size (buildHeap cmp cnt a i) ∧
        Framed array cnt size memory memory' := by
  induction i with
  | zero =>
    intro memory a _ represents
    exact ⟨memory, rfl, represents, .refl array cnt size memory⟩
  | succ i ih =>
    intro memory a inside represents
    obtain ⟨sifted, run, result, framed⟩ :=
      heapify_spec reads small represents (show 1 ≤ i + 1 by omega) inside
    obtain ⟨memory', rest, final, framed'⟩ := ih (by omega) result
    refine ⟨memory', ?_, final, framed.trans framed'⟩
    rw [buildLoop, run]
    exact rest

theorem sortLoop_spec {cnt : Nat} (small : 2 * cnt + 1 < 2 ^ 32) (i : Nat) :
    ∀ {memory : Nat → UInt8} {a : Nat → List UInt8}, i ≤ cnt → Represents memory array size a →
      ∃ memory', sortLoop array size compare i memory = .ok memory' ∧
        Represents memory' array size (sortHeap cmp a i) ∧
        Framed array cnt size memory memory' := by
  induction i with
  | zero =>
    intro memory a _ represents
    exact ⟨memory, rfl, represents, .refl array cnt size memory⟩
  | succ i ih =>
    cases i with
    | zero =>
      intro memory a _ represents
      exact ⟨memory, rfl, represents, .refl array cnt size memory⟩
    | succ i =>
      intro memory a inside represents
      obtain ⟨swapped, swapFramed⟩ :=
        doSwap_represents represents ⟨Nat.le_refl 1, by omega⟩ ⟨by omega, inside⟩
      obtain ⟨sifted, run, result, siftFramed⟩ :=
        heapify_spec reads (show 2 * (i + 1) + 1 < 2 ^ 32 by omega) swapped (Nat.le_refl 1)
          (show 1 ≤ i + 1 by omega)
      obtain ⟨memory', rest, final, restFramed⟩ := ih (by omega) result
      refine ⟨memory', ?_, final,
        swapFramed.trans ((siftFramed.mono (by omega)).trans restFramed)⟩
      rw [sortLoop]
      simp only [run, bind, Except.bind]
      exact rest

end Refinement

theorem sort_spec {array cnt size : Nat} {cmp : List UInt8 → List UInt8 → Int}
    [Std.TransCmp (ordering cmp)] {compare : (Nat → UInt8) → Nat → Nat → Int}
    (reads : ∀ memory p q,
      compare memory p q = cmp (Memory.read memory p size) (Memory.read memory q size))
    (memory : Nat → UInt8) (valid : array ≠ 0 ∨ cnt = 0) (positive : 0 < size)
    (small : cnt ≤ (2 ^ 32 - 1) / 2) :
    ∃ memory', sort memory array cnt size compare = .ok memory' ∧
      qsort memory array cnt size compare = .ok memory' ∧
      (elements memory' array cnt size).Perm (elements memory array cnt size) ∧
      Sorted cmp (elements memory' array cnt size) ∧
      ∀ x, x < array ∨ array + cnt * size ≤ x → memory' x = memory x := by
  have bound : 2 * cnt + 1 < 2 ^ 32 := by omega
  have start := represents_read memory array size
  obtain ⟨built, buildRun, buildRep, buildFramed⟩ :=
    buildLoop_spec reads bound (cnt / 2) (Nat.div_le_self cnt 2) start
  obtain ⟨sorted, sortRun, sortRep, sortFramed⟩ :=
    sortLoop_spec reads bound cnt (Nat.le_refl cnt) buildRep
  have run : sort memory array cnt size compare = .ok sorted := by
    rw [sort, if_neg (show ¬ (array = 0 ∧ cnt ≠ 0) by omega), if_neg (show ¬ size = 0 by omega)]
    simp only [buildRun, sortRun, bind, Except.bind]
  obtain ⟨ordered, rearranged⟩ :=
    @heapSort_spec _ cmp _ (fun i => Memory.read memory (array + (i - 1) * size) size) cnt
  refine ⟨sorted, run, run, ?_, ?_, fun x out => (buildFramed.trans sortFramed) x out⟩
  · rw [sortRep.elements, start.elements]
    exact rearranged.perm
  · rw [sortRep.elements]
    exact ordered

/-- Three one-byte elements 3, 1, 2 at address 1. -/
def sampleBytes (x : Nat) : UInt8 := [0, 3, 1, 2].getD x 0

/-- Order one-byte elements by their byte. -/
def byteOrder (x y : List UInt8) : Int := ((x.headD 0).toNat : Int) - ((y.headD 0).toNat : Int)

theorem threeBytes_sorted :
    ∃ memory', sort sampleBytes 1 3 1
        (fun memory p q => byteOrder (Memory.read memory p 1) (Memory.read memory q 1)) =
        .ok memory' ∧
      qsort sampleBytes 1 3 1
        (fun memory p q => byteOrder (Memory.read memory p 1) (Memory.read memory q 1)) =
        .ok memory' ∧
      (elements memory' 1 3 1).Perm (elements sampleBytes 1 3 1) ∧
      Sorted byteOrder (elements memory' 1 3 1) ∧
      ∀ x, x < 1 ∨ 1 + 3 * 1 ≤ x → memory' x = sampleBytes x :=
  @sort_spec 1 3 1 byteOrder (transCmp_sub fun x : List UInt8 => ((x.headD 0).toNat : Int)) _
    (fun _ _ _ => rfl) sampleBytes (by decide) (by decide) (by decide)

example : (sort sampleBytes 1 3 1 (fun memory p q =>
    byteOrder (Memory.read memory p 1) (Memory.read memory q 1))).map
      (fun memory => elements memory 1 3 1) = .ok [[1], [2], [3]] := by
  decide

end Pintos.HeapSort
