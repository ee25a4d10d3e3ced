import Mathlib
import Pintos.Comparison

/-!
# Binary heaps in arrays

An array of `n` values is a function on the positions `1 .. n`, with the children of
position `k` at `2k` and `2k + 1`.  `siftDown` floats the value at a position down until
it is at least its children, `buildHeap` makes a heap by sifting every parent from the
last one back to the root, and `sortHeap` repeatedly swaps the root behind the heap and
sifts the new root.  `Rearranged` says that an array holds the values of another at the
positions `1 .. n` in some order and agrees with it elsewhere.

The order proofs follow the sift: `SiftInv` is heap order on the pairs away from the
sifted position, `SiftInv.move` is one swap and `SiftInv.finish` the stop; `Extracting`
is the state of the sorting loop.
-/

namespace Pintos.BinaryHeap

open Comparison

variable {α : Type} (compare : α → α → Int)

/-! ## Rearrangements -/

/-- `b` holds the values of `a` at the positions `1 .. n` in some order, and the values of
`a` everywhere else. -/
def Rearranged (n : Nat) (a b : Nat → α) : Prop :=
  ∃ σ : Equiv.Perm Nat, (∀ k, k = 0 ∨ n < k → σ k = k) ∧ b = a ∘ σ

section Rearranged

variable {compare} {n m : Nat} {a b c : Nat → α}

theorem Rearranged.refl (n : Nat) (a : Nat → α) : Rearranged n a a :=
  ⟨Equiv.refl Nat, fun _ _ => rfl, rfl⟩

theorem Rearranged.trans (first : Rearranged n a b) (second : Rearranged n b c) :
    Rearranged n a c := by
  obtain ⟨σ, σFixes, rfl⟩ := first
  obtain ⟨τ, τFixes, rfl⟩ := second
  exact ⟨τ.trans σ, fun k out => by simp [τFixes k out, σFixes k out], rfl⟩

theorem rearranged_swap (a : Nat → α) {i j : Nat} (iInside : 1 ≤ i ∧ i ≤ n)
    (jInside : 1 ≤ j ∧ j ≤ n) : Rearranged n a (a ∘ Equiv.swap i j) :=
  ⟨Equiv.swap i j, fun _ out => Equiv.swap_apply_of_ne_of_ne (by omega) (by omega), rfl⟩

theorem Rearranged.mono (le : n ≤ m) (rearranged : Rearranged n a b) : Rearranged m a b := by
  obtain ⟨σ, fixes, rfl⟩ := rearranged
  exact ⟨σ, fun k out => fixes k (by omega), rfl⟩

theorem Rearranged.eq_of_outside (rearranged : Rearranged n a b) {k : Nat} (out : k = 0 ∨ n < k) :
    b k = a k := by
  obtain ⟨σ, fixes, rfl⟩ := rearranged
  simp [fixes k out]

theorem mapsTo_of_fixes {σ : Equiv.Perm Nat} (fixes : ∀ k, k = 0 ∨ n < k → σ k = k) {k : Nat}
    (inside : 1 ≤ k ∧ k ≤ n) : 1 ≤ σ k ∧ σ k ≤ n := by
  by_contra outside
  have twice : σ (σ k) = σ k := fixes _ (by omega)
  have : σ k = k := σ.injective twice
  omega

theorem Rearranged.exists_eq (rearranged : Rearranged n a b) {k : Nat} (inside : 1 ≤ k ∧ k ≤ n) :
    ∃ k', (1 ≤ k' ∧ k' ≤ n) ∧ b k = a k' := by
  obtain ⟨σ, fixes, rfl⟩ := rearranged
  exact ⟨σ k, mapsTo_of_fixes fixes inside, rfl⟩

theorem Rearranged.perm (rearranged : Rearranged n a b) :
    ((List.range n).map fun p => b (p + 1)).Perm ((List.range n).map fun p => a (p + 1)) := by
  obtain ⟨σ, fixes, rfl⟩ := rearranged
  have inverse : ∀ k, k = 0 ∨ n < k → σ.symm k = k := fun k out => by
    rw [Equiv.symm_apply_eq]
    exact (fixes k out).symm
  have positions : ((List.range n).map fun p => σ (p + 1)).Perm ((List.range n).map fun p => p + 1) := by
    rw [List.perm_ext_iff_of_nodup
      (List.Nodup.map (fun x y same => by have := σ.injective same; omega) List.nodup_range)
      (List.Nodup.map (fun x y same => by omega) List.nodup_range)]
    intro x
    simp only [List.mem_map, List.mem_range]
    constructor
    · rintro ⟨p, less, rfl⟩
      have := mapsTo_of_fixes fixes (show 1 ≤ p + 1 ∧ p + 1 ≤ n by omega)
      exact ⟨σ (p + 1) - 1, by omega, by omega⟩
    · rintro ⟨p, less, rfl⟩
      have := mapsTo_of_fixes inverse (show 1 ≤ p + 1 ∧ p + 1 ≤ n by omega)
      exact ⟨σ.symm (p + 1) - 1, by omega, by rw [Nat.sub_add_cancel this.1]; simp⟩
  simpa [List.map_map, Function.comp_def] using positions.map a

end Rearranged

/-! ## Sifting down -/

/-- Position `k`, or the larger of its children within `n` when one is larger: where the
sift moves the value at `k`. -/
def largest (a : Nat → α) (n k : Nat) : Nat :=
  let max := if 2 * k ≤ n ∧ 0 < compare (a (2 * k)) (a k) then 2 * k else k
  if 2 * k + 1 ≤ n ∧ 0 < compare (a (2 * k + 1)) (a max) then 2 * k + 1 else max

theorem largest_eq_or (a : Nat → α) (n k : Nat) :
    largest compare a n k = k ∨
      largest compare a n k ≤ n ∧ largest compare a n k / 2 = k ∧ k < largest compare a n k := by
  unfold largest
  dsimp only
  split_ifs <;> omega

/-- Float the value at position `k` down the heap of `n` values. -/
def siftDown (a : Nat → α) (n k : Nat) : Nat → α :=
  if largest compare a n k = k then a
  else siftDown (a ∘ Equiv.swap k (largest compare a n k)) n (largest compare a n k)
termination_by n + 1 - k
decreasing_by
  have := largest_eq_or compare a n k
  omega

/-- Every position from `t` on holds a value at least those of its children within `n`. -/
def HeapFrom (a : Nat → α) (n t : Nat) : Prop :=
  ∀ j, 2 ≤ j → j ≤ n → t ≤ j / 2 → compare (a j) (a (j / 2)) ≤ 0

/-- The order during a sift from `i` that has reached `k`: every pair below `i` is in order
except those whose parent is `k`, and the children of `k` are at most the parent of `k`. -/
structure SiftInv (a : Nat → α) (n i k : Nat) : Prop where
  ordered : ∀ j, 2 ≤ j → j ≤ n → i ≤ j / 2 → j / 2 ≠ k → compare (a j) (a (j / 2)) ≤ 0
  bridge : i < k → ∀ j, 2 ≤ j → j ≤ n → j / 2 = k → compare (a j) (a (k / 2)) ≤ 0

theorem SiftInv.start {a : Nat → α} {n i : Nat} (heap : HeapFrom compare a n (i + 1)) :
    SiftInv compare a n i i :=
  ⟨fun j two inside above other => heap j two inside (by omega),
    fun less => absurd less (Nat.lt_irrefl i)⟩

section Order

variable {compare} [Std.TransCmp (ordering compare)] {a : Nat → α} {n i k : Nat}

theorem largest_pos (moved : largest compare a n k ≠ k) :
    0 < compare (a (largest compare a n k)) (a k) := by
  unfold largest at moved ⊢
  dsimp only at moved ⊢
  by_cases left : 2 * k ≤ n ∧ 0 < compare (a (2 * k)) (a k)
  · rw [if_pos left] at moved ⊢
    by_cases right : 2 * k + 1 ≤ n ∧ 0 < compare (a (2 * k + 1)) (a (2 * k))
    · rw [if_pos right]
      exact pos_trans right.2 left.2
    · rw [if_neg right]
      exact left.2
  · rw [if_neg left] at moved ⊢
    by_cases right : 2 * k + 1 ≤ n ∧ 0 < compare (a (2 * k + 1)) (a k)
    · rw [if_pos right]
      exact right.2
    · rw [if_neg right] at moved
      exact absurd rfl moved

theorem child_nonpos_largest {c : Nat} (child : c / 2 = k) (two : 2 ≤ c) (inside : c ≤ n) :
    compare (a c) (a (largest compare a n k)) ≤ 0 := by
  have which : c = 2 * k ∨ c = 2 * k + 1 := by omega
  unfold largest
  dsimp only
  by_cases left : 2 * k ≤ n ∧ 0 < compare (a (2 * k)) (a k)
  · rw [if_pos left]
    by_cases right : 2 * k + 1 ≤ n ∧ 0 < compare (a (2 * k + 1)) (a (2 * k))
    · rw [if_pos right]
      rcases which with rfl | rfl
      · exact Int.le_of_lt (neg_of_pos right.2)
      · exact self_nonpos
    · rw [if_neg right]
      rcases which with rfl | rfl
      · exact self_nonpos
      · exact Int.not_lt.mp fun larger => right ⟨inside, larger⟩
  · rw [if_neg left]
    have leftAtMost : 2 * k ≤ n → compare (a (2 * k)) (a k) ≤ 0 :=
      fun le => Int.not_lt.mp fun larger => left ⟨le, larger⟩
    by_cases right : 2 * k + 1 ≤ n ∧ 0 < compare (a (2 * k + 1)) (a k)
    · rw [if_pos right]
      rcases which with rfl | rfl
      · exact Int.le_of_lt (neg_of_nonpos_of_neg (leftAtMost inside) (neg_of_pos right.2))
      · exact self_nonpos
    · rw [if_neg right]
      rcases which with rfl | rfl
      · exact leftAtMost inside
      · exact Int.not_lt.mp fun larger => right ⟨inside, larger⟩

theorem SiftInv.finish (inv : SiftInv compare a n i k) (stays : largest compare a n k = k) :
    HeapFrom compare a n i := by
  intro j two inside above
  by_cases parent : j / 2 = k
  · have : compare (a j) (a (largest compare a n k)) ≤ 0 := child_nonpos_largest parent two inside
    rwa [stays, ← parent] at this
  · exact inv.ordered j two inside above parent

theorem SiftInv.move (inv : SiftInv compare a n i k) (below : i ≤ k)
    (moved : largest compare a n k ≠ k) :
    SiftInv compare (a ∘ Equiv.swap k (largest compare a n k)) n i (largest compare a n k) := by
  obtain ⟨inside, parent, deeper⟩ := (largest_eq_or compare a n k).resolve_left moved
  have larger := largest_pos moved
  set m := largest compare a n k with hm
  have other : ∀ j, j ≠ k → j ≠ m → (a ∘ Equiv.swap k m) j = a j :=
    fun j notK notM => by simp [Equiv.swap_apply_of_ne_of_ne notK notM]
  have atK : (a ∘ Equiv.swap k m) k = a m := by simp
  have atM : (a ∘ Equiv.swap k m) m = a k := by simp
  constructor
  · intro j two jInside above notM
    by_cases isM : j = m
    · -- the old value of `k` went down to `m`, below the larger child
      rw [isM, parent, atM, atK]
      exact Int.le_of_lt (neg_of_pos larger)
    by_cases isK : j = k
    · -- the larger child came up to `k`, below the parent of `k`
      rw [isK, atK, other (k / 2) (by omega) (by omega)]
      exact inv.bridge (by omega) m (by omega) inside parent
    rw [other j isK isM]
    by_cases childOfK : j / 2 = k
    · rw [childOfK, atK]
      exact child_nonpos_largest childOfK two jInside
    · rw [other (j / 2) childOfK notM]
      exact inv.ordered j two jInside above childOfK
  · intro _ j two jInside childOfM
    rw [parent, atK, other j (by omega) (by omega)]
    have := inv.ordered j two jInside (by omega) (by omega)
    rwa [childOfM] at this

theorem siftDown_spec (inv : SiftInv compare a n i k) (below : i ≤ k) (positive : 1 ≤ k) :
    HeapFrom compare (siftDown compare a n k) n i ∧ Rearranged n a (siftDown compare a n k) := by
  fun_induction siftDown compare a n k with
  | case1 a k stays =>
    exact ⟨inv.finish stays, .refl n a⟩
  | case2 a k moved ih =>
    obtain ⟨inside, -, deeper⟩ := (largest_eq_or compare a n k).resolve_left moved
    obtain ⟨heap, rearranged⟩ := ih (inv.move below moved) (by omega) (by omega)
    exact ⟨heap, (rearranged_swap a ⟨positive, by omega⟩ ⟨by omega, inside⟩).trans rearranged⟩

theorem HeapFrom.root_max (heap : HeapFrom compare a n 1) :
    ∀ j, 1 ≤ j → j ≤ n → compare (a j) (a 1) ≤ 0 := by
  intro j
  induction j using Nat.strongRecOn with
  | ind j ih =>
    intro positive inside
    rcases (show j = 1 ∨ 2 ≤ j by omega) with rfl | two
    · exact self_nonpos
    · exact nonpos_trans (heap j two inside (by omega)) (ih (j / 2) (by omega) (by omega) (by omega))

end Order

/-! ## Heap sort -/

/-- Sift every position from `i` back to the root. -/
def buildHeap (n : Nat) : (Nat → α) → Nat → (Nat → α)
  | a, 0 => a
  | a, i + 1 => buildHeap n (siftDown compare a n (i + 1)) i

/-- With a heap of `i` values, swap the root behind it and sift the new root, until one
value is left. -/
def sortHeap : (Nat → α) → Nat → (Nat → α)
  | a, 0 => a
  | a, 1 => a
  | a, i + 2 => sortHeap (siftDown compare (a ∘ Equiv.swap 1 (i + 2)) (i + 1) 1) (i + 1)

def heapSort (a : Nat → α) (n : Nat) : Nat → α :=
  sortHeap compare (buildHeap compare n a (n / 2)) n

/-- The values at `1 .. n` are in nondecreasing order. -/
def InOrder (a : Nat → α) (n : Nat) : Prop :=
  ∀ j k, 1 ≤ j → j ≤ k → k ≤ n → compare (a j) (a k) ≤ 0

theorem InOrder.sorted {compare} {a : Nat → α} {n : Nat} (inOrder : InOrder compare a n) :
    Sorted compare ((List.range n).map fun p => a (p + 1)) := by
  unfold Sorted
  rw [List.pairwise_iff_getElem]
  intro p q pInside qInside less
  simp only [List.length_map, List.length_range] at pInside qInside
  simp only [List.getElem_map, List.getElem_range]
  exact inOrder (p + 1) (q + 1) (by omega) (by omega) (by omega)

/-- The sorting loop with a heap of `i` values: the heap, the values behind it in order,
and each of those at least every value of the heap. -/
structure Extracting (a : Nat → α) (n i : Nat) : Prop where
  heap : HeapFrom compare a i 1
  tail : ∀ j k, i < j → j ≤ k → k ≤ n → compare (a j) (a k) ≤ 0
  split : ∀ j k, 1 ≤ j → j ≤ i → i < k → k ≤ n → compare (a j) (a k) ≤ 0

section Sorting

variable {compare} [Std.TransCmp (ordering compare)] {n : Nat}

theorem buildHeap_spec (i : Nat) {a : Nat → α} (heap : HeapFrom compare a n (i + 1)) :
    HeapFrom compare (buildHeap compare n a i) n 1 ∧ Rearranged n a (buildHeap compare n a i) := by
  induction i generalizing a with
  | zero => exact ⟨heap, .refl n a⟩
  | succ i ih =>
    obtain ⟨sifted, moved⟩ := siftDown_spec (SiftInv.start compare heap) (Nat.le_refl _) (by omega)
    obtain ⟨built, rest⟩ := ih sifted
    exact ⟨built, moved.trans rest⟩

theorem Extracting.extract {a : Nat → α} {i : Nat} (state : Extracting compare a n (i + 2)) :
    Extracting compare (siftDown compare (a ∘ Equiv.swap 1 (i + 2)) (i + 1) 1) n (i + 1) ∧
      Rearranged (i + 2) a (siftDown compare (a ∘ Equiv.swap 1 (i + 2)) (i + 1) 1) := by
  have other : ∀ j, j ≠ 1 → j ≠ i + 2 → (a ∘ Equiv.swap 1 (i + 2)) j = a j :=
    fun j notRoot notLast => by simp [Equiv.swap_apply_of_ne_of_ne notRoot notLast]
  have atRoot : (a ∘ Equiv.swap 1 (i + 2)) 1 = a (i + 2) := by simp
  have atLast : (a ∘ Equiv.swap 1 (i + 2)) (i + 2) = a 1 := by simp
  have start : SiftInv compare (a ∘ Equiv.swap 1 (i + 2)) (i + 1) 1 1 := by
    refine ⟨fun j two jInside _ notRoot => ?_, fun less => absurd less (Nat.lt_irrefl 1)⟩
    rw [other j (by omega) (by omega), other (j / 2) notRoot (by omega)]
    exact state.heap j two (by omega) (by omega)
  obtain ⟨heap, rearranged⟩ := siftDown_spec start (Nat.le_refl 1) (Nat.le_refl 1)
  have rootMax := state.heap.root_max
  -- every value of the shrunk heap was a value of the old heap
  have fromHeap : ∀ j, 1 ≤ j → j ≤ i + 1 →
      ∃ j', (1 ≤ j' ∧ j' ≤ i + 2) ∧ (a ∘ Equiv.swap 1 (i + 2)) j = a j' := by
    intro j positive jInside
    by_cases root : j = 1
    · exact ⟨i + 2, ⟨by omega, Nat.le_refl _⟩, by rw [root, atRoot]⟩
    · exact ⟨j, ⟨positive, by omega⟩, other j root (by omega)⟩
  refine ⟨⟨heap, ?_, ?_⟩,
    (rearranged_swap a ⟨Nat.le_refl 1, by omega⟩ ⟨by omega, Nat.le_refl _⟩).trans
      (rearranged.mono (by omega))⟩
  · intro j k after le last
    rw [rearranged.eq_of_outside (Or.inr after), rearranged.eq_of_outside (Or.inr (by omega))]
    rcases (show j = i + 2 ∨ i + 2 < j by omega) with rfl | later
    · rcases (show k = i + 2 ∨ i + 2 < k by omega) with rfl | kLater
      · exact self_nonpos
      · rw [atLast, other k (by omega) (by omega)]
        exact state.split 1 k (Nat.le_refl 1) (by omega) kLater last
    · rw [other j (by omega) (by omega), other k (by omega) (by omega)]
      exact state.tail j k later le last
  · intro j k positive jInside after last
    obtain ⟨j', j'Inside, moved⟩ := rearranged.exists_eq ⟨positive, jInside⟩
    obtain ⟨j'', j''Inside, swapped⟩ := fromHeap j' j'Inside.1 j'Inside.2
    rw [moved, swapped, rearranged.eq_of_outside (Or.inr after)]
    rcases (show k = i + 2 ∨ i + 2 < k by omega) with rfl | kLater
    · rw [atLast]
      exact rootMax j'' j''Inside.1 j''Inside.2
    · rw [other k (by omega) (by omega)]
      exact state.split j'' k j''Inside.1 j''Inside.2 kLater last

theorem sortHeap_spec (i : Nat) {a : Nat → α} (state : Extracting compare a n i) (positive : 1 ≤ i)
    (inside : i ≤ n) :
    InOrder compare (sortHeap compare a i) n ∧ Rearranged n a (sortHeap compare a i) := by
  induction i generalizing a with
  | zero => omega
  | succ i ih =>
    cases i with
    | zero =>
      refine ⟨fun j k jPositive le last => ?_, .refl n a⟩
      rcases (show j = 1 ∨ 1 < j by omega) with rfl | later
      · rcases (show k = 1 ∨ 1 < k by omega) with rfl | kLater
        · exact self_nonpos
        · exact state.split 1 k (Nat.le_refl 1) (Nat.le_refl 1) kLater last
      · exact state.tail j k later le last
    | succ i =>
      obtain ⟨next, extracted⟩ := state.extract
      obtain ⟨sorted, rest⟩ := ih next (by omega) (by omega)
      exact ⟨sorted, (extracted.mono inside).trans rest⟩

theorem heapSort_spec (a : Nat → α) (n : Nat) :
    Sorted compare ((List.range n).map fun p => heapSort compare a n (p + 1)) ∧
      Rearranged n a (heapSort compare a n) := by
  -- past the middle every position is a leaf, so the heap holds from there on
  obtain ⟨heap, built⟩ : HeapFrom compare (buildHeap compare n a (n / 2)) n 1 ∧
      Rearranged n a (buildHeap compare n a (n / 2)) :=
    buildHeap_spec (n / 2) fun j two inside above => by omega
  rcases Nat.eq_zero_or_pos n with rfl | positive
  · exact ⟨List.Pairwise.nil, by simpa [heapSort, sortHeap] using built⟩
  · obtain ⟨inOrder, sorted⟩ := sortHeap_spec n
      ⟨heap, fun j k after le last => by omega, fun j k _ _ after last => by omega⟩
      positive (Nat.le_refl n)
    exact ⟨inOrder.sorted, built.trans sorted⟩

end Sorting

end Pintos.BinaryHeap
