import Mathlib
import Pintos.Comparison

/-!
# Binary search (lib/stdlib.c)

`binary_search` narrows a byte range `[first, last)` of the array: it moves `last` down
to the middle element or `first` past it, until the key compares equal to the middle
element or the range is empty.  `searchLoop` is that loop with a unit of fuel per turn;
the comparison is any function of the key and the element pointer, with AUX closed over.
`searchIndices` is the same loop over element indices, which `searchLoop` refines on
element boundaries, and `Partitioned` is what a sorted array gives the key's comparisons.
-/

namespace Pintos.Search

open Comparison

/-- The loop of `binary_search` over the byte range `[first, last)`. -/
def searchLoop (compare : Nat → Nat → Int) (key size : Nat) :
    Nat → Nat → Nat → Except String (Option Nat)
  | 0, _, _ => .error "out of fuel"
  | fuel + 1, first, last =>
      if first < last then
        let range := (last - first) / size
        let middle := first + range / 2 * size
        let cmp := compare key middle
        if cmp < 0 then searchLoop compare key size fuel first middle
        else if 0 < cmp then searchLoop compare key size fuel (middle + size) last
        else .ok (some middle)
      else .ok none

/-- `binary_search`: a pointer to an element equal to KEY, or `none` for a null pointer.
Each turn leaves fewer elements in the range, so `cnt + 1` turns are enough. -/
def binarySearch (key array cnt size : Nat) (compare : Nat → Nat → Int) :
    Except String (Option Nat) :=
  searchLoop compare key size (cnt + 1) array (array + size * cnt)

/-- `compare_thunk`: call the two-argument comparison that AUX points to. -/
def compareThunk (compare : Nat → Nat → Int) (a b : Nat) : Int := compare a b

def bsearch (key array cnt size : Nat) (compare : Nat → Nat → Int) :
    Except String (Option Nat) :=
  binarySearch key array cnt size (compareThunk compare)

/-- The loop of `binary_search` over element indices `[lo, hi)`; `probe i` compares the
key with element `i`. -/
def searchIndices (probe : Nat → Int) : Nat → Nat → Nat → Except String (Option Nat)
  | 0, _, _ => .error "out of fuel"
  | fuel + 1, lo, hi =>
      if lo < hi then
        let mid := lo + (hi - lo) / 2
        if probe mid < 0 then searchIndices probe fuel lo mid
        else if 0 < probe mid then searchIndices probe fuel (mid + 1) hi
        else .ok (some mid)
      else .ok none

theorem searchLoop_eq {size : Nat} (positive : 0 < size) (compare : Nat → Nat → Int)
    (key array fuel lo hi : Nat) :
    searchLoop compare key size fuel (array + lo * size) (array + hi * size) =
      (searchIndices (fun i => compare key (array + i * size)) fuel lo hi).map
        (Option.map fun i => array + i * size) := by
  induction fuel generalizing lo hi with
  | zero => rfl
  | succ fuel ih =>
    have range : (array + hi * size - (array + lo * size)) / size = hi - lo := by
      rw [Nat.add_sub_add_left, ← Nat.sub_mul, Nat.mul_div_cancel _ positive]
    have middle : array + lo * size + (hi - lo) / 2 * size =
        array + (lo + (hi - lo) / 2) * size := by
      rw [Nat.add_mul, Nat.add_assoc]
    have past : array + (lo + (hi - lo) / 2) * size + size =
        array + (lo + (hi - lo) / 2 + 1) * size := by
      rw [Nat.add_one_mul, Nat.add_assoc]
    have nonempty : array + lo * size < array + hi * size ↔ lo < hi := by
      rw [Nat.add_lt_add_iff_left, Nat.mul_lt_mul_right positive]
    simp only [searchLoop, searchIndices, range, middle, past, nonempty]
    split_ifs <;> simp [ih, Except.map]

/-- A result of the index loop is an index of the range whose element equals the key;
this needs nothing of the array. -/
theorem searchIndices_sound {probe : Nat → Int} {fuel lo hi i : Nat}
    (found : searchIndices probe fuel lo hi = .ok (some i)) : lo ≤ i ∧ i < hi ∧ probe i = 0 := by
  induction fuel generalizing lo hi with
  | zero => cases found
  | succ fuel ih =>
    simp only [searchIndices] at found
    split_ifs at found with nonempty below above
    · obtain ⟨low, high, equal⟩ := ih found
      exact ⟨low, by omega, equal⟩
    · obtain ⟨low, high, equal⟩ := ih found
      exact ⟨by omega, high, equal⟩
    · cases found
      exact ⟨by omega, by omega, by omega⟩
    · cases found

/-- Comparisons of the key on `[lo, hi)` that stay negative once negative, and are positive
only before every non-positive one. -/
def Partitioned (probe : Nat → Int) (lo hi : Nat) : Prop :=
  ∀ i j, lo ≤ i → i ≤ j → j < hi → (probe i < 0 → probe j < 0) ∧ (0 < probe j → 0 < probe i)

theorem Partitioned.mono {probe : Nat → Int} {lo hi lo' hi' : Nat}
    (partitioned : Partitioned probe lo hi) (low : lo ≤ lo') (high : hi' ≤ hi) :
    Partitioned probe lo' hi' :=
  fun i j first le last => partitioned i j (Nat.le_trans low first) le (by omega)

/-- On partitioned comparisons, a null result means that no element of the range
equals the key. -/
theorem searchIndices_complete {probe : Nat → Int} {fuel lo hi : Nat}
    (partitioned : Partitioned probe lo hi) (missing : searchIndices probe fuel lo hi = .ok none) :
    ∀ i, lo ≤ i → i < hi → probe i ≠ 0 := by
  induction fuel generalizing lo hi with
  | zero => cases missing
  | succ fuel ih =>
    intro i low high
    simp only [searchIndices] at missing
    split_ifs at missing with nonempty below above
    · -- the key is below the middle element, so below every later one
      rcases Nat.lt_or_ge i (lo + (hi - lo) / 2) with left | right
      · exact ih (partitioned.mono (Nat.le_refl lo) (by omega)) missing i low left
      · have := (partitioned _ i (by omega) right high).1 below
        omega
    · -- the key is above the middle element, so above every earlier one
      rcases Nat.lt_or_ge (lo + (hi - lo) / 2) i with right | left
      · exact ih (partitioned.mono (by omega) (Nat.le_refl hi)) missing i (by omega) high
      · have := (partitioned i _ low left (by omega)).2 above
        omega
    · cases missing
    · omega

theorem searchIndices_ok (probe : Nat → Int) {fuel lo hi : Nat} (enough : hi - lo < fuel) :
    ∃ result, searchIndices probe fuel lo hi = .ok result := by
  induction fuel generalizing lo hi with
  | zero => omega
  | succ fuel ih =>
    simp only [searchIndices]
    split_ifs
    · exact ih (by omega)
    · exact ih (by omega)
    · exact ⟨_, rfl⟩
    · exact ⟨_, rfl⟩

theorem partitioned_of_sorted {α : Type} {compare : α → α → Int} [Std.TransCmp (ordering compare)]
    {values : Nat → α} {count : Nat} (sorted : Sorted compare ((List.range count).map values))
    (key : α) : Partitioned (fun i => compare key (values i)) 0 count := by
  intro i j _ le inside
  have ordered : compare (values i) (values j) ≤ 0 := by
    have := sorted.nonpos (by simp; omega) (by simpa using inside) le
    simpa only [List.getElem_map, List.getElem_range] using this
  exact ⟨fun below => neg_of_neg_of_nonpos below ordered,
    fun above => pos_of_pos_of_nonneg above (nonneg_of_nonpos ordered)⟩

theorem binarySearch_spec {α : Type} {compare : α → α → Int} [Std.TransCmp (ordering compare)]
    (element : Nat → α) {key array cnt size : Nat} (positive : 0 < size)
    (sorted : Sorted compare ((List.range cnt).map fun i => element (array + i * size))) :
    ∃ result,
      binarySearch key array cnt size (fun p q => compare (element p) (element q)) = .ok result ∧
      bsearch key array cnt size (fun p q => compare (element p) (element q)) = .ok result ∧
      (∀ p, result = some p →
        ∃ i < cnt, p = array + i * size ∧ compare (element key) (element p) = 0) ∧
      (result = none ↔ ∀ i < cnt, compare (element key) (element (array + i * size)) ≠ 0) := by
  let probe := fun i => compare (element key) (element (array + i * size))
  have start : binarySearch key array cnt size (fun p q => compare (element p) (element q)) =
      (searchIndices probe (cnt + 1) 0 cnt).map (Option.map fun i => array + i * size) := by
    have loop := searchLoop_eq positive (fun p q => compare (element p) (element q)) key array
      (cnt + 1) 0 cnt
    rw [Nat.zero_mul, Nat.add_zero] at loop
    rw [binarySearch, Nat.mul_comm size cnt]
    exact loop
  obtain ⟨result, ran⟩ := searchIndices_ok probe (show cnt - 0 < cnt + 1 by omega)
  have partitioned : Partitioned probe 0 cnt := partitioned_of_sorted sorted (element key)
  -- through `compare_thunk` the same comparison is made
  have thunk : bsearch key array cnt size (fun p q => compare (element p) (element q)) =
      binarySearch key array cnt size (fun p q => compare (element p) (element q)) := rfl
  refine ⟨result.map fun i => array + i * size, by rw [start, ran]; rfl,
    by rw [thunk, start, ran]; rfl, ?_, ?_⟩
  · intro p returned
    cases result with
    | none => cases returned
    | some i =>
      cases returned
      obtain ⟨-, inside, equal⟩ := searchIndices_sound ran
      exact ⟨i, inside, rfl, equal⟩
  · cases result with
    | none =>
      simpa using fun i inside => searchIndices_complete partitioned ran i (Nat.zero_le i) inside
    | some i =>
      obtain ⟨-, inside, equal⟩ := searchIndices_sound ran
      simpa using ⟨i, inside, equal⟩

/-- Four sorted one-byte elements at address 0, and a key equal to two of them at address 5. -/
def sampleMemory : List Int := [1, 3, 3, 7, 0, 3]

theorem sampleSearch_finds :
    ∃ result,
      binarySearch 5 0 4 1 (fun p q => sampleMemory.getD p 0 - sampleMemory.getD q 0) =
        .ok result ∧
      bsearch 5 0 4 1 (fun p q => sampleMemory.getD p 0 - sampleMemory.getD q 0) = .ok result ∧
      (∀ p, result = some p → ∃ i < 4, p = 0 + i * 1 ∧
        sampleMemory.getD 5 0 - sampleMemory.getD p 0 = 0) ∧
      (result = none ↔ ∀ i < 4, sampleMemory.getD 5 0 - sampleMemory.getD (0 + i * 1) 0 ≠ 0) :=
  @binarySearch_spec Int (fun a b => a - b) (transCmp_sub fun a => a) (fun p => sampleMemory.getD p 0) 5 0 4 1
    (by decide) (by decide)

example : binarySearch 5 0 4 1 (fun p q => sampleMemory.getD p 0 - sampleMemory.getD q 0) =
    .ok (some 2) := by decide

end Pintos.Search
