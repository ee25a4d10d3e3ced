import Mathlib
import Pintos.Lib.ListLoops

/-!
# `list.c` refines sequences

What the two modules before prove of each operation of `list.c`, gathered: on lists that
hold sequences, the operation succeeds, leaves each list it touches holding the sequence that
the abstract operation computes, and leaves the links of every other element as they were.
-/

namespace Pintos.KernelList

/-- What each operation of `list.c` does to the sequences its lists hold. -/
structure SequenceRefinement (α : Type) [DecidableEq α] : Prop where
  init : ∀ (heap : Heap α) (list : Header α), Holds (listInit heap list) list []
  insert : ∀ (heap : Heap α) (list : Header α) (ys zs : List α) (before elem : α),
    Holds heap list (ys ++ zs) → (zs ++ [list.tail]).head? = some before →
    elem ∉ list.head :: (ys ++ zs ++ [list.tail]) →
    ∃ heap', listInsert heap (some before) (some elem) = .ok heap' ∧
      Holds heap' list (ys ++ elem :: zs) ∧
      ∀ u ∉ elem :: list.head :: (ys ++ zs ++ [list.tail]), heap' u = heap u
  splice : ∀ (heap : Heap α) (source target : Header α) (P S Q ys zs : List α)
    (before first last : α),
    Holds heap source (P ++ S ++ Q) → Holds heap target (ys ++ zs) →
    (∀ u ∈ source.head :: (P ++ S ++ Q ++ [source.tail]),
      u ∉ target.head :: (ys ++ zs ++ [target.tail])) →
    (S ++ Q ++ [source.tail]).head? = some first → (Q ++ [source.tail]).head? = some last →
    (zs ++ [target.tail]).head? = some before →
    ∃ heap', listSplice heap (some before) (some first) (some last) = .ok heap' ∧
      Holds heap' source (P ++ Q) ∧ Holds heap' target (ys ++ S ++ zs) ∧
      ∀ u ∉ source.head :: (P ++ S ++ Q ++ [source.tail]) ++
        target.head :: (ys ++ zs ++ [target.tail]), heap' u = heap u
  spliceWithin : ∀ (heap : Heap α) (list : Header α) (P S Q ys zs : List α)
    (before first last : α),
    Holds heap list (P ++ S ++ Q) → P ++ Q = ys ++ zs →
    (S ++ Q ++ [list.tail]).head? = some first → (Q ++ [list.tail]).head? = some last →
    (zs ++ [list.tail]).head? = some before →
    ∃ heap', listSplice heap (some before) (some first) (some last) = .ok heap' ∧
      Holds heap' list (ys ++ S ++ zs) ∧
      ∀ u ∉ list.head :: (P ++ S ++ Q ++ [list.tail]), heap' u = heap u
  remove : ∀ (heap : Heap α) (list : Header α) (ys zs : List α) (elem : α),
    Holds heap list (ys ++ elem :: zs) →
    ∃ heap', listRemove heap (some elem) = .ok (heap', (zs ++ [list.tail]).head?) ∧
      Holds heap' list (ys ++ zs) ∧
      ∀ u ∉ list.head :: (ys ++ elem :: zs ++ [list.tail]), heap' u = heap u
  pushFront : ∀ (heap : Heap α) (list : Header α) (xs : List α) (elem : α),
    Holds heap list xs → elem ∉ list.head :: (xs ++ [list.tail]) →
    ∃ heap', listPushFront heap list (some elem) = .ok heap' ∧ Holds heap' list (elem :: xs) ∧
      ∀ u ∉ elem :: list.head :: (xs ++ [list.tail]), heap' u = heap u
  pushBack : ∀ (heap : Heap α) (list : Header α) (xs : List α) (elem : α),
    Holds heap list xs → elem ∉ list.head :: (xs ++ [list.tail]) →
    ∃ heap', listPushBack heap list (some elem) = .ok heap' ∧ Holds heap' list (xs ++ [elem]) ∧
      ∀ u ∉ elem :: list.head :: (xs ++ [list.tail]), heap' u = heap u
  popFront : ∀ (heap : Heap α) (list : Header α) (x : α) (xs : List α),
    Holds heap list (x :: xs) →
    ∃ heap', listPopFront heap list = .ok (heap', some x) ∧ Holds heap' list xs ∧
      ∀ u ∉ list.head :: (x :: xs ++ [list.tail]), heap' u = heap u
  popBack : ∀ (heap : Heap α) (list : Header α) (xs : List α) (x : α),
    Holds heap list (xs ++ [x]) →
    ∃ heap', listPopBack heap list = .ok (heap', some x) ∧ Holds heap' list xs ∧
      ∀ u ∉ list.head :: (xs ++ [x] ++ [list.tail]), heap' u = heap u
  popEmpty : ∀ (heap : Heap α) (list : Header α), Holds heap list [] →
    listPopFront heap list = .error "assertion !list_empty (list) failed" ∧
      listPopBack heap list = .error "assertion !list_empty (list) failed"
  size : ∀ (heap : Heap α) (list : Header α) (xs : List α) (fuel : Nat),
    Holds heap list xs → xs.length < fuel → listSize heap list fuel = .ok xs.length
  reverse : ∀ (heap : Heap α) (list : Header α) (xs : List α) (fuel : Nat),
    Holds heap list xs → xs.length < fuel →
    ∃ heap', listReverse heap list fuel = .ok heap' ∧ Holds heap' list xs.reverse ∧
      ∀ u ∉ list.head :: (xs ++ [list.tail]), heap' u = heap u
  insertOrdered : ∀ (heap : Heap α) (list : Header α) (xs : List α) (elem : α)
    (less : α → α → Bool) (fuel : Nat),
    Holds heap list xs → elem ∉ list.head :: (xs ++ [list.tail]) → xs.length < fuel →
    ∃ heap', listInsertOrdered heap list (some elem) less fuel = .ok heap' ∧
      Holds heap' list (xs.orderedInsert (fun a b => less a b = true) elem) ∧
      ∀ u ∉ elem :: list.head :: (xs ++ [list.tail]), heap' u = heap u
  staysSorted : ∀ (less : α → α → Bool) (xs : List α) (elem : α),
    (∀ a b, less a b = true → less b a = false) → Sorted less xs →
    Sorted less (xs.orderedInsert (fun a b => less a b = true) elem)
  unique : ∀ (heap : Heap α) (list : Header α) (duplicates : Option (Header α)) (xs ds : List α)
    (less : α → α → Bool) (fuel : Nat),
    Holds heap list xs →
    (∀ d ∈ duplicates, Holds heap d ds ∧
      ∀ u ∈ d.head :: (ds ++ [d.tail]), u ∉ list.head :: (xs ++ [list.tail])) →
    xs.length < fuel →
    ∃ heap', listUnique heap list duplicates less fuel = .ok heap' ∧
      Holds heap' list (xs.destutter (Distinct less)) ∧
      (∀ d ∈ duplicates, Holds heap' d (ds ++ duplicatesOf less xs)) ∧
      ∀ u ∉ list.head :: (xs ++ [list.tail]),
        (∀ d ∈ duplicates, u ∉ d.head :: (ds ++ [d.tail])) → heap' u = heap u
  max : ∀ (heap : Heap α) (list : Header α) (x : α) (xs : List α) (less : α → α → Bool)
    (fuel : Nat), Holds heap list (x :: xs) → (x :: xs).length < fuel →
    listMax heap list less fuel = .ok (some (xs.foldl (maxStep less) x)) ∧
      (IsStrictWeakOrder α (fun a b => less a b = true) →
        IsFirstMax less (x :: xs) (xs.foldl (maxStep less) x))
  min : ∀ (heap : Heap α) (list : Header α) (x : α) (xs : List α) (less : α → α → Bool)
    (fuel : Nat), Holds heap list (x :: xs) → (x :: xs).length < fuel →
    listMin heap list less fuel = .ok (some (xs.foldl (maxStep fun a b => less b a) x)) ∧
      (IsStrictWeakOrder α (fun a b => less a b = true) →
        IsFirstMin less (x :: xs) (xs.foldl (maxStep fun a b => less b a) x))
  extremesEmpty : ∀ (heap : Heap α) (list : Header α) (less : α → α → Bool) (fuel : Nat),
    Holds heap list [] →
    listMax heap list less fuel = .ok (some list.tail) ∧
      listMin heap list less fuel = .ok (some list.tail)

theorem list_refines_sequence (α : Type) [DecidableEq α] : SequenceRefinement α where
  init := listInit_holds
  insert _ _ _ _ _ _ holds before_eq fresh := listInsert_holds holds before_eq fresh
  splice _ _ _ _ _ _ _ _ _ _ _ source target apart first_eq last_eq before_eq :=
    listSplice_holds source target apart first_eq last_eq before_eq
  spliceWithin _ _ _ _ _ _ _ _ _ _ holds split first_eq last_eq before_eq :=
    listSplice_holds_within holds split first_eq last_eq before_eq
  remove _ _ _ _ _ holds := listRemove_holds holds
  pushFront _ _ _ _ holds fresh := listPushFront_holds holds fresh
  pushBack _ _ _ _ holds fresh := listPushBack_holds holds fresh
  popFront _ _ _ _ holds := listPopFront_holds holds
  popBack _ _ _ _ holds := listPopBack_holds holds
  popEmpty _ _ holds := ⟨listPopFront_empty holds, listPopBack_empty holds⟩
  size _ _ _ _ holds enough := listSize_eq holds enough
  reverse _ _ _ _ holds enough := listReverse_holds holds enough
  insertOrdered _ _ _ _ less _ holds fresh enough := listInsertOrdered_holds less holds fresh enough
  staysSorted less _ elem asymm sorted := sorted.orderedInsert less asymm elem
  unique _ _ _ _ _ less _ holds dups enough := listUnique_holds less holds dups enough
  max _ _ x xs less _ holds enough :=
    ⟨listMax_cons less holds enough, fun order => isFirstMax_foldl less order x xs⟩
  min _ _ x xs less fuel holds enough := by
    refine ⟨?_, fun order => isFirstMin_foldl less order x xs⟩
    rw [listMin_eq_listMax]
    exact listMax_cons _ holds enough
  extremesEmpty _ _ less fuel holds := by
    refine ⟨listMax_nil less holds fuel, ?_⟩
    rw [listMin_eq_listMax]
    exact listMax_nil _ holds fuel

/-- The list `[5, 1]` between the header elements `10` and `11`. -/
def sampleList : Header Nat := ⟨10, 11, by decide⟩

def sampleHeap : Heap Nat := fun u =>
  if u = 10 then ⟨none, some 5⟩
  else if u = 5 then ⟨some 10, some 1⟩
  else if u = 1 then ⟨some 5, some 11⟩
  else if u = 11 then ⟨some 1, none⟩
  else ⟨none, none⟩

example : Holds sampleHeap sampleList [5, 1] := by decide

theorem sample_reversed :
    ∃ heap', listReverse sampleHeap sampleList 3 = .ok heap' ∧ Holds heap' sampleList [5, 1].reverse ∧
      ∀ u ∉ sampleList.head :: ([5, 1] ++ [sampleList.tail]), heap' u = sampleHeap u :=
  (list_refines_sequence Nat).reverse sampleHeap sampleList [5, 1] 3 (by decide) (by decide)

/-- On an unsorted list `list_insert_ordered` puts `3` before `5`, the first element greater
than it, and not after `1`, the last element not greater than it. -/
theorem insertOrdered_unsorted :
    Holds sampleHeap sampleList [5, 1] ∧
      ∃ heap', listInsertOrdered sampleHeap sampleList (some 3) (fun a b => decide (a < b)) 3 =
          .ok heap' ∧ Holds heap' sampleList [3, 5, 1] ∧ ¬ Holds heap' sampleList [5, 1, 3] := by
  have holds : Holds sampleHeap sampleList [5, 1] := by decide
  obtain ⟨heap', ran, holds', -⟩ := listInsertOrdered_holds (fun a b => decide (a < b)) holds
    (show 3 ∉ sampleList.head :: ([5, 1] ++ [sampleList.tail]) by decide)
    (show [5, 1].length < 3 by decide)
  have inserted : [5, 1].orderedInsert (fun a b => decide (a < b) = true) 3 = [3, 5, 1] := by decide
  rw [inserted] at holds'
  refine ⟨holds, heap', ran, holds', fun wrong => ?_⟩
  have first : (heap' sampleList.head).next = some 3 := holds'.linked_head.1
  have claimed : (heap' sampleList.head).next = some 5 := wrong.linked_head.1
  simp [first] at claimed

end Pintos.KernelList
