import Mathlib
import Pintos.Lib.List

/-!
# The loops of `list.c`

Each loop walks the sequence a list holds, one element a turn, so a fuel above the length
of the sequence always suffices. Each is proved equal to the abstract operation it
computes: the length, the reversal, `List.orderedInsert`, `List.destutter'` and the left
fold that keeps the larger of two elements.
-/

namespace Pintos.KernelList

open Function Links

variable {α : Type} [DecidableEq α] {heap : Heap α} {list : Header α}

omit [DecidableEq α] in
theorem head?_append_tail (rest : List α) (tail : α) :
    (rest ++ [tail]).head? = some (rest.headD tail) := by
  cases rest <;> rfl

omit [DecidableEq α] in
theorem Holds.ne_tail {xs : List α} (holds : Holds heap list xs) {x : α} (mem : x ∈ xs) :
    x ≠ list.tail := by
  have nodup := holds.nodup
  grind

omit [DecidableEq α] in
theorem Holds.ne_head {xs : List α} (holds : Holds heap list xs) {x : α} (mem : x ∈ xs) :
    x ≠ list.head := by
  have nodup := holds.nodup
  grind

omit [DecidableEq α] in
theorem Holds.linked_cons {pre rest : List α} {x : α} (holds : Holds heap list (pre ++ x :: rest)) :
    Linked heap x (rest.headD list.tail) := by
  obtain ⟨A, p, b, B, prefix_eq, suffix_eq, -, linked⟩ :=
    holds.split (show pre ++ x :: rest = (pre ++ [x]) ++ rest by simp)
  obtain ⟨-, rfl⟩ : list.head :: pre = A ∧ x = p :=
    List.append_singleton_inj.mp (by simpa using prefix_eq)
  have first : (rest ++ [list.tail]).head? = some b := by rw [suffix_eq]; rfl
  rw [head?_append_tail] at first
  rwa [Option.some.inj first]

omit [DecidableEq α] in
theorem Holds.linked_head {xs : List α} (holds : Holds heap list xs) :
    Linked heap list.head (xs.headD list.tail) := by
  obtain ⟨A, p, b, B, prefix_eq, suffix_eq, -, linked⟩ := holds.split (List.nil_append xs).symm
  obtain ⟨-, rfl⟩ : A = [] ∧ p = list.head := List.append_singleton_inj.mp prefix_eq.symm
  have first : (xs ++ [list.tail]).head? = some b := by rw [suffix_eq]; rfl
  rw [head?_append_tail] at first
  rwa [Option.some.inj first]

omit [DecidableEq α] in
theorem listNext_of_linked {u v : α} (linked : Linked heap u v) :
    listNext heap (some u) = .ok (some v) := by
  have next_u : (heap u).next = some v := linked.1
  cases prev_u : (heap u).prev <;> simp [listNext, isHead, isInterior, deref, next_u, prev_u] <;> rfl

/-! ## `list_size` -/

theorem listSizeLoop_eq {pre rest : List α} (holds : Holds heap list (pre ++ rest)) {fuel : Nat}
    (enough : rest.length < fuel) (cnt : Nat) :
    listSizeLoop heap list fuel (some (rest.headD list.tail)) cnt = .ok (cnt + rest.length) := by
  obtain ⟨fuel, rfl⟩ : ∃ turns, fuel = turns + 1 := ⟨fuel - 1, by omega⟩
  induction rest generalizing pre fuel cnt with
  | nil =>
    simp [listSizeLoop, listEnd]
    rfl
  | cons x rest ih =>
    rw [List.headD_cons]
    have not_end : some x ≠ listEnd list := by
      simpa [listEnd] using holds.ne_tail (by simp)
    have step := listNext_of_linked holds.linked_cons
    have later : Holds heap list ((pre ++ [x]) ++ rest) := by simpa using holds
    obtain ⟨turns, rfl⟩ : ∃ turns, fuel = turns + 1 := ⟨fuel - 1, by simp at enough; omega⟩
    rw [listSizeLoop, if_neg (by simpa using not_end)]
    simp only [step, bind, Except.bind]
    rw [ih later (cnt + 1) turns (by simp at enough; omega)]
    simp
    omega

/-- `list_size` counts the sequence. -/
theorem listSize_eq {xs : List α} (holds : Holds heap list xs) {fuel : Nat}
    (enough : xs.length < fuel) : listSize heap list fuel = .ok xs.length := by
  have start : Holds heap list ([] ++ xs) := by simpa using holds
  rw [listSize, holds.listBegin_eq, head?_append_tail, listSizeLoop_eq start enough, Nat.zero_add]

/-! ## `list_reverse` -/

section Reverse

variable {u elem : α}

@[simp] theorem swapLinks_self (heap : Heap α) (elem : α) :
    swapLinks heap elem elem = ⟨(heap elem).next, (heap elem).prev⟩ := by
  simp [swapLinks, setNext, setPrev]

theorem swapLinks_of_ne (apart : u ≠ elem) : swapLinks heap elem u = heap u := by
  rw [swapLinks, setNext_of_ne apart, setPrev_of_ne apart]

theorem foldl_swapLinks_of_not_mem {xs : List α} (outside : u ∉ xs) (heap : Heap α) :
    xs.foldl swapLinks heap u = heap u := by
  induction xs generalizing heap with
  | nil => rfl
  | cons x xs ih =>
    rw [List.foldl_cons, ih (fun mem => outside (List.mem_cons_of_mem x mem)),
      swapLinks_of_ne (fun same => outside (by simp [same]))]

theorem foldl_swapLinks_of_mem {xs : List α} (nodup : xs.Nodup) (mem : u ∈ xs) (heap : Heap α) :
    xs.foldl swapLinks heap u = ⟨(heap u).next, (heap u).prev⟩ := by
  induction xs generalizing heap with
  | nil => simp at mem
  | cons x xs ih =>
    rw [List.foldl_cons]
    by_cases first : u = x
    · subst first
      rw [foldl_swapLinks_of_not_mem (List.nodup_cons.mp nodup).1, swapLinks_self]
    · rw [ih (List.nodup_cons.mp nodup).2 ((List.mem_cons.mp mem).resolve_left first),
        swapLinks_of_ne first]

/-- The loop of `list_reverse` swaps the links of each element it passes, and moves on by the
`next` link that the swap has made its `prev`. -/
theorem listReverseLoop_eq {rest : List α} {heap : Heap α}
    (chain : (rest ++ [list.tail]).IsChain (fun u v => (heap u).next = some v))
    (nodup : (rest ++ [list.tail]).Nodup) {fuel : Nat} (enough : rest.length < fuel) :
    listReverseLoop list fuel heap (some (rest.headD list.tail)) = .ok (rest.foldl swapLinks heap) := by
  obtain ⟨fuel, rfl⟩ : ∃ turns, fuel = turns + 1 := ⟨fuel - 1, by omega⟩
  induction rest generalizing heap fuel with
  | nil =>
    simp [listReverseLoop, listEnd]
    rfl
  | cons x rest ih =>
    have fresh : x ∉ rest ++ [list.tail] := (List.nodup_cons.mp nodup).1
    have not_end : some x ≠ listEnd list := by
      simpa [listEnd] using fun same => fresh (by simp [same])
    have next_x : (heap x).next = some (rest.headD list.tail) := by
      have := List.isChain_cons.mp chain
      simpa [head?_append_tail] using this.1
    -- past `x`, the swap changed no link the rest of the walk reads
    have chain' : (rest ++ [list.tail]).IsChain (fun u v => (swapLinks heap x u).next = some v) :=
      (List.isChain_cons.mp chain).2.imp_of_mem_imp fun u v mem _ linked => by
        rwa [swapLinks_of_ne (ne_of_mem_of_not_mem mem fresh)]
    obtain ⟨turns, rfl⟩ : ∃ turns, fuel = turns + 1 := ⟨fuel - 1, by simp at enough; omega⟩
    rw [List.headD_cons, listReverseLoop, if_neg (by simpa using not_end)]
    simp only [deref, pure, Except.pure, bind, Except.bind, swapLinks_self, next_x]
    exact ih chain' (List.nodup_cons.mp nodup).2 turns (by simp at enough; omega)

/-- `list_reverse` reverses the sequence. -/
theorem listReverse_holds {xs : List α} (holds : Holds heap list xs) {fuel : Nat}
    (enough : xs.length < fuel) :
    ∃ heap', listReverse heap list fuel = .ok heap' ∧ Holds heap' list xs.reverse ∧
      ∀ u ∉ list.head :: (xs ++ [list.tail]), heap' u = heap u := by
  cases xs with
  | nil =>
    have empty : listEmpty heap list = true := holds.listEmpty_iff.mpr rfl
    exact ⟨heap, by simp [listReverse, empty]; rfl, by simpa using holds, fun _ _ => rfl⟩
  | cons x rest =>
    obtain ⟨init, last, xs_eq⟩ : ∃ init last, x :: rest = init ++ [last] :=
      ⟨_, _, (List.dropLast_append_getLast (List.cons_ne_nil _ _)).symm⟩
    have nodup := holds.nodup
    have mem_last : last ∈ x :: rest := by simp [xs_eq]
    have x_head := holds.ne_head List.mem_cons_self
    have x_tail := holds.ne_tail List.mem_cons_self
    have last_head := holds.ne_head mem_last
    have last_tail := holds.ne_tail mem_last
    have head_tail := list.head_ne_tail
    -- the four links the final swaps read
    have head_next : (heap list.head).next = some x := holds.linked_head.1
    have x_prev : (heap x).prev = some list.head := holds.linked_head.2
    have tail_prev : (heap list.tail).prev = some last := by
      rw [holds.tail_prev_eq, xs_eq, ← List.cons_append, List.getLast?_concat]
    have last_next : (heap last).next = some list.tail := by
      have ending : Holds heap list (init ++ [last]) := by rwa [← xs_eq]
      exact ending.linked_cons.1
    -- the loop swaps the links of every element
    have walked : (x :: rest ++ [list.tail]).IsChain (fun u v => (heap u).next = some v) :=
      (List.isChain_cons.mp holds.linked).2.imp fun _ _ linked => linked.1
    have nodup_walked : (x :: rest ++ [list.tail]).Nodup := (List.nodup_cons.mp nodup).2
    have loop := listReverseLoop_eq walked nodup_walked enough
    set swapped := (x :: rest).foldl swapLinks heap with swapped_eq
    have swapped_mem : ∀ u ∈ x :: rest, swapped u = ⟨(heap u).next, (heap u).prev⟩ :=
      fun u mem => foldl_swapLinks_of_mem (List.nodup_append.mp nodup_walked).1 mem heap
    have swapped_head : swapped list.head = heap list.head :=
      foldl_swapLinks_of_not_mem (fun mem => (List.nodup_cons.mp nodup).1 (List.mem_append_left _ mem)) heap
    have swapped_tail : swapped list.tail = heap list.tail :=
      foldl_swapLinks_of_not_mem
        (fun mem => (List.nodup_append.mp nodup_walked).2.2 _ mem _ (List.mem_singleton_self _) rfl) heap
    have last_swapped : (swapped last).prev = some list.tail := by
      rw [swapped_mem last mem_last]
      exact last_next
    have x_swapped : (swapped x).next = some list.head := by
      rw [swapped_mem x List.mem_cons_self]
      exact x_prev
    -- the two swaps after the loop relink the ends
    set reversed := setNext (setPrev (setPrev (setNext swapped list.head (some last)) list.tail (some x))
      last (some list.head)) x (some list.tail) with reversed_eq
    have ran : listReverse heap list fuel = .ok reversed := by
      have not_empty : listEmpty heap list = false := by simpa using holds.listEmpty_iff
      have begin : listBegin heap list = some x := head_next
      rw [List.headD_cons] at loop
      simp [listReverse, not_empty, begin, loop, swapped_head, swapped_tail, head_next, tail_prev,
        deref, last_swapped, x_swapped, last_tail, x_head, reversed_eq, bind, pure, Except.pure,
        Except.bind]
    have last_eq : (x :: rest).getLast? = some last := by rw [xs_eq, List.getLast?_concat]
    refine ⟨reversed, ran, ⟨?_, ?_⟩, fun u outside => ?_⟩
    -- read backwards, the new chain runs from the tail through the old links
    · have nodes : list.head :: ((x :: rest).reverse ++ [list.tail]) =
          (list.tail :: (x :: rest ++ [list.head])).reverse := by simp
      have inner : (x :: rest).IsChain (Linked heap) :=
        (List.isChain_cons.mp holds.linked).2.left_of_append
      have middle : (x :: rest).IsChain (Adjacent (prevOf reversed) (nextOf reversed)) := by
        refine isChain_of_agree inner (List.nodup_append.mp nodup_walked).1
          (fun u mem not_last => ?_) (fun v mem not_first => ?_)
        · have apart : u ≠ last := by simpa [last_eq, eq_comm] using not_last
          have : (swapped u).prev = (heap u).next := by rw [swapped_mem u mem]
          simp [prevOf, nextOf, reversed_eq, apart, holds.ne_tail mem, this]
        · have apart : v ≠ x := by simpa [eq_comm] using not_first
          have : (swapped v).next = (heap v).prev := by rw [swapped_mem v mem]
          simp [prevOf, nextOf, reversed_eq, apart, holds.ne_head mem, this]
      rw [nodes, Linked, isChain_adjacent_reverse, List.isChain_cons]
      refine ⟨fun y head_y => ?_, middle.append (List.isChain_singleton _) ?_⟩
      · obtain rfl : y = x := by simpa using head_y.symm
        exact ⟨by simp [prevOf, reversed_eq, last_tail.symm], by simp [nextOf, reversed_eq]⟩
      · intro a last_a b head_b
        obtain rfl : a = last := by simpa [last_eq] using last_a.symm
        obtain rfl : b = list.head := by simpa using head_b.symm
        exact ⟨by simp [prevOf, reversed_eq], by simp [nextOf, reversed_eq, x_head.symm]⟩
    · exact (((List.reverse_perm _).append_right [list.tail]).cons list.head).nodup_iff.mpr nodup
    · simp only [List.mem_cons, List.mem_append, not_or] at outside
      obtain ⟨not_head, ⟨not_x, not_rest⟩, not_tail⟩ := outside
      have not_last : u ≠ last := fun same => by
        rcases List.mem_cons.mp mem_last with first | later
        · exact not_x (same.trans first)
        · exact not_rest (same ▸ later)
      rw [reversed_eq, setNext_of_ne not_x, setPrev_of_ne not_last,
        setPrev_of_ne (by simpa using not_tail), setNext_of_ne not_head, swapped_eq,
        foldl_swapLinks_of_not_mem (by simp [not_x, not_rest])]

end Reverse

/-! ## `list_insert_ordered` -/

section Ordered

variable (less : α → α → Bool)

/-- A sequence is sorted by `less` when no element is less than the one before it, which is
what `is_sorted` checks. -/
def Sorted (xs : List α) : Prop := xs.IsChain fun a b => less b a = false

/-- The elements that `list_insert_ordered` walks past: those `elem` is not less than. -/
abbrev Stays (elem b : α) : Bool := !less elem b

omit [DecidableEq α] in
theorem orderedInsert_eq_split (elem : α) (xs : List α) :
    xs.orderedInsert (fun a b => less a b = true) elem =
      xs.takeWhile (Stays less elem) ++ elem :: xs.dropWhile (Stays less elem) := by
  rw [List.orderedInsert_eq_take_drop]
  simp

omit [DecidableEq α] in
/-- Inserting into a sorted sequence keeps it sorted, for any `less` that never holds both
ways. -/
theorem Sorted.orderedInsert {xs : List α} (asymm : ∀ a b, less a b = true → less b a = false)
    (sorted : Sorted less xs) (elem : α) :
    Sorted less (xs.orderedInsert (fun a b => less a b = true) elem) := by
  rw [orderedInsert_eq_split]
  have whole : (xs.takeWhile (Stays less elem) ++ xs.dropWhile (Stays less elem)).IsChain
      fun a b => less b a = false := by rwa [List.takeWhile_append_dropWhile]
  refine whole.left_of_append.append (List.isChain_cons.mpr ⟨fun b head_b => ?_,
    whole.right_of_append⟩) fun a last_a b head_b => ?_
  -- after `elem` comes the first element it is less than
  · have stop := List.head?_dropWhile_not (Stays less elem) xs
    rw [Option.mem_def.mp head_b] at stop
    simp only [Stays, Bool.not_eq_false'] at stop
    exact asymm elem b (by simpa using stop)
  -- before it, an element it is not less than
  · obtain rfl : b = elem := by simpa using head_b.symm
    have passed := List.mem_takeWhile_imp (List.mem_of_getLast? last_a)
    simpa [Stays] using passed

/-- The loop of `list_insert_ordered` stops at the first element that `elem` is less than, or
at the tail. -/
theorem listInsertOrderedLoop_eq {pre rest : List α} (holds : Holds heap list (pre ++ rest))
    (elem : α) {fuel : Nat} (enough : rest.length < fuel) :
    listInsertOrderedLoop heap list elem less fuel (some (rest.headD list.tail)) =
      .ok (some ((rest.dropWhile (Stays less elem)).headD list.tail)) := by
  obtain ⟨fuel, rfl⟩ : ∃ turns, fuel = turns + 1 := ⟨fuel - 1, by omega⟩
  induction rest generalizing pre fuel with
  | nil =>
    simp [listInsertOrderedLoop, listEnd]
    rfl
  | cons x rest ih =>
    have not_end : some x ≠ listEnd list := by
      simpa [listEnd] using holds.ne_tail (by simp)
    rw [List.headD_cons, listInsertOrderedLoop, if_neg (by simpa using not_end)]
    by_cases stop : less elem x = true
    · simp [deref, stop]
      rfl
    · have step := listNext_of_linked holds.linked_cons
      have later : Holds heap list ((pre ++ [x]) ++ rest) := by simpa using holds
      obtain ⟨turns, rfl⟩ : ∃ turns, fuel = turns + 1 := ⟨fuel - 1, by simp at enough; omega⟩
      simp only [deref, pure, Except.pure, bind, Except.bind, stop, step, Bool.false_eq_true,
        if_false]
      rw [ih later turns (by simp at enough; omega)]
      simp [Stays, stop]

/-- `list_insert_ordered` inserts `elem` as `List.orderedInsert` does: before the first
element that `elem` is less than. -/
theorem listInsertOrdered_holds {xs : List α} {elem : α} (holds : Holds heap list xs)
    (fresh : elem ∉ list.head :: (xs ++ [list.tail])) {fuel : Nat} (enough : xs.length < fuel) :
    ∃ heap', listInsertOrdered heap list (some elem) less fuel = .ok heap' ∧
      Holds heap' list (xs.orderedInsert (fun a b => less a b = true) elem) ∧
      ∀ u ∉ elem :: list.head :: (xs ++ [list.tail]), heap' u = heap u := by
  have start : Holds heap list ([] ++ xs) := by simpa using holds
  have loop := listInsertOrderedLoop_eq less start elem enough
  have split : Holds heap list (xs.takeWhile (Stays less elem) ++ xs.dropWhile (Stays less elem)) := by
    rwa [List.takeWhile_append_dropWhile]
  obtain ⟨heap', inserted, holds', agree⟩ := listInsert_holds split
    (head?_append_tail _ list.tail) (by rwa [List.takeWhile_append_dropWhile])
  refine ⟨heap', ?_, by rwa [orderedInsert_eq_split], by rwa [List.takeWhile_append_dropWhile] at agree⟩
  rw [listInsertOrdered, holds.listBegin_eq, head?_append_tail]
  simp only [bind, Except.bind, loop, inserted]

end Ordered

/-! ## `list_unique` -/

section Unique

/-- `less` tells `a` and `b` apart: one of them is less than the other. -/
def Distinct (less : α → α → Bool) (a b : α) : Prop := less a b = true ∨ less b a = true

instance (less : α → α → Bool) : DecidableRel (Distinct less) :=
  fun a b => inferInstanceAs (Decidable (less a b = true ∨ less b a = true))

/-- The elements that `list_unique` takes out after keeping `kept`, in order: each one equal,
by `less`, to the last element kept before it. -/
def duplicatesAfter (less : α → α → Bool) : α → List α → List α
  | _, [] => []
  | kept, x :: xs =>
    if Distinct less kept x then duplicatesAfter less x xs else x :: duplicatesAfter less kept xs

/-- The elements that `list_unique` takes out of a sequence. -/
def duplicatesOf (less : α → α → Bool) : List α → List α
  | [] => []
  | x :: xs => duplicatesAfter less x xs

variable (less : α → α → Bool)

/-- Each turn of the loop of `list_unique` either keeps the element after `elem` and moves on
to it, or takes it out, appends it to `duplicates` when given, and stays at `elem`. -/
theorem listUniqueLoop_holds {duplicates : Option (Header α)} {done rest ds : List α} {elem : α}
    {heap : Heap α} (holds : Holds heap list (done ++ elem :: rest))
    (dups : ∀ d ∈ duplicates, Holds heap d ds ∧
      ∀ u ∈ d.head :: (ds ++ [d.tail]), u ∉ list.head :: (done ++ elem :: rest ++ [list.tail]))
    {fuel : Nat} (enough : rest.length < fuel) :
    ∃ heap', listUniqueLoop list duplicates less fuel heap elem = .ok heap' ∧
      Holds heap' list (done ++ rest.destutter' (Distinct less) elem) ∧
      (∀ d ∈ duplicates, Holds heap' d (ds ++ duplicatesAfter less elem rest)) ∧
      ∀ u ∉ list.head :: (done ++ elem :: rest ++ [list.tail]),
        (∀ d ∈ duplicates, u ∉ d.head :: (ds ++ [d.tail])) → heap' u = heap u := by
  obtain ⟨fuel, rfl⟩ : ∃ turns, fuel = turns + 1 := ⟨fuel - 1, by omega⟩
  induction rest generalizing heap done elem ds fuel with
  | nil =>
    have step := listNext_of_linked holds.linked_cons
    refine ⟨heap, ?_, by simpa using holds,
      fun d mem => by simpa [duplicatesAfter] using (dups d mem).1, fun _ _ _ => rfl⟩
    simp [listUniqueLoop, step, listEnd, bind, Except.bind]
    rfl
  | cons x rest ih =>
    have step := listNext_of_linked holds.linked_cons
    rw [List.headD_cons] at step
    have not_end : some x ≠ listEnd list := by
      simpa [listEnd] using holds.ne_tail (by simp)
    have kept : Holds heap list ((done ++ [elem]) ++ x :: rest) := by simpa using holds
    obtain ⟨turns, rfl⟩ : ∃ turns, fuel = turns + 1 := ⟨fuel - 1, by simp at enough; omega⟩
    have fewer : rest.length < turns + 1 := by simp at enough; omega
    by_cases distinct : Distinct less elem x
    · -- `x` is told apart from `elem`: the loop moves on to it
      have differ : (!less elem x && !less x elem) = false := by
        rcases distinct with earlier | earlier <;> simp [earlier]
      obtain ⟨heap', ran, holds', dups', agree⟩ := ih kept (by simpa using dups) turns fewer
      refine ⟨heap', ?_, by simpa [distinct] using holds', by simpa [duplicatesAfter, distinct] using dups',
        fun u outside outside_dups => agree u (by simpa using outside) outside_dups⟩
      rw [listUniqueLoop]
      simp [step, not_end, deref, differ, ran, bind, Except.bind, pure, Except.pure]
    · -- `x` equals `elem`: it is taken out
      have equal : (!less elem x && !less x elem) = true := by
        simp only [Distinct, not_or, Bool.not_eq_true] at distinct
        simp [distinct]
      obtain ⟨heap₁, removed, holds₁, agree₁⟩ := listRemove_holds kept
      have x_gone : x ∉ list.head :: (done ++ elem :: rest ++ [list.tail]) := by
        have split : Holds heap list ((done ++ [elem]) ++ [x] ++ rest) := by simpa using holds
        simpa using split.run_apart.2 x (by simp)
      have holds₁' : Holds heap₁ list (done ++ elem :: rest) := by simpa using holds₁
      have agree₁' : ∀ u ∉ list.head :: (done ++ elem :: x :: rest ++ [list.tail]), heap₁ u = heap u :=
        fun u outside => agree₁ u (by simpa using outside)
      cases duplicates with
      | none =>
        obtain ⟨heap', ran, holds', -, agree⟩ := @ih done ds elem heap₁ holds₁' (by simp) turns fewer
        refine ⟨heap', ?_, by simpa [distinct] using holds', by simp,
          fun u outside _ => ?_⟩
        · rw [listUniqueLoop]
          simp [step, not_end, deref, equal, removed, ran, bind, Except.bind, pure, Except.pure]
        · rw [agree u (fun mem => outside (by simp at mem ⊢; tauto)) (by simp), agree₁' u outside]
      | some d =>
        obtain ⟨holdsD, apart⟩ := dups d rfl
        have holdsD₁ : Holds heap₁ d ds := holdsD.frame fun u mem => agree₁' u (apart u mem)
        have x_fresh : x ∉ d.head :: (ds ++ [d.tail]) := fun mem => apart x mem (by simp)
        obtain ⟨heap₂, pushed, holdsD₂, agree₂⟩ := listPushBack_holds holdsD₁ x_fresh
        have holds₂ : Holds heap₂ list (done ++ elem :: rest) := holds₁'.frame fun u mem =>
          agree₂ u fun mem' => by
            rcases List.mem_cons.mp mem' with rfl | in_d
            · exact x_gone mem
            · exact apart u in_d (by simp at mem ⊢; tauto)
        have dups₂ : ∀ d' ∈ some d, Holds heap₂ d' (ds ++ [x]) ∧
            ∀ u ∈ d'.head :: (ds ++ [x] ++ [d'.tail]), u ∉ list.head :: (done ++ elem :: rest ++ [list.tail]) := by
          intro d' mem_d
          obtain rfl := Option.mem_some_iff.mp mem_d
          refine ⟨holdsD₂, fun u mem inside => ?_⟩
          by_cases same : u = x
          · exact x_gone (by rw [← same]; exact inside)
          · exact apart u (by simp at mem ⊢; tauto) (by simp at inside ⊢; tauto)
        obtain ⟨heap', ran, holds', dups', agree⟩ := ih holds₂ dups₂ turns fewer
        refine ⟨heap', ?_, by simpa [distinct] using holds',
          fun d' mem => by simpa [duplicatesAfter, distinct] using dups' d' mem, fun u outside outside_dups => ?_⟩
        · rw [listUniqueLoop]
          simp [step, not_end, deref, equal, removed, pushed, ran, bind, Except.bind, pure, Except.pure]
        · have not_x : u ≠ x := fun same => outside (by simp [same])
          have outside_d := outside_dups d rfl
          rw [agree u (fun mem => outside (by simp at mem ⊢; tauto))
              (fun d' mem_d => by
                obtain rfl := Option.mem_some_iff.mp mem_d
                simp at outside_d ⊢
                tauto),
            agree₂ u (by simp at outside_d ⊢; tauto), agree₁' u outside]

/-- `list_unique` keeps of the sequence what `List.destutter` keeps: it takes out each element
equal, by `less`, to the last one kept before it, and appends those to `duplicates` when given. -/
theorem listUnique_holds {duplicates : Option (Header α)} {xs ds : List α} (holds : Holds heap list xs)
    (dups : ∀ d ∈ duplicates, Holds heap d ds ∧
      ∀ u ∈ d.head :: (ds ++ [d.tail]), u ∉ list.head :: (xs ++ [list.tail]))
    {fuel : Nat} (enough : xs.length < fuel) :
    ∃ heap', listUnique heap list duplicates less fuel = .ok heap' ∧
      Holds heap' list (xs.destutter (Distinct less)) ∧
      (∀ d ∈ duplicates, Holds heap' d (ds ++ duplicatesOf less xs)) ∧
      ∀ u ∉ list.head :: (xs ++ [list.tail]),
        (∀ d ∈ duplicates, u ∉ d.head :: (ds ++ [d.tail])) → heap' u = heap u := by
  cases xs with
  | nil =>
    have empty : listEmpty heap list = true := holds.listEmpty_iff.mpr rfl
    refine ⟨heap, by simp [listUnique, empty]; rfl, by simpa using holds,
      fun d mem => by simpa [duplicatesOf] using (dups d mem).1, fun _ _ _ => rfl⟩
  | cons x rest =>
    have not_empty : listEmpty heap list = false := by simpa using holds.listEmpty_iff
    have begin : listBegin heap list = some x := holds.linked_head.1
    have start : Holds heap list ([] ++ x :: rest) := by simpa using holds
    have fewer : rest.length < fuel := by simp at enough; omega
    obtain ⟨heap', ran, holds', dups', agree⟩ :=
      listUniqueLoop_holds less start (by simpa using dups) fewer
    refine ⟨heap', ?_, by simpa [List.destutter_cons'] using holds',
      by simpa [duplicatesOf] using dups', fun u outside => agree u (by simpa using outside)⟩
    simp [listUnique, not_empty, begin, deref, ran, bind, Except.bind, pure, Except.pure]

end Unique

/-! ## `list_max` and `list_min` -/

section Extremes

variable (less : α → α → Bool)

/-- One turn of `list_max`: the later element when the kept one is less than it. -/
def maxStep (m x : α) : α := if less m x then x else m

/-- `m` is the first maximal element of `xs`: every element before it is less than it, and none
after it is greater. -/
def IsFirstMax (xs : List α) (m : α) : Prop :=
  ∃ A B, xs = A ++ m :: B ∧ (∀ y ∈ A, less y m = true) ∧ ∀ y ∈ B, less m y = false

theorem listMaxLoop_eq {pre rest : List α} (holds : Holds heap list (pre ++ rest)) (m : α)
    {fuel : Nat} (enough : rest.length < fuel) :
    listMaxLoop heap list less fuel (some (rest.headD list.tail)) (some m) =
      .ok (some (rest.foldl (maxStep less) m)) := by
  obtain ⟨fuel, rfl⟩ : ∃ turns, fuel = turns + 1 := ⟨fuel - 1, by omega⟩
  induction rest generalizing pre m fuel with
  | nil =>
    simp [listMaxLoop, listEnd]
    rfl
  | cons x rest ih =>
    have not_end : some x ≠ listEnd list := by
      simpa [listEnd] using holds.ne_tail (by simp)
    have step := listNext_of_linked holds.linked_cons
    have later : Holds heap list ((pre ++ [x]) ++ rest) := by simpa using holds
    obtain ⟨turns, rfl⟩ : ∃ turns, fuel = turns + 1 := ⟨fuel - 1, by simp at enough; omega⟩
    have next := ih later (maxStep less m x) turns (by simp at enough; omega)
    rw [List.headD_cons, listMaxLoop, if_neg (by simpa using not_end)]
    simp only [deref, pure, Except.pure, bind, Except.bind, step]
    by_cases larger : less m x = true
    · simp only [List.foldl_cons, maxStep, larger, if_true] at next ⊢
      exact next
    · simp only [List.foldl_cons, maxStep, larger, Bool.false_eq_true, if_false] at next ⊢
      exact next

/-- `list_max` of a list holding `x :: rest` returns the fold of `maxStep` from `x`. -/
theorem listMax_cons {x : α} {rest : List α} (holds : Holds heap list (x :: rest)) {fuel : Nat}
    (enough : (x :: rest).length < fuel) :
    listMax heap list less fuel = .ok (some (rest.foldl (maxStep less) x)) := by
  have begin : listBegin heap list = some x := holds.linked_head.1
  have not_end : some x ≠ listEnd list := by simpa [listEnd] using holds.ne_tail (by simp)
  have start : Holds heap list ([] ++ x :: rest) := by simpa using holds
  have after : Holds heap list ([x] ++ rest) := by simpa using holds
  have step := listNext_of_linked start.linked_cons
  have loop := listMaxLoop_eq less after x (show rest.length < fuel by simp at enough; omega)
  simp only [listMax, begin, ne_eq, not_end, not_false_eq_true, if_true, step, bind, Except.bind, loop]

theorem listMax_nil (holds : Holds heap list []) (fuel : Nat) :
    listMax heap list less fuel = .ok (some list.tail) := by
  have begin : listBegin heap list = some list.tail := holds.linked_head.1
  simp [listMax, begin, listEnd]
  rfl

omit [DecidableEq α] in
/-- In a strict weak order, an element between two others in order is above the first or
below the second. -/
theorem connected_of_strictWeakOrder (order : IsStrictWeakOrder α fun a b => less a b = true)
    {a b c : α} (lower : less a c = true) : less a b = true ∨ less b c = true := by
  by_contra neither
  obtain ⟨not_ab, not_bc⟩ := not_or.mp neither
  have not_ba : less b a ≠ true := fun ba => not_bc (order.trans b a c ba lower)
  have not_cb : less c b ≠ true := fun cb => not_ab (order.trans a c b lower cb)
  exact (order.incomp_trans a b c ⟨not_ab, not_ba⟩ ⟨not_bc, not_cb⟩).1 lower

omit [DecidableEq α] in
/-- One turn of `list_max` keeps the first maximal element of what it has seen. -/
theorem IsFirstMax.snoc (order : IsStrictWeakOrder α fun a b => less a b = true) {xs : List α}
    {m : α} (first : IsFirstMax less xs m) (y : α) :
    IsFirstMax less (xs ++ [y]) (maxStep less m y) := by
  obtain ⟨A, B, rfl, below, above⟩ := first
  by_cases larger : less m y = true
  · -- `y` is above everything seen so far
    refine ⟨A ++ m :: B, [], by simp [maxStep, larger], fun z mem => ?_, by simp⟩
    simp only [maxStep, larger, if_true]
    rcases List.mem_append.mp mem with before | here
    · exact order.trans z m y (below z before) larger
    rcases List.mem_cons.mp here with rfl | after
    · exact larger
    · exact (connected_of_strictWeakOrder less order larger).resolve_left (by simp [above z after])
  · refine ⟨A, B ++ [y], by simp [maxStep, larger], by simpa [maxStep, larger] using below,
      fun z mem => ?_⟩
    rcases List.mem_append.mp mem with after | last
    · simpa [maxStep, larger] using above z after
    · obtain rfl := List.mem_singleton.mp last
      simp [maxStep, larger]

omit [DecidableEq α] in
theorem isFirstMax_foldl (order : IsStrictWeakOrder α fun a b => less a b = true) (x : α)
    (rest : List α) : IsFirstMax less (x :: rest) (rest.foldl (maxStep less) x) := by
  suffices seen : ∀ (pre : List α) (m : α), IsFirstMax less pre m →
      IsFirstMax less (pre ++ rest) (rest.foldl (maxStep less) m) from
    seen [x] x ⟨[], [], rfl, by simp, by simp⟩
  induction rest with
  | nil =>
    intro pre m first
    simpa using first
  | cons y rest ih =>
    intro pre m first
    simpa using ih (pre ++ [y]) (maxStep less m y) (first.snoc less order y)

/-- `m` is the first minimal element of `xs`: every element before it is greater than it, and
none after it is less. -/
def IsFirstMin (xs : List α) (m : α) : Prop :=
  ∃ A B, xs = A ++ m :: B ∧ (∀ y ∈ A, less m y = true) ∧ ∀ y ∈ B, less y m = false

theorem listMinLoop_eq_listMaxLoop (fuel : Nat) (e min : Option α) :
    listMinLoop heap list less fuel e min = listMaxLoop heap list (fun a b => less b a) fuel e min := by
  induction fuel generalizing e min with
  | zero => rfl
  | succ fuel ih =>
    -- the two loops follow their pointers in the other order, which only changes which
    -- null pointer fails first
    simp only [listMinLoop, listMaxLoop, ih]
    cases e <;> cases min <;> rfl

/-- `list_min` is `list_max` with the comparison turned round. -/
theorem listMin_eq_listMax (fuel : Nat) :
    listMin heap list less fuel = listMax heap list (fun a b => less b a) fuel := by
  simp only [listMin, listMax, listMinLoop_eq_listMaxLoop]

omit [DecidableEq α] in
/-- In a strict weak order, the fold of `maxStep` with the comparison turned round finds the
first minimal element. -/
theorem isFirstMin_foldl (order : IsStrictWeakOrder α fun a b => less a b = true) (x : α)
    (rest : List α) : IsFirstMin less (x :: rest) (rest.foldl (maxStep fun a b => less b a) x) := by
  have turned : IsStrictWeakOrder α fun a b => less b a = true := by
    have := order
    exact inferInstanceAs (IsStrictWeakOrder α (swap fun a b => less a b = true))
  exact isFirstMax_foldl (fun a b => less b a) turned x rest

end Extremes

end Pintos.KernelList
