import Mathlib
import Pintos.Links

/-!
# Doubly linked lists

`lib/kernel/list.c`. A list is two header elements, `head` and `tail`, joined through its
interior elements by their `next` and `prev` links. Elements are addresses of type `α`, a
null pointer is `none`, and the links of all elements are a heap `α → ListElem α` that the
operations read and write. A failed `ASSERT` is an error naming the assertion; a loop runs
for at most `fuel` turns.

A list holds the sequence `xs` when `head :: xs ++ [tail]` is doubly linked with no element
twice (`Holds`); each operation is proved to act on that sequence as its abstract
counterpart does, and to leave every element outside it alone.
-/

namespace Pintos.KernelList

open Function Links

variable {α : Type} [DecidableEq α]

/-- `struct list_elem`. -/
structure ListElem (α : Type) where
  prev : Option α
  next : Option α
  deriving DecidableEq, Repr

/-- The links of every element. -/
abbrev Heap (α : Type) := α → ListElem α

/-- `struct list`: its header elements are two members of one structure. -/
structure Header (α : Type) where
  head : α
  tail : α
  head_ne_tail : head ≠ tail

def setPrev (heap : Heap α) (elem : α) (prev : Option α) : Heap α :=
  update heap elem { heap elem with prev }

def setNext (heap : Heap α) (elem : α) (next : Option α) : Heap α :=
  update heap elem { heap elem with next }

def nextOf (heap : Heap α) (elem : α) : Option α := (heap elem).next

def prevOf (heap : Heap α) (elem : α) : Option α := (heap elem).prev

section Updates

variable {heap : Heap α} {elem u : α} {link : Option α}

@[simp] theorem setPrev_next : (setPrev heap elem link u).next = (heap u).next := by
  by_cases same : u = elem
  · subst same; simp [setPrev]
  · simp [setPrev, update_of_ne same]

@[simp] theorem setNext_prev : (setNext heap elem link u).prev = (heap u).prev := by
  by_cases same : u = elem
  · subst same; simp [setNext]
  · simp [setNext, update_of_ne same]

@[simp] theorem setPrev_prev :
    (setPrev heap elem link u).prev = if u = elem then link else (heap u).prev := by
  by_cases same : u = elem
  · subst same; simp [setPrev]
  · simp [setPrev, same]

@[simp] theorem setNext_next :
    (setNext heap elem link u).next = if u = elem then link else (heap u).next := by
  by_cases same : u = elem
  · subst same; simp [setNext]
  · simp [setNext, same]

@[simp] theorem nextOf_setNext : nextOf (setNext heap elem link) = update (nextOf heap) elem link := by
  funext u
  simp [nextOf, update_apply]

@[simp] theorem nextOf_setPrev : nextOf (setPrev heap elem link) = nextOf heap := by
  funext u
  simp [nextOf]

@[simp] theorem prevOf_setPrev : prevOf (setPrev heap elem link) = update (prevOf heap) elem link := by
  funext u
  simp [prevOf, update_apply]

@[simp] theorem prevOf_setNext : prevOf (setNext heap elem link) = prevOf heap := by
  funext u
  simp [prevOf]

theorem setPrev_of_ne (apart : u ≠ elem) : setPrev heap elem link u = heap u :=
  update_of_ne apart ..

theorem setNext_of_ne (apart : u ≠ elem) : setNext heap elem link u = heap u :=
  update_of_ne apart ..

end Updates

/-! ## The code -/

/-- `is_head`. -/
def isHead (heap : Heap α) : Option α → Bool
  | none => false
  | some elem => (heap elem).prev.isNone && (heap elem).next.isSome

/-- `is_interior`. -/
def isInterior (heap : Heap α) : Option α → Bool
  | none => false
  | some elem => (heap elem).prev.isSome && (heap elem).next.isSome

/-- `is_tail`. -/
def isTail (heap : Heap α) : Option α → Bool
  | none => false
  | some elem => (heap elem).prev.isSome && (heap elem).next.isNone

/-- Following a pointer, which must not be null. -/
def deref : Option α → Except String α
  | some elem => pure elem
  | none => throw "null pointer dereference"

def listInit (heap : Heap α) (list : Header α) : Heap α :=
  let heap := setPrev heap list.head none
  let heap := setNext heap list.head (some list.tail)
  let heap := setPrev heap list.tail (some list.head)
  setNext heap list.tail none

def listBegin (heap : Heap α) (list : Header α) : Option α := (heap list.head).next

def listEnd (list : Header α) : Option α := some list.tail

def listNext (heap : Heap α) (elem : Option α) : Except String (Option α) := do
  if ¬ (isHead heap elem || isInterior heap elem) then
    throw "assertion is_head (elem) || is_interior (elem) failed"
  let elem ← deref elem
  return (heap elem).next

def listPrev (heap : Heap α) (elem : Option α) : Except String (Option α) := do
  if ¬ (isInterior heap elem || isTail heap elem) then
    throw "assertion is_interior (elem) || is_tail (elem) failed"
  let elem ← deref elem
  return (heap elem).prev

def listInsert (heap : Heap α) (before elem : Option α) : Except String (Heap α) := do
  if ¬ (isInterior heap before || isTail heap before) then
    throw "assertion is_interior (before) || is_tail (before) failed"
  let some elem := elem | throw "assertion elem != NULL failed"
  let before ← deref before
  let heap := setPrev heap elem (heap before).prev
  let heap := setNext heap elem (some before)
  let heap := setNext heap (← deref (heap before).prev) (some elem)
  return setPrev heap before (some elem)

def listSplice (heap : Heap α) (before first last : Option α) : Except String (Heap α) := do
  if ¬ (isInterior heap before || isTail heap before) then
    throw "assertion is_interior (before) || is_tail (before) failed"
  if first = last then return heap
  let last ← listPrev heap last
  if ¬ isInterior heap first then throw "assertion is_interior (first) failed"
  if ¬ isInterior heap last then throw "assertion is_interior (last) failed"
  let first ← deref first
  let last ← deref last
  let before ← deref before
  -- Cleanly remove FIRST...LAST from its current list.
  let heap := setNext heap (← deref (heap first).prev) (heap last).next
  let heap := setPrev heap (← deref (heap last).next) (heap first).prev
  -- Splice FIRST...LAST into new list.
  let heap := setPrev heap first (heap before).prev
  let heap := setNext heap last (some before)
  let heap := setNext heap (← deref (heap before).prev) (some first)
  return setPrev heap before (some last)

def listPushFront (heap : Heap α) (list : Header α) (elem : Option α) : Except String (Heap α) :=
  listInsert heap (listBegin heap list) elem

def listPushBack (heap : Heap α) (list : Header α) (elem : Option α) : Except String (Heap α) :=
  listInsert heap (listEnd list) elem

/-- `list_remove`, with the heap it leaves and the element it returns. -/
def listRemove (heap : Heap α) (elem : Option α) : Except String (Heap α × Option α) := do
  if ¬ isInterior heap elem then throw "assertion is_interior (elem) failed"
  let elem ← deref elem
  let heap := setNext heap (← deref (heap elem).prev) (heap elem).next
  let heap := setPrev heap (← deref (heap elem).next) (heap elem).prev
  return (heap, (heap elem).next)

def listEmpty (heap : Heap α) (list : Header α) : Bool := listBegin heap list = listEnd list

def listFront (heap : Heap α) (list : Header α) : Except String (Option α) := do
  if listEmpty heap list then throw "assertion !list_empty (list) failed"
  return (heap list.head).next

def listBack (heap : Heap α) (list : Header α) : Except String (Option α) := do
  if listEmpty heap list then throw "assertion !list_empty (list) failed"
  return (heap list.tail).prev

def listPopFront (heap : Heap α) (list : Header α) : Except String (Heap α × Option α) := do
  let front ← listFront heap list
  let (heap, _) ← listRemove heap front
  return (heap, front)

def listPopBack (heap : Heap α) (list : Header α) : Except String (Heap α × Option α) := do
  let back ← listBack heap list
  let (heap, _) ← listRemove heap back
  return (heap, back)

/-- The loop of `list_size`. -/
def listSizeLoop (heap : Heap α) (list : Header α) : Nat → Option α → Nat → Except String Nat
  | 0, _, _ => throw "out of fuel"
  | fuel + 1, e, cnt =>
    if e = listEnd list then pure cnt
    else do listSizeLoop heap list fuel (← listNext heap e) (cnt + 1)

def listSize (heap : Heap α) (list : Header α) (fuel : Nat) : Except String Nat :=
  listSizeLoop heap list fuel (listBegin heap list) 0

/-- `swap (&elem->prev, &elem->next)`. -/
def swapLinks (heap : Heap α) (elem : α) : Heap α :=
  let t := (heap elem).prev
  let heap := setPrev heap elem (heap elem).next
  setNext heap elem t

/-- The loop of `list_reverse`, which moves on by the `prev` link it has just swapped in. -/
def listReverseLoop (list : Header α) : Nat → Heap α → Option α → Except String (Heap α)
  | 0, _, _ => throw "out of fuel"
  | fuel + 1, heap, e =>
    if e = listEnd list then pure heap
    else do
      let elem ← deref e
      let heap := swapLinks heap elem
      listReverseLoop list fuel heap (heap elem).prev

def listReverse (heap : Heap α) (list : Header α) (fuel : Nat) : Except String (Heap α) := do
  if listEmpty heap list then return heap
  let heap ← listReverseLoop list fuel heap (listBegin heap list)
  -- swap (&list->head.next, &list->tail.prev)
  let t := (heap list.head).next
  let heap := setNext heap list.head (heap list.tail).prev
  let heap := setPrev heap list.tail t
  -- swap (&list->head.next->prev, &list->tail.prev->next)
  let front ← deref (heap list.head).next
  let back ← deref (heap list.tail).prev
  let t := (heap front).prev
  let heap := setPrev heap front (heap back).next
  return setNext heap back t

/-- The loop of `list_insert_ordered`: the first element that `elem` is less than, or the
tail. -/
def listInsertOrderedLoop (heap : Heap α) (list : Header α) (elem : α) (less : α → α → Bool) :
    Nat → Option α → Except String (Option α)
  | 0, _ => throw "out of fuel"
  | fuel + 1, e =>
    if e = listEnd list then pure e
    else do
      if less elem (← deref e) then pure e
      else listInsertOrderedLoop heap list elem less fuel (← listNext heap e)

def listInsertOrdered (heap : Heap α) (list : Header α) (elem : Option α)
    (less : α → α → Bool) (fuel : Nat) : Except String (Heap α) := do
  let some elemAddr := elem | throw "assertion elem != NULL failed"
  let e ← listInsertOrderedLoop heap list elemAddr less fuel (listBegin heap list)
  listInsert heap e elem

/-- The loop of `list_unique`: `elem` stays put while the element after it is removed. -/
def listUniqueLoop (list : Header α) (duplicates : Option (Header α)) (less : α → α → Bool) :
    Nat → Heap α → α → Except String (Heap α)
  | 0, _, _ => throw "out of fuel"
  | fuel + 1, heap, elem => do
    let next ← listNext heap (some elem)
    if next = listEnd list then return heap
    let nextAddr ← deref next
    if !less elem nextAddr && !less nextAddr elem then
      let (heap, _) ← listRemove heap next
      let heap ← match duplicates with
        | some duplicates => listPushBack heap duplicates next
        | none => pure heap
      listUniqueLoop list duplicates less fuel heap elem
    else listUniqueLoop list duplicates less fuel heap nextAddr

def listUnique (heap : Heap α) (list : Header α) (duplicates : Option (Header α))
    (less : α → α → Bool) (fuel : Nat) : Except String (Heap α) := do
  if listEmpty heap list then return heap
  let elem ← deref (listBegin heap list)
  listUniqueLoop list duplicates less fuel heap elem

/-- The loop of `list_max`. -/
def listMaxLoop (heap : Heap α) (list : Header α) (less : α → α → Bool) :
    Nat → Option α → Option α → Except String (Option α)
  | 0, _, _ => throw "out of fuel"
  | fuel + 1, e, max =>
    if e = listEnd list then pure max
    else do
      let max := if less (← deref max) (← deref e) then e else max
      listMaxLoop heap list less fuel (← listNext heap e) max

def listMax (heap : Heap α) (list : Header α) (less : α → α → Bool) (fuel : Nat) :
    Except String (Option α) := do
  let max := listBegin heap list
  if max ≠ listEnd list then listMaxLoop heap list less fuel (← listNext heap max) max
  else return max

/-- The loop of `list_min`, which compares the other way round. -/
def listMinLoop (heap : Heap α) (list : Header α) (less : α → α → Bool) :
    Nat → Option α → Option α → Except String (Option α)
  | 0, _, _ => throw "out of fuel"
  | fuel + 1, e, min =>
    if e = listEnd list then pure min
    else do
      let min := if less (← deref e) (← deref min) then e else min
      listMinLoop heap list less fuel (← listNext heap e) min

def listMin (heap : Heap α) (list : Header α) (less : α → α → Bool) (fuel : Nat) :
    Except String (Option α) := do
  let min := listBegin heap list
  if min ≠ listEnd list then listMinLoop heap list less fuel (← listNext heap min) min
  else return min

/-! ## Lists and the sequences they hold -/

/-- `v` comes right after `u`. -/
def Linked (heap : Heap α) : α → α → Prop := Adjacent (nextOf heap) (prevOf heap)

/-- `list` holds `xs`: following `next` from `head` runs through `xs` to `tail`, the `prev`
links run back the same way, and no element comes twice. -/
structure Holds (heap : Heap α) (list : Header α) (xs : List α) : Prop where
  linked : (list.head :: (xs ++ [list.tail])).IsChain (Linked heap)
  nodup : (list.head :: (xs ++ [list.tail])).Nodup

instance (heap : Heap α) : DecidableRel (Linked heap) :=
  fun u v => inferInstanceAs (Decidable (Adjacent (nextOf heap) (prevOf heap) u v))

instance (heap : Heap α) (list : Header α) (xs : List α) : Decidable (Holds heap list xs) :=
  decidable_of_iff ((list.head :: (xs ++ [list.tail])).IsChain (Linked heap) ∧
      (list.head :: (xs ++ [list.tail])).Nodup)
    ⟨fun holds => ⟨holds.1, holds.2⟩, fun holds => ⟨holds.linked, holds.nodup⟩⟩

/-- The writes of `list_remove`, and of the first half of `list_splice`: `n` made to follow
`p`. -/
def joinLinks (heap : Heap α) (p n : α) : Heap α :=
  setPrev (setNext heap p (some n)) n (some p)

/-- The writes of `list_insert`, and of the second half of `list_splice`: the run from
`first` to `last` put between `p` and `before`. -/
def spliceLinks (heap : Heap α) (p before first last : α) : Heap α :=
  setPrev (setNext (setNext (setPrev heap first (some p)) last (some before)) p (some first))
    before (some last)

section Writes

variable {heap : Heap α} {p n before first last u : α}

theorem linked_joinLinks :
    Linked (joinLinks heap p n) =
      Adjacent (update (nextOf heap) p (some n)) (update (prevOf heap) n (some p)) := by
  simp [Linked, joinLinks]

theorem linked_spliceLinks :
    Linked (spliceLinks heap p before first last) =
      Adjacent (update (update (nextOf heap) last (some before)) p (some first))
        (update (update (prevOf heap) first (some p)) before (some last)) := by
  simp [Linked, spliceLinks]

theorem joinLinks_of_ne (apart_p : u ≠ p) (apart_n : u ≠ n) : joinLinks heap p n u = heap u := by
  rw [joinLinks, setPrev_of_ne apart_n, setNext_of_ne apart_p]

theorem spliceLinks_of_ne (apart_p : u ≠ p) (apart_before : u ≠ before) (apart_first : u ≠ first)
    (apart_last : u ≠ last) : spliceLinks heap p before first last u = heap u := by
  rw [spliceLinks, setPrev_of_ne apart_before, setNext_of_ne apart_p, setNext_of_ne apart_last,
    setPrev_of_ne apart_first]

end Writes

section Holds

variable {heap heap' : Heap α} {list : Header α} {xs : List α}

theorem listInit_holds (heap : Heap α) (list : Header α) : Holds (listInit heap list) list [] where
  linked := by
    have apart := list.head_ne_tail
    simp [Linked, Adjacent, listInit, apart]
  nodup := by simpa using list.head_ne_tail

omit [DecidableEq α] in
theorem Holds.frame (holds : Holds heap list xs)
    (agree : ∀ u ∈ list.head :: (xs ++ [list.tail]), heap' u = heap u) : Holds heap' list xs where
  linked := isChain_of_forall_eq holds.linked (fun u mem => by simp [nextOf, agree u mem])
    (fun u mem => by simp [prevOf, agree u mem])
  nodup := holds.nodup

omit [DecidableEq α] in
theorem Holds.split (holds : Holds heap list xs) {ys zs : List α} (split : xs = ys ++ zs) :
    ∃ A p b B, list.head :: ys = A ++ [p] ∧ zs ++ [list.tail] = b :: B ∧
      list.head :: (xs ++ [list.tail]) = A ++ p :: b :: B ∧ Linked heap p b := by
  obtain ⟨A, p, prefix_eq⟩ : ∃ A p, list.head :: ys = A ++ [p] :=
    ⟨_, _, (List.dropLast_append_getLast (List.cons_ne_nil _ _)).symm⟩
  obtain ⟨b, B, suffix_eq⟩ : ∃ b B, zs ++ [list.tail] = b :: B := by
    cases zs with
    | nil => exact ⟨_, _, rfl⟩
    | cons z zs => exact ⟨_, _, rfl⟩
  have nodes : list.head :: (xs ++ [list.tail]) = A ++ p :: b :: B := by
    rw [split, List.append_assoc, ← List.cons_append, prefix_eq, suffix_eq]
    simp
  have chain := holds.linked
  rw [nodes] at chain
  exact ⟨A, p, b, B, prefix_eq, suffix_eq, nodes, (List.isChain_append_cons_cons.mp chain).2.1⟩

omit [DecidableEq α] in
theorem Holds.listBegin_eq (holds : Holds heap list xs) :
    listBegin heap list = (xs ++ [list.tail]).head? := by
  obtain ⟨A, p, b, B, prefix_eq, suffix_eq, -, linked⟩ := holds.split (List.nil_append xs).symm
  obtain ⟨rfl, rfl⟩ : A = [] ∧ p = list.head := List.append_singleton_inj.mp prefix_eq.symm
  have next_head : (heap list.head).next = some b := linked.1
  rw [listBegin, next_head, suffix_eq]
  rfl

omit [DecidableEq α] in
theorem Holds.tail_prev_eq (holds : Holds heap list xs) :
    (heap list.tail).prev = (list.head :: xs).getLast? := by
  obtain ⟨A, p, b, B, prefix_eq, suffix_eq, -, linked⟩ := holds.split (List.append_nil xs).symm
  obtain ⟨rfl, rfl⟩ : list.tail = b ∧ B = [] := by simpa using suffix_eq
  rw [← prevOf, linked.2, prefix_eq, List.getLast?_concat]

theorem Holds.listEmpty_iff (holds : Holds heap list xs) : listEmpty heap list = true ↔ xs = [] := by
  rw [listEmpty, holds.listBegin_eq, listEnd, decide_eq_true_iff]
  cases xs with
  | nil => simp
  | cons x xs =>
    have apart : x ≠ list.tail := by
      have := holds.nodup
      grind
    simpa using apart

end Holds

/-! ## Insertion and removal -/

section Straight

variable {heap : Heap α} {list : Header α}

theorem listInsert_eq {p before elem : α} (linked : Linked heap p before) :
    listInsert heap (some before) (some elem) = .ok (spliceLinks heap p before elem elem) := by
  have prev_before : (heap before).prev = some p := linked.2
  simp [listInsert, isInterior, isTail, deref, prev_before, spliceLinks]
  rfl

omit [DecidableEq α] in
theorem Holds.next_isSome {xs : List α} (holds : Holds heap list xs) {u : α}
    (mem : u ∈ list.head :: xs) : (heap u).next.isSome := by
  have nodup := holds.nodup
  exact isSome_next_of_mem holds.linked (by grind) (by simp; grind)

omit [DecidableEq α] in
theorem Holds.prev_isSome {xs : List α} (holds : Holds heap list xs) {u : α}
    (mem : u ∈ xs ++ [list.tail]) : (heap u).prev.isSome := by
  have nodup := holds.nodup
  exact isSome_prev_of_mem holds.linked (by grind) (by simp; grind)

omit [DecidableEq α] in
theorem perm_run (head tail : α) (ys S zs : List α) :
    (head :: (ys ++ S ++ zs ++ [tail])).Perm (S ++ head :: (ys ++ zs ++ [tail])) := by
  have middle : (ys ++ S ++ zs).Perm (S ++ (ys ++ zs)) := by
    simpa using List.perm_append_comm_assoc ys S zs
  have moved : (head :: (S ++ (ys ++ zs ++ [tail]))).Perm (S ++ head :: (ys ++ zs ++ [tail])) :=
    List.perm_middle.symm
  exact ((middle.append_right [tail]).cons head).trans (by simpa using moved)

omit [DecidableEq α] in
theorem Holds.run_apart {P S Q : List α} (holds : Holds heap list (P ++ S ++ Q)) :
    S.Nodup ∧ ∀ u ∈ S, u ∉ list.head :: (P ++ Q ++ [list.tail]) := by
  obtain ⟨run_nodup, -, apart⟩ :=
    List.nodup_append.mp ((perm_run list.head list.tail P S Q).nodup_iff.mp holds.nodup)
  exact ⟨run_nodup, fun u mem outside => apart u mem u outside rfl⟩

omit [DecidableEq α] in
/-- Putting a run without repetitions, and with no element of the list, into the sequence
keeps the nodes without repetitions. -/
theorem Holds.nodup_with_run {ys zs S : List α} (holds : Holds heap list (ys ++ zs))
    (run_nodup : S.Nodup) (fresh : ∀ u ∈ S, u ∉ list.head :: (ys ++ zs ++ [list.tail])) :
    (list.head :: (ys ++ S ++ zs ++ [list.tail])).Nodup :=
  (perm_run list.head list.tail ys S zs).nodup_iff.mpr
    (List.nodup_append.mpr ⟨run_nodup, holds.nodup, fun u mem _ mem' same => fresh u mem (same ▸ mem')⟩)

/-- Cutting the run `S` out of a list: the links around it are joined, and the run keeps
its own. -/
theorem Holds.cut {P S Q : List α} {first last : α} (holds : Holds heap list (P ++ S ++ Q))
    (first_eq : S.head? = some first) (last_eq : (Q ++ [list.tail]).head? = some last) :
    ∃ p l, p ∈ list.head :: P ∧ S.getLast? = some l ∧ Linked heap p first ∧
      Linked heap l last ∧ Holds (joinLinks heap p last) list (P ++ Q) ∧
      S.IsChain (Linked (joinLinks heap p last)) := by
  obtain ⟨A, p, prefix_eq⟩ : ∃ A p, list.head :: P = A ++ [p] :=
    ⟨_, _, (List.dropLast_append_getLast (List.cons_ne_nil _ _)).symm⟩
  obtain ⟨C, suffix_eq⟩ : ∃ C, Q ++ [list.tail] = last :: C := List.head?_eq_some_iff.mp last_eq
  obtain ⟨S', rfl⟩ : ∃ S', S = first :: S' := List.head?_eq_some_iff.mp first_eq
  obtain ⟨S0, l, run_eq⟩ : ∃ S0 l, first :: S' = S0 ++ [l] :=
    ⟨_, _, (List.dropLast_append_getLast (List.cons_ne_nil _ _)).symm⟩
  have nodes : list.head :: (P ++ first :: S' ++ Q ++ [list.tail]) =
      A ++ p :: (first :: S' ++ last :: C) := by
    rw [← suffix_eq, show A ++ p :: (first :: S' ++ (Q ++ [list.tail])) =
      (A ++ [p]) ++ (first :: S' ++ (Q ++ [list.tail])) by simp, ← prefix_eq]
    simp
  have nodes' : list.head :: (P ++ Q ++ [list.tail]) = A ++ p :: last :: C := by
    rw [← suffix_eq, show A ++ p :: (Q ++ [list.tail]) = (A ++ [p]) ++ (Q ++ [list.tail]) by simp,
      ← prefix_eq]
    simp
  have chain := holds.linked
  have nodup := holds.nodup
  rw [nodes] at chain nodup
  have run : (first :: S').IsChain (Linked heap) := chain.infix ⟨A ++ [p], last :: C, by simp⟩
  refine ⟨p, l, by simp [prefix_eq], by simp [run_eq], ?_, ?_, ⟨?_, ?_⟩, ?_⟩
  · exact List.isChain_iff_forall_rel_of_append_cons_cons.mp chain
      (show _ = A ++ p :: first :: (S' ++ last :: C) by simp)
  · exact List.isChain_iff_forall_rel_of_append_cons_cons.mp chain
      (show _ = (A ++ p :: S0) ++ l :: last :: C by rw [run_eq]; simp)
  · rw [nodes', linked_joinLinks]
    exact isChain_unlink chain nodup
  · rw [nodes']
    exact nodup.sublist (((List.sublist_append_right _ _).cons_cons p).append_left A)
  · rw [linked_joinLinks]
    refine isChain_of_forall_eq run (fun u mem => update_of_ne ?_ ..) (fun u mem => update_of_ne ?_ ..)
    all_goals grind

theorem Holds.link {ys zs S : List α} {before first last : α} (holds : Holds heap list (ys ++ zs))
    (before_eq : (zs ++ [list.tail]).head? = some before) (run : S.IsChain (Linked heap))
    (first_eq : S.head? = some first) (last_eq : S.getLast? = some last)
    (nodup : (list.head :: (ys ++ S ++ zs ++ [list.tail])).Nodup) :
    ∃ p, p ∈ list.head :: ys ∧ Linked heap p before ∧
      Holds (spliceLinks heap p before first last) list (ys ++ S ++ zs) := by
  obtain ⟨A, p, b, B, prefix_eq, suffix_eq, nodes, linked⟩ := holds.split rfl
  obtain rfl : b = before := by simpa [suffix_eq] using before_eq
  have chain := holds.linked
  rw [nodes] at chain
  have nodes' : list.head :: (ys ++ S ++ zs ++ [list.tail]) = A ++ p :: (S ++ b :: B) := by
    rw [← suffix_eq, show A ++ p :: (S ++ (zs ++ [list.tail])) =
      (A ++ [p]) ++ (S ++ (zs ++ [list.tail])) by simp, ← prefix_eq]
    simp
  rw [nodes'] at nodup
  refine ⟨p, by simp [prefix_eq], linked, ?_, by rwa [nodes']⟩
  rw [nodes', linked_spliceLinks]
  exact isChain_link chain run first_eq last_eq nodup

/-- `list_insert` puts `elem` into the sequence right before `before`. -/
theorem listInsert_holds {ys zs : List α} {before elem : α} (holds : Holds heap list (ys ++ zs))
    (before_eq : (zs ++ [list.tail]).head? = some before)
    (fresh : elem ∉ list.head :: (ys ++ zs ++ [list.tail])) :
    ∃ heap', listInsert heap (some before) (some elem) = .ok heap' ∧
      Holds heap' list (ys ++ elem :: zs) ∧
      ∀ u ∉ elem :: list.head :: (ys ++ zs ++ [list.tail]), heap' u = heap u := by
  have nodup : (list.head :: (ys ++ [elem] ++ zs ++ [list.tail])).Nodup :=
    holds.nodup_with_run (by simp) (by simpa using fresh)
  obtain ⟨p, mem_p, linked, holds'⟩ :=
    holds.link before_eq (List.isChain_singleton elem) rfl rfl nodup
  have mem_before : before ∈ zs ++ [list.tail] := List.mem_of_mem_head? before_eq
  refine ⟨_, listInsert_eq linked, by simpa using holds', fun u outside => ?_⟩
  exact spliceLinks_of_ne (by grind) (by grind) (by grind) (by grind)

theorem listRemove_eq {p elem n : α} (linked_prev : Linked heap p elem)
    (linked_next : Linked heap elem n) :
    listRemove heap (some elem) = .ok (joinLinks heap p n, some n) := by
  have prev_elem : (heap elem).prev = some p := linked_prev.2
  have next_elem : (heap elem).next = some n := linked_next.1
  simp [listRemove, isInterior, deref, prev_elem, next_elem, joinLinks]
  rfl

/-- `list_remove` takes `elem` out of the sequence and returns what followed it. -/
theorem listRemove_holds {ys zs : List α} {elem : α} (holds : Holds heap list (ys ++ elem :: zs)) :
    ∃ heap', listRemove heap (some elem) = .ok (heap', (zs ++ [list.tail]).head?) ∧
      Holds heap' list (ys ++ zs) ∧
      ∀ u ∉ list.head :: (ys ++ elem :: zs ++ [list.tail]), heap' u = heap u := by
  obtain ⟨n, next_eq⟩ : ∃ n, (zs ++ [list.tail]).head? = some n := by cases zs <;> simp
  have split : Holds heap list (ys ++ [elem] ++ zs) := by simpa using holds
  obtain ⟨p, l, mem_p, last_eq, linked_prev, linked_next, holds', -⟩ := split.cut rfl next_eq
  obtain rfl : elem = l := by simpa using last_eq
  have mem_n : n ∈ zs ++ [list.tail] := List.mem_of_mem_head? next_eq
  refine ⟨_, by rw [listRemove_eq linked_prev linked_next, next_eq], holds', fun u outside => ?_⟩
  exact joinLinks_of_ne (by grind) (by grind)

/-- `list_push_front` puts `elem` first. -/
theorem listPushFront_holds {xs : List α} {elem : α} (holds : Holds heap list xs)
    (fresh : elem ∉ list.head :: (xs ++ [list.tail])) :
    ∃ heap', listPushFront heap list (some elem) = .ok heap' ∧ Holds heap' list (elem :: xs) ∧
      ∀ u ∉ elem :: list.head :: (xs ++ [list.tail]), heap' u = heap u := by
  obtain ⟨before, before_eq⟩ : ∃ before, (xs ++ [list.tail]).head? = some before := by
    cases xs <;> simp
  have holds' : Holds heap list ([] ++ xs) := holds
  rw [listPushFront, holds.listBegin_eq, before_eq]
  exact listInsert_holds holds' before_eq fresh

/-- `list_push_back` puts `elem` last. -/
theorem listPushBack_holds {xs : List α} {elem : α} (holds : Holds heap list xs)
    (fresh : elem ∉ list.head :: (xs ++ [list.tail])) :
    ∃ heap', listPushBack heap list (some elem) = .ok heap' ∧ Holds heap' list (xs ++ [elem]) ∧
      ∀ u ∉ elem :: list.head :: (xs ++ [list.tail]), heap' u = heap u := by
  have holds' : Holds heap list (xs ++ []) := by simpa using holds
  have fresh' : elem ∉ list.head :: (xs ++ [] ++ [list.tail]) := by simpa using fresh
  simpa [listPushBack, listEnd] using listInsert_holds holds' rfl fresh'

/-- `list_pop_front` takes the first element out and returns it. -/
theorem listPopFront_holds {x : α} {xs : List α} (holds : Holds heap list (x :: xs)) :
    ∃ heap', listPopFront heap list = .ok (heap', some x) ∧ Holds heap' list xs ∧
      ∀ u ∉ list.head :: (x :: xs ++ [list.tail]), heap' u = heap u := by
  have front : listFront heap list = .ok (some x) := by
    have begin := holds.listBegin_eq
    have nonempty : listEmpty heap list = false := by simpa using holds.listEmpty_iff
    simp only [listBegin, List.cons_append, List.head?_cons] at begin
    simp [listFront, nonempty, begin]
    rfl
  have first : Holds heap list ([] ++ x :: xs) := holds
  obtain ⟨heap', removed, holds', agree⟩ := listRemove_holds first
  refine ⟨heap', ?_, by simpa using holds', by simpa using agree⟩
  simp [listPopFront, front, removed, bind, Except.bind]
  rfl

/-- `list_pop_back` takes the last element out and returns it. -/
theorem listPopBack_holds {x : α} {xs : List α} (holds : Holds heap list (xs ++ [x])) :
    ∃ heap', listPopBack heap list = .ok (heap', some x) ∧ Holds heap' list xs ∧
      ∀ u ∉ list.head :: (xs ++ [x] ++ [list.tail]), heap' u = heap u := by
  have back : listBack heap list = .ok (some x) := by
    have nonempty : listEmpty heap list = false := by simpa using holds.listEmpty_iff
    have last := holds.tail_prev_eq
    rw [← List.cons_append, List.getLast?_concat] at last
    simp [listBack, nonempty, last]
    rfl
  have ending : Holds heap list (xs ++ x :: []) := holds
  obtain ⟨heap', removed, holds', agree⟩ := listRemove_holds ending
  refine ⟨heap', ?_, by simpa using holds', by simpa using agree⟩
  simp [listPopBack, back, removed, bind, Except.bind]
  rfl

theorem listPopFront_empty (holds : Holds heap list []) :
    listPopFront heap list = .error "assertion !list_empty (list) failed" := by
  have empty : listEmpty heap list = true := holds.listEmpty_iff.mpr rfl
  simp [listPopFront, listFront, empty]
  rfl

theorem listPopBack_empty (holds : Holds heap list []) :
    listPopBack heap list = .error "assertion !list_empty (list) failed" := by
  have empty : listEmpty heap list = true := holds.listEmpty_iff.mpr rfl
  simp [listPopBack, listBack, empty]
  rfl

end Straight

/-! ## Moving a run -/

section Splice

variable {heap : Heap α}

theorem listSplice_eq {p q before first l last : α}
    (first_linked : Linked heap p first) (last_linked : Linked heap l last)
    (first_next : (heap first).next.isSome) (l_prev : (heap l).prev.isSome)
    (before_prev : (heap before).prev.isSome)
    (before_linked : Linked (joinLinks heap p last) q before) (first_ne_last : first ≠ last) :
    listSplice heap (some before) (some first) (some last) =
      .ok (spliceLinks (joinLinks heap p last) q before first l) := by
  have prev_first : (heap first).prev = some p := first_linked.2
  have prev_last : (heap last).prev = some l := last_linked.2
  have next_l : (heap l).next = some last := last_linked.1
  have prev_before : (joinLinks heap p last before).prev = some q := before_linked.2
  simp only [joinLinks, setPrev_prev, setNext_prev] at prev_before
  simp [listSplice, listPrev, isInterior, isTail, deref, prev_first, prev_last, next_l, first_next,
    l_prev, before_prev, first_ne_last, prev_before]
  rfl

theorem listSplice_self {before first : α} (before_prev : (heap before).prev.isSome) :
    listSplice heap (some before) (some first) (some first) = .ok heap := by
  simp [listSplice, isInterior, isTail, before_prev]
  rfl

/-- `list_splice` moves the run `S`, from `first` up to `last`, out of the list `source`
and into the list `target` right before `before`. -/
theorem listSplice_holds {source target : Header α} {P S Q ys zs : List α} {before first last : α}
    (source_holds : Holds heap source (P ++ S ++ Q)) (target_holds : Holds heap target (ys ++ zs))
    (apart : ∀ u ∈ source.head :: (P ++ S ++ Q ++ [source.tail]),
      u ∉ target.head :: (ys ++ zs ++ [target.tail]))
    (first_eq : (S ++ Q ++ [source.tail]).head? = some first)
    (last_eq : (Q ++ [source.tail]).head? = some last)
    (before_eq : (zs ++ [target.tail]).head? = some before) :
    ∃ heap', listSplice heap (some before) (some first) (some last) = .ok heap' ∧
      Holds heap' source (P ++ Q) ∧ Holds heap' target (ys ++ S ++ zs) ∧
      ∀ u ∉ source.head :: (P ++ S ++ Q ++ [source.tail]) ++
        target.head :: (ys ++ zs ++ [target.tail]), heap' u = heap u := by
  have mem_before : before ∈ zs ++ [target.tail] := List.mem_of_mem_head? before_eq
  have before_prev : (heap before).prev.isSome := target_holds.prev_isSome (by grind)
  have mem_last : last ∈ Q ++ [source.tail] := List.mem_of_mem_head? last_eq
  have source_nodup := source_holds.nodup
  have target_nodup := target_holds.nodup
  cases S with
  | nil =>
    obtain rfl : first = last := by simpa [last_eq] using first_eq.symm
    exact ⟨heap, listSplice_self before_prev, by simpa using source_holds,
      by simpa using target_holds, fun _ _ => rfl⟩
  | cons s S =>
    obtain rfl : first = s := by simpa using first_eq.symm
    obtain ⟨p, l, mem_p, l_eq, first_linked, last_linked, source', run⟩ :=
      source_holds.cut rfl last_eq
    obtain ⟨run_nodup, run_apart⟩ := source_holds.run_apart
    have mem_l : l ∈ first :: S := List.mem_of_getLast? l_eq
    -- where each element that the writes touch lies
    have in_source : ∀ u ∈ source.head :: (P ++ Q ++ [source.tail]),
        u ∈ source.head :: (P ++ first :: S ++ Q ++ [source.tail]) := by
      intro u
      simp only [List.mem_cons, List.mem_append]
      tauto
    have run_source : ∀ u ∈ first :: S, u ∈ source.head :: (P ++ first :: S ++ Q ++ [source.tail]) := by
      intro u
      simp only [List.mem_cons, List.mem_append]
      tauto
    have p_source : p ∈ source.head :: (P ++ Q ++ [source.tail]) := by
      simp only [List.mem_cons, List.mem_append] at mem_p ⊢
      tauto
    have last_source : last ∈ source.head :: (P ++ Q ++ [source.tail]) := by
      simp only [List.mem_cons, List.mem_append] at mem_last ⊢
      tauto
    have before_target : before ∈ target.head :: (ys ++ zs ++ [target.tail]) := by
      simp only [List.mem_cons, List.mem_append] at mem_before ⊢
      tauto
    have sep : ∀ u ∈ source.head :: (P ++ first :: S ++ Q ++ [source.tail]),
        ∀ v ∈ target.head :: (ys ++ zs ++ [target.tail]), u ≠ v :=
      fun u mem v mem' same => apart u mem (same ▸ mem')
    have target_joined : Holds (joinLinks heap p last) target (ys ++ zs) :=
      target_holds.frame fun u mem => joinLinks_of_ne
        (sep p (in_source p p_source) u mem).symm (sep last (in_source last last_source) u mem).symm
    obtain ⟨q, mem_q, before_linked, target'⟩ := target_joined.link before_eq run rfl l_eq
      (target_holds.nodup_with_run run_nodup fun u mem => apart u (run_source u mem))
    have q_target : q ∈ target.head :: (ys ++ zs ++ [target.tail]) := by
      simp only [List.mem_cons, List.mem_append] at mem_q ⊢
      tauto
    have first_ne_last : first ≠ last :=
      ne_of_mem_of_not_mem last_source (run_apart first List.mem_cons_self) |>.symm
    refine ⟨_, listSplice_eq first_linked last_linked
      (source_holds.next_isSome (by simp))
      (source_holds.prev_isSome (by simp only [List.mem_cons, List.mem_append] at mem_l ⊢; tauto))
      before_prev before_linked first_ne_last, ?_, target', ?_⟩
    · refine source'.frame fun u mem => spliceLinks_of_ne (sep u (in_source u mem) q q_target)
        (sep u (in_source u mem) before before_target) ?_ ?_
      · exact ne_of_mem_of_not_mem mem (run_apart first List.mem_cons_self)
      · exact ne_of_mem_of_not_mem mem (run_apart l mem_l)
    · intro u outside
      simp only [List.mem_append, not_or] at outside
      exact (spliceLinks_of_ne (ne_of_mem_of_not_mem q_target outside.2).symm
        (ne_of_mem_of_not_mem before_target outside.2).symm
        (ne_of_mem_of_not_mem (run_source first List.mem_cons_self) outside.1).symm
        (ne_of_mem_of_not_mem (run_source l mem_l) outside.1).symm).trans
        (joinLinks_of_ne (ne_of_mem_of_not_mem (in_source p p_source) outside.1).symm
          (ne_of_mem_of_not_mem (in_source last last_source) outside.1).symm)

/-- `list_splice` within one list: the run `S` moves to right before `before`, which lies
outside it. -/
theorem listSplice_holds_within {list : Header α} {P S Q ys zs : List α} {before first last : α}
    (holds : Holds heap list (P ++ S ++ Q)) (split : P ++ Q = ys ++ zs)
    (first_eq : (S ++ Q ++ [list.tail]).head? = some first)
    (last_eq : (Q ++ [list.tail]).head? = some last)
    (before_eq : (zs ++ [list.tail]).head? = some before) :
    ∃ heap', listSplice heap (some before) (some first) (some last) = .ok heap' ∧
      Holds heap' list (ys ++ S ++ zs) ∧
      ∀ u ∉ list.head :: (P ++ S ++ Q ++ [list.tail]), heap' u = heap u := by
  have mem_last : last ∈ Q ++ [list.tail] := List.mem_of_mem_head? last_eq
  -- the nodes of the list without the run, in both of their orders
  have rest_eq : list.head :: (ys ++ zs ++ [list.tail]) = list.head :: (P ++ Q ++ [list.tail]) := by
    rw [split]
  have in_list : ∀ u ∈ list.head :: (P ++ Q ++ [list.tail]),
      u ∈ list.head :: (P ++ S ++ Q ++ [list.tail]) := by
    intro u
    simp only [List.mem_cons, List.mem_append]
    tauto
  have before_after : before ∈ P ++ Q ++ [list.tail] := by
    have mem_before : before ∈ zs ++ [list.tail] := List.mem_of_mem_head? before_eq
    rw [split]
    simp only [List.mem_append] at mem_before ⊢
    tauto
  have before_rest : before ∈ list.head :: (P ++ Q ++ [list.tail]) :=
    List.mem_cons_of_mem _ before_after
  have before_prev : (heap before).prev.isSome := by
    refine holds.prev_isSome ?_
    simp only [List.mem_append] at before_after ⊢
    tauto
  cases S with
  | nil =>
    obtain rfl : first = last := by simpa [last_eq] using first_eq.symm
    refine ⟨heap, listSplice_self before_prev, ?_, fun _ _ => rfl⟩
    simpa [← split] using holds
  | cons s S =>
    obtain rfl : first = s := by simpa using first_eq.symm
    obtain ⟨p, l, mem_p, l_eq, first_linked, last_linked, rest, run⟩ := holds.cut rfl last_eq
    obtain ⟨run_nodup, run_apart⟩ := holds.run_apart
    have mem_l : l ∈ first :: S := List.mem_of_getLast? l_eq
    have run_list : ∀ u ∈ first :: S, u ∈ list.head :: (P ++ first :: S ++ Q ++ [list.tail]) := by
      intro u
      simp only [List.mem_cons, List.mem_append]
      tauto
    rw [split] at rest run_apart
    obtain ⟨q, mem_q, before_linked, moved⟩ :=
      rest.link before_eq run rfl l_eq (rest.nodup_with_run run_nodup run_apart)
    have q_rest : q ∈ list.head :: (P ++ Q ++ [list.tail]) := by
      rw [← rest_eq]
      simp only [List.mem_cons, List.mem_append] at mem_q ⊢
      tauto
    have p_rest : p ∈ list.head :: (P ++ Q ++ [list.tail]) := by
      simp only [List.mem_cons, List.mem_append] at mem_p ⊢
      tauto
    have last_rest : last ∈ list.head :: (P ++ Q ++ [list.tail]) := by
      simp only [List.mem_cons, List.mem_append] at mem_last ⊢
      tauto
    have first_ne_last : first ≠ last := by
      refine (ne_of_mem_of_not_mem ?_ (run_apart first List.mem_cons_self)).symm
      rwa [rest_eq]
    refine ⟨_, listSplice_eq first_linked last_linked (holds.next_isSome (by simp))
      (holds.prev_isSome (by simp only [List.mem_cons, List.mem_append] at mem_l ⊢; tauto))
      before_prev before_linked first_ne_last, moved, fun u outside => ?_⟩
    exact (spliceLinks_of_ne (ne_of_mem_of_not_mem (in_list q q_rest) outside).symm
      (ne_of_mem_of_not_mem (in_list before before_rest) outside).symm
      (ne_of_mem_of_not_mem (run_list first List.mem_cons_self) outside).symm
      (ne_of_mem_of_not_mem (run_list l mem_l) outside).symm).trans
      (joinLinks_of_ne (ne_of_mem_of_not_mem (in_list p p_rest) outside).symm
        (ne_of_mem_of_not_mem (in_list last last_rest) outside).symm)

end Splice

end Pintos.KernelList
