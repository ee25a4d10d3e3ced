import Mathlib

/-!
# A heap of objects

The objects a program allocates live at addresses.  A heap maps each address
to the object there, or to nothing when the address is not in use.  Addresses
are handed out in increasing order and never reused, so a pointer kept after
its object was freed names no object: following it is the use after free.
The heap carries the fact that no address from `next` on is in use, so that
`count` can count the objects with a property over the addresses below `next`.
-/

namespace Pintos

/-- A heap of objects of type `α`. -/
structure Heap (α : Type) where
  cells : Nat → Option α
  next : Nat
  fresh : ∀ address, next ≤ address → cells address = none

namespace Heap

variable {α : Type}

def empty : Heap α := ⟨fun _ => none, 0, fun _ _ => rfl⟩

def get (heap : Heap α) (address : Nat) : Option α := heap.cells address

/-- Allocate a new object: the heap after, and the object's address. -/
def alloc (heap : Heap α) (object : α) : Heap α × Nat :=
  (⟨Function.update heap.cells heap.next (some object), heap.next + 1, fun address above => by
    rw [Function.update_of_ne (by omega)]
    exact heap.fresh address (by omega)⟩, heap.next)

/-- Replace the object at an address (also when the address is not in use,
which a caller that checked with `get` never does). -/
def set (heap : Heap α) (address : Nat) (object : α) : Heap α :=
  if inUse : address < heap.next then
    ⟨Function.update heap.cells address (some object), heap.next, fun other above => by
      rw [Function.update_of_ne (by omega)]
      exact heap.fresh other above⟩
  else heap

def free (heap : Heap α) (address : Nat) : Heap α :=
  ⟨Function.update heap.cells address none, heap.next, fun other above => by
    by_cases same : other = address
    · subst same
      simp
    · rw [Function.update_of_ne same]
      exact heap.fresh other above⟩

@[simp]
theorem get_empty (address : Nat) : (empty : Heap α).get address = none := rfl

@[simp]
theorem next_empty : (empty : Heap α).next = 0 := rfl

theorem get_of_next_le {heap : Heap α} {address : Nat} (above : heap.next ≤ address) :
    heap.get address = none :=
  heap.fresh address above

theorem lt_next_of_get {heap : Heap α} {address : Nat} {object : α}
    (found : heap.get address = some object) : address < heap.next := by
  by_contra above
  rw [get_of_next_le (by omega)] at found
  cases found

@[simp]
theorem get_alloc (heap : Heap α) (object : α) (address : Nat) :
    (heap.alloc object).1.get address =
      if address = heap.next then some object else heap.get address := by
  simp [alloc, get, Function.update_apply]

theorem get_next (heap : Heap α) : heap.get heap.next = none :=
  get_of_next_le (Nat.le_refl _)

@[simp]
theorem next_alloc (heap : Heap α) (object : α) : (heap.alloc object).1.next = heap.next + 1 :=
  rfl

@[simp]
theorem get_free (heap : Heap α) (freed address : Nat) :
    (heap.free freed).get address = if address = freed then none else heap.get address := by
  simp [free, get, Function.update_apply]

@[simp]
theorem next_free (heap : Heap α) (freed : Nat) : (heap.free freed).next = heap.next := rfl

@[simp]
theorem next_set (heap : Heap α) (address : Nat) (object : α) :
    (heap.set address object).next = heap.next := by
  unfold set
  split <;> rfl

theorem get_set_of_get {heap : Heap α} {address : Nat} {old : α}
    (found : heap.get address = some old) (object : α) (other : Nat) :
    (heap.set address object).get other =
      if other = address then some object else heap.get other := by
  have inUse := lt_next_of_get found
  simp [set, inUse, get, Function.update_apply]

theorem isSome_get_set {heap : Heap α} {address : Nat} {old : α}
    (found : heap.get address = some old) (object : α) (other : Nat) :
    ((heap.set address object).get other).isSome = (heap.get other).isSome := by
  rw [get_set_of_get found]
  split
  · rename_i same
    rw [same, found]
    rfl
  · rfl

theorem ext_get {heap heap' : Heap α} (objects : ∀ address, heap.get address = heap'.get address)
    (next : heap.next = heap'.next) : heap = heap' := by
  cases heap
  cases heap'
  cases next
  congr
  funext address
  exact objects address

theorem set_self {heap : Heap α} {address : Nat} {object : α}
    (found : heap.get address = some object) : heap.set address object = heap := by
  apply ext_get
  · intro other
    rw [get_set_of_get found]
    split
    · rename_i same
      rw [same, found]
    · rfl
  · exact next_set heap address object

theorem free_set (heap : Heap α) (address : Nat) (object : α) :
    (heap.set address object).free address = heap.free address := by
  apply ext_get
  · intro other
    simp only [get_free]
    split
    · rfl
    · unfold set
      split
      · simp [get, Function.update_of_ne (by assumption : other ≠ address)]
      · rfl
  · simp

/-! ## Counting objects -/

/-- How many objects of the heap satisfy `p`. -/
def count (heap : Heap α) (p : α → Bool) : Nat :=
  (List.range heap.next).countP fun address => (heap.get address).any p

/-- Changing a test at one address below `n` changes a count over `range n` at
that address only. -/
theorem countP_range_update (f g : Nat → Bool) {address n : Nat} (inRange : address < n)
    (same : ∀ other, other ≠ address → g other = f other) :
    (List.range n).countP g + (if f address then 1 else 0) =
      (List.range n).countP f + (if g address then 1 else 0) := by
  induction n with
  | zero => omega
  | succ n inductionHypothesis =>
      rw [List.range_succ, List.countP_append, List.countP_append, List.countP_singleton,
        List.countP_singleton]
      by_cases last : address = n
      · subst last
        -- below the last address the two tests agree
        have below : (List.range address).countP g = (List.range address).countP f := by
          apply List.countP_congr
          intro other inRange'
          rw [same other (by simp at inRange'; omega)]
        rw [below]
        omega
      · have earlier := inductionHypothesis (by omega)
        rw [same n (Ne.symm last)]
        omega

theorem count_alloc (heap : Heap α) (object : α) (p : α → Bool) :
    (heap.alloc object).1.count p = heap.count p + (if p object then 1 else 0) := by
  unfold count
  rw [next_alloc, List.range_succ, List.countP_append, List.countP_singleton]
  congr 1
  · apply List.countP_congr
    intro other inRange
    rw [get_alloc, if_neg (by simp at inRange; omega)]
  · simp

theorem count_set {heap : Heap α} {address : Nat} {old : α} (found : heap.get address = some old)
    (object : α) (p : α → Bool) :
    (heap.set address object).count p + (if p old then 1 else 0) =
      heap.count p + (if p object then 1 else 0) := by
  unfold count
  rw [next_set]
  have updated := countP_range_update (fun other => (heap.get other).any p)
    (fun other => ((heap.set address object).get other).any p) (lt_next_of_get found)
    (fun other apart => by rw [get_set_of_get found, if_neg apart])
  simpa [get_set_of_get found, found] using updated

theorem count_set_of_eq {heap : Heap α} {address : Nat} {old : α}
    (found : heap.get address = some old) {object : α} {p : α → Bool} (same : p object = p old) :
    (heap.set address object).count p = heap.count p := by
  have counted := count_set found object p
  rw [same] at counted
  exact Nat.add_right_cancel counted

theorem count_free {heap : Heap α} {address : Nat} {old : α} (found : heap.get address = some old)
    (p : α → Bool) :
    (heap.free address).count p + (if p old then 1 else 0) = heap.count p := by
  unfold count
  have updated := countP_range_update (fun other => (heap.get other).any p)
    (fun other => ((heap.free address).get other).any p) (lt_next_of_get found)
    (fun other apart => by rw [get_free, if_neg apart])
  simpa [found] using updated

theorem count_eq_zero {heap : Heap α} {p : α → Bool}
    (none : ∀ address object, heap.get address = some object → p object = false) :
    heap.count p = 0 := by
  unfold count
  rw [List.countP_eq_zero]
  intro address _
  cases found : heap.get address with
  | none => simp
  | some object => simp [none address object found]

theorem count_pos {heap : Heap α} {address : Nat} {object : α}
    (found : heap.get address = some object) {p : α → Bool} (holds : p object = true) :
    0 < heap.count p :=
  List.countP_pos_iff.mpr ⟨address, by simpa using lt_next_of_get found, by simp [found, holds]⟩

end Heap

end Pintos
