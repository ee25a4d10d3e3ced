import Mathlib
import Pintos.Threads.Palloc

/-!
# Page directories

`userprog/pagedir.c` over the user half of a page directory.  The page tables
below `PHYS_BASE` are a finite map from user page addresses to page-table
entries: the frame (a kernel virtual address), the writable bit, and the
present, accessed and dirty bits the hardware maintains.  A page without an
entry reads as an all-zero entry.  Clearing a page (`pagedir_clear_page`) drops
only the present bit, so the dirty and accessed bits of an evicted page can
still be read.

The map is a list of entries whose addresses are distinct, a fact the
structure carries; `pagedir_destroy` walks the entries in address order.
-/

namespace Pintos

/-- A user page-table entry (`threads/pte.h`): `PTE_ADDR`, `PTE_W`, `PTE_P`,
`PTE_A` and `PTE_D`. -/
structure Pte where
  kpage : Nat
  writable : Bool
  present : Bool
  accessed : Bool
  dirty : Bool
  deriving DecidableEq, Repr

/-- The user part of a page directory: an entry per user page, at most one. -/
structure Pagedir where
  entries : List (Nat × Pte)
  distinct : (entries.map Prod.fst).Nodup

namespace Pagedir

def get (pd : Pagedir) (page : Nat) : Option Pte := pd.entries.lookup page

/-- `pagedir_create`: no user mappings. -/
def empty : Pagedir := ⟨[], List.nodup_nil⟩

private theorem lookup_filter_ne {entries : List (Nat × Pte)} {page other : Nat}
    (distinct : other ≠ page) :
    (entries.filter fun entry => entry.1 != page).lookup other = entries.lookup other := by
  induction entries with
  | nil => rfl
  | cons entry rest inductionHypothesis =>
      obtain ⟨key, pte⟩ := entry
      by_cases same : key = page
      · subst same
        have differs : (other == key) = false := by simpa using distinct
        simp [List.lookup_cons, differs, inductionHypothesis]
      · simp [same, List.lookup_cons, inductionHypothesis]

def set (pd : Pagedir) (page : Nat) (pte : Pte) : Pagedir where
  entries := (page, pte) :: pd.entries.filter fun entry => entry.1 != page
  distinct := by
    refine List.nodup_cons.mpr ⟨?_, ?_⟩
    · simp
    · exact pd.distinct.sublist (List.filter_sublist.map Prod.fst)

@[simp]
theorem get_set (pd : Pagedir) (page : Nat) (pte : Pte) (other : Nat) :
    (pd.set page pte).get other = if other = page then some pte else pd.get other := by
  unfold get set
  by_cases same : other = page
  · simp [same]
  · have differs : (other == page) = false := by simpa using same
    simp [same, List.lookup_cons, differs, lookup_filter_ne same]

@[simp]
theorem get_empty (page : Nat) : empty.get page = none := rfl

/-- Apply `change` to the entry of `vpage` if there is one. -/
def modify (pd : Pagedir) (vpage : Nat) (change : Pte → Pte) : Pagedir :=
  match pd.get vpage with
  | some pte => pd.set vpage (change pte)
  | none => pd

@[simp]
theorem get_modify (pd : Pagedir) (vpage : Nat) (change : Pte → Pte) (page : Nat) :
    (pd.modify vpage change).get page =
      if page = vpage then (pd.get vpage).map change else pd.get page := by
  unfold modify
  cases entry : pd.get vpage with
  | none =>
      by_cases same : page = vpage
      · simp [same, entry]
      · simp [same]
  | some pte => simp

/-- `pagedir_get_page`: the kernel address `uaddr` maps to, if its page is
present. -/
def getPage (pd : Pagedir) (uaddr : Nat) : Option Nat :=
  match pd.get (pgRoundDown uaddr) with
  | some pte => if pte.present then some (pte.kpage + pgOfs uaddr) else none
  | none => none

/-- `pagedir_set_page`: a fresh entry (`pte_create_user`), present, with the
accessed and dirty bits clear. -/
def setPage (pd : Pagedir) (upage kpage : Nat) (writable : Bool) : Pagedir :=
  pd.set upage { kpage, writable, present := true, accessed := false, dirty := false }

/-- `pagedir_clear_page`: mark the page not present, keeping the other bits. -/
def clearPage (pd : Pagedir) (upage : Nat) : Pagedir :=
  pd.modify upage fun pte => { pte with present := false }

def isDirty (pd : Pagedir) (vpage : Nat) : Bool :=
  match pd.get vpage with
  | some pte => pte.dirty
  | none => false

def setDirty (pd : Pagedir) (vpage : Nat) (dirty : Bool) : Pagedir :=
  pd.modify vpage fun pte => { pte with dirty }

def isAccessed (pd : Pagedir) (vpage : Nat) : Bool :=
  match pd.get vpage with
  | some pte => pte.accessed
  | none => false

def setAccessed (pd : Pagedir) (vpage : Nat) (accessed : Bool) : Pagedir :=
  pd.modify vpage fun pte => { pte with accessed }

/-- The entries in address order, as `pagedir_destroy` visits them. -/
def inAddressOrder (pd : Pagedir) : List (Nat × Pte) :=
  pd.entries.insertionSort fun first second => first.1 ≤ second.1

/-- The hardware's view of an access: the entry of the page is present and,
for a write, writable. -/
def permits (pd : Pagedir) (uaddr : Nat) (write : Bool) : Bool :=
  match pd.get (pgRoundDown uaddr) with
  | some pte => pte.present && (!write || pte.writable)
  | none => false

/-- What the MMU does on an access it permits: set the accessed bit, and the
dirty bit on a write. -/
def touch (pd : Pagedir) (uaddr : Nat) (write : Bool) : Pagedir :=
  pd.modify (pgRoundDown uaddr) fun pte =>
    { pte with accessed := true, dirty := pte.dirty || write }

@[simp]
theorem get_setPage (pd : Pagedir) (upage kpage : Nat) (writable : Bool) (page : Nat) :
    (pd.setPage upage kpage writable).get page =
      if page = upage then
        some { kpage, writable, present := true, accessed := false, dirty := false }
      else pd.get page := by
  simp [setPage]

theorem getPage_eq_some {pd : Pagedir} {uaddr kaddr : Nat} :
    pd.getPage uaddr = some kaddr ↔
      ∃ pte, pd.get (pgRoundDown uaddr) = some pte ∧ pte.present = true ∧
        kaddr = pte.kpage + pgOfs uaddr := by
  unfold getPage
  cases entry : pd.get (pgRoundDown uaddr) with
  | none => simp
  | some pte =>
      cases present : pte.present
      · simp only [present, Bool.false_eq_true, if_false, reduceCtorEq, false_iff, not_exists,
          not_and]
        rintro _ found presentNow
        cases found
        simp [present] at presentNow
      · simp only [present, if_true, Option.some.injEq]
        constructor
        · rintro rfl
          exact ⟨pte, rfl, present, rfl⟩
        · rintro ⟨_, found, _, rfl⟩
          cases found
          rfl

end Pagedir

end Pintos
