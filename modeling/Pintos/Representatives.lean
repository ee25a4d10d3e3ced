import Mathlib

/-!
# Sets of representatives

A list that holds at most one element of each class of an equivalence stands for a finite set
modulo that equivalence.  `find` looks up the element of a class, and `insert`, `replace` and
`delete` are the set's operations, each returning the element of the class it found.  What they
return, and the set they leave up to order, depends only on the list up to permutation.
-/

namespace Pintos.Representatives

variable {α : Type*} (equal : α → α → Bool)

/-- The element of `e`'s class, if any. -/
def find (S : List α) (e : α) : Option α := S.find? fun a => equal a e

/-- At most one element of each class. -/
def Apart (S : List α) : Prop := S.Pairwise fun a b => equal a b = false

/-- Add `new` unless its class has an element, which is returned instead. -/
def insert (S : List α) (new : α) : List α × Option α :=
  match find equal S new with
  | some old => (S, some old)
  | none => (new :: S, none)

/-- Put `new` in place of the element of its class, which is returned. -/
def replace [DecidableEq α] (S : List α) (new : α) : List α × Option α :=
  match find equal S new with
  | some old => (new :: S.erase old, some old)
  | none => (new :: S, none)

/-- Take out the element of `e`'s class, which is returned. -/
def delete [DecidableEq α] (S : List α) (e : α) : List α × Option α :=
  match find equal S e with
  | some old => (S.erase old, some old)
  | none => (S, none)

variable {equal} {S S' : List α} {e a : α}

theorem find_eq_none_iff : find equal S e = none ↔ ∀ a ∈ S, equal a e = false := by
  simp [find, List.find?_eq_none]

section Equivalence

variable (equivalence : Equivalence fun a b => equal a b = true)
include equivalence

theorem Apart.nodup (apart : Apart equal S) : S.Nodup :=
  apart.imp fun {a b} apart same => by
    subst same
    rw [equivalence.refl a] at apart
    cases apart

theorem equal_comm_false {a b : α} (different : equal a b = false) : equal b a = false := by
  cases symmetric : equal b a
  · rfl
  · rw [equivalence.symm symmetric] at different
    cases different

theorem Apart.eq_of_equal (apart : Apart equal S) {b : α} (memberA : a ∈ S) (memberB : b ∈ S)
    (equalA : equal a e = true) (equalB : equal b e = true) : a = b := by
  by_contra different
  have together : equal a b = true := equivalence.trans equalA (equivalence.symm equalB)
  have symmetric : Std.Symm fun a b => equal a b = false := ⟨fun _ _ => equal_comm_false equivalence⟩
  have separate : equal a b = false := apart.forall memberA memberB different
  rw [together] at separate
  cases separate

theorem find_eq_some_iff (apart : Apart equal S) :
    find equal S e = some a ↔ a ∈ S ∧ equal a e = true := by
  unfold find
  constructor
  · intro found
    have equalA := List.find?_some found
    exact ⟨List.mem_of_find?_eq_some found, equalA⟩
  · rintro ⟨member, equalA⟩
    cases found : S.find? fun a => equal a e with
    | none => exact absurd equalA (List.find?_eq_none.mp found a member)
    | some b =>
      have equalB := List.find?_some found
      rw [apart.eq_of_equal equivalence (List.mem_of_find?_eq_some found) member equalB equalA]

theorem Apart.perm (apart : Apart equal S) (perm : S.Perm S') : Apart equal S' :=
  List.Pairwise.perm apart perm (equal_comm_false equivalence)

theorem find_perm (apart : Apart equal S) (perm : S.Perm S') : find equal S e = find equal S' e := by
  have apart' := apart.perm equivalence perm
  cases found : find equal S e with
  | none =>
    exact (find_eq_none_iff.mpr fun a member => find_eq_none_iff.mp found a
      (perm.symm.subset member)).symm
  | some a =>
    obtain ⟨member, equalA⟩ := (find_eq_some_iff equivalence apart).mp found
    exact ((find_eq_some_iff equivalence apart').mpr ⟨perm.subset member, equalA⟩).symm

theorem apart_cons (apart : Apart equal S) (fresh : find equal S e = none) : Apart equal (e :: S) :=
  List.pairwise_cons.mpr
    ⟨fun a member => equal_comm_false equivalence (find_eq_none_iff.mp fresh a member), apart⟩

theorem apart_replace [DecidableEq α] (apart : Apart equal S) (new : α) :
    Apart equal (replace equal S new).1 := by
  unfold replace
  split
  · rename_i old found
    obtain ⟨memberOld, equalOld⟩ := (find_eq_some_iff equivalence apart).mp found
    refine List.pairwise_cons.mpr ⟨fun a member => ?_, apart.sublist (List.erase_sublist)⟩
    -- the other elements are in other classes than `old`, which is in `new`'s
    obtain ⟨other, memberA⟩ := (apart.nodup equivalence).mem_erase_iff.mp member
    cases equalA : equal a new
    · exact equal_comm_false equivalence equalA
    · exact absurd (apart.eq_of_equal equivalence memberA memberOld equalA equalOld) other
  · exact apart_cons equivalence apart ‹_›

end Equivalence

end Pintos.Representatives
