import Mathlib

/-!
# Lists that enumerate a set

A list enumerates a predicate when it holds each element that satisfies the predicate exactly
once, and nothing else: the way a kernel's queue of threads stands for the set of threads in
one state.  A queue operation moves one element into or out of the set and leaves the rest of
the set alone; the lemmas below say how the list follows.
-/

namespace Pintos

variable {α : Type*}

/-- `xs` holds each `a` with `p a` exactly once, and nothing else. -/
structure Enumerates (xs : List α) (p : α → Prop) : Prop where
  nodup : xs.Nodup
  mem_iff : ∀ a, a ∈ xs ↔ p a

namespace Enumerates

variable {xs : List α} {p q : α → Prop} {a : α}

theorem congr (enum : Enumerates xs p) (same : ∀ b, q b ↔ p b) : Enumerates xs q :=
  ⟨enum.nodup, fun b => (enum.mem_iff b).trans (same b).symm⟩

theorem nil (none : ∀ b, ¬p b) : Enumerates [] p :=
  ⟨List.nodup_nil, fun b => by simp [none b]⟩

theorem not_of_nil (enum : Enumerates [] p) (b : α) : ¬p b :=
  fun holds => by simpa using (enum.mem_iff b).mpr holds

theorem head (enum : Enumerates (a :: xs) p) : p a := (enum.mem_iff a).mp List.mem_cons_self

theorem append (enum : Enumerates xs p) (fresh : ¬p a) (joined : ∀ b, q b ↔ p b ∨ b = a) :
    Enumerates (xs ++ [a]) q where
  nodup := by
    have absent : a ∉ xs := fun member => fresh ((enum.mem_iff a).mp member)
    exact List.nodup_append.mpr ⟨enum.nodup, List.nodup_singleton a, fun b member c single => by
      rw [List.mem_singleton] at single
      rintro rfl
      exact absent (single ▸ member)⟩
  mem_iff b := by simp [enum.mem_iff, joined]

theorem tail (enum : Enumerates (a :: xs) p) (left : ∀ b, q b ↔ p b ∧ b ≠ a) :
    Enumerates xs q where
  nodup := (List.nodup_cons.mp enum.nodup).2
  mem_iff b := by
    have absent := (List.nodup_cons.mp enum.nodup).1
    rw [left, ← enum.mem_iff]
    constructor
    · intro member
      exact ⟨List.mem_cons_of_mem _ member, fun same => absent (same ▸ member)⟩
    · rintro ⟨member, other⟩
      exact (List.mem_cons.mp member).resolve_left other

end Enumerates

end Pintos
