import Mathlib

/-!
# Doubly linked chains

A sequence of nodes is doubly linked by a forward map `next` and a backward map `prev`
when the `next` of each node is the node after it and the `prev` of that node is the
node before. The lemmas here say which pointer updates keep such a chain, and what the
two updates that cut a run out of a chain, or put a run into one, make of it.
-/

namespace Pintos.Links

open Function List

variable {α : Type} {next prev next' prev' : α → Option α}

/-- `v` follows `u`: the forward link of `u` is `v` and the backward link of `v` is `u`. -/
def Adjacent (next prev : α → Option α) (u v : α) : Prop :=
  next u = some v ∧ prev v = some u

instance [DecidableEq α] : DecidableRel (Adjacent next prev) :=
  fun u v => inferInstanceAs (Decidable (next u = some v ∧ prev v = some u))

theorem adjacent_update_self [DecidableEq α] {p n : α} :
    Adjacent (update next p (some n)) (update prev n (some p)) p n :=
  ⟨update_self .., update_self ..⟩

theorem isChain_of_forall_eq {l : List α} (chain : l.IsChain (Adjacent next prev))
    (next_eq : ∀ u ∈ l, next' u = next u) (prev_eq : ∀ v ∈ l, prev' v = prev v) :
    l.IsChain (Adjacent next' prev') :=
  chain.imp_of_mem_imp fun u v mem_u mem_v adjacent =>
    ⟨(next_eq u mem_u).trans adjacent.1, (prev_eq v mem_v).trans adjacent.2⟩

/-- A chain without repeated nodes survives an update that keeps the forward link of every
node but the last and the backward link of every node but the first. -/
theorem isChain_of_agree {l : List α} (chain : l.IsChain (Adjacent next prev))
    (nodup : l.Nodup) (next_eq : ∀ u ∈ l, u ∉ l.getLast? → next' u = next u)
    (prev_eq : ∀ v ∈ l, v ∉ l.head? → prev' v = prev v) :
    l.IsChain (Adjacent next' prev') := by
  induction chain with
  | nil => exact .nil
  | singleton a => exact .singleton a
  | @cons_cons a b l adjacent rest ih =>
    have fresh : a ∉ b :: l := (nodup_cons.mp nodup).1
    have not_last : a ∉ (a :: b :: l).getLast? := fun last =>
      fresh (mem_of_getLast? (getLast?_cons_cons ▸ last))
    have apart : b ≠ a := fun same => fresh (same ▸ mem_cons_self)
    refine .cons_cons ⟨?_, ?_⟩ (ih (nodup_cons.mp nodup).2 ?_ ?_)
    · rw [next_eq a mem_cons_self not_last]
      exact adjacent.1
    · rw [prev_eq b (mem_cons_of_mem a mem_cons_self) (by simpa using apart.symm)]
      exact adjacent.2
    · intro u mem_u not_last_u
      exact next_eq u (mem_cons_of_mem a mem_u) (by rwa [getLast?_cons_cons])
    · intro v mem_v _
      have : v ≠ a := fun same => fresh (same ▸ mem_v)
      exact prev_eq v (mem_cons_of_mem a mem_v) (by simpa using this.symm)

theorem isSome_next_of_mem {l : List α} (chain : l.IsChain (Adjacent next prev)) {u : α}
    (mem : u ∈ l) (not_last : u ∉ l.getLast?) : (next u).isSome := by
  induction chain with
  | nil => simp at mem
  | singleton a => simp_all
  | @cons_cons a b l adjacent rest ih =>
    rcases mem_cons.mp mem with rfl | later
    · simp [adjacent.1]
    · exact ih later (by rwa [getLast?_cons_cons] at not_last)

theorem isSome_prev_of_mem {l : List α} (chain : l.IsChain (Adjacent next prev)) {u : α}
    (mem : u ∈ l) (not_first : u ∉ l.head?) : (prev u).isSome := by
  induction chain with
  | nil => simp at mem
  | singleton a => simp_all
  | @cons_cons a b l adjacent rest ih =>
    have later : u ∈ b :: l := (mem_cons.mp mem).resolve_left (by simpa [eq_comm] using not_first)
    by_cases second : u = b
    · subst second
      simp [adjacent.2]
    · exact ih later (by simpa using Ne.symm second)

theorem isChain_adjacent_reverse {l : List α} :
    l.reverse.IsChain (Adjacent next prev) ↔ l.IsChain (Adjacent prev next) := by
  rw [isChain_reverse]
  exact IsChain.iff fun _ _ => and_comm

theorem isChain_unlink [DecidableEq α] {A S B : List α} {p n : α}
    (chain : (A ++ p :: (S ++ n :: B)).IsChain (Adjacent next prev))
    (nodup : (A ++ p :: (S ++ n :: B)).Nodup) :
    (A ++ p :: n :: B).IsChain (Adjacent (update next p (some n)) (update prev n (some p))) := by
  have left : (A ++ [p]).IsChain (Adjacent next prev) := (isChain_split.mp chain).1
  have right : (n :: B).IsChain (Adjacent next prev) := by
    have whole : ((A ++ p :: S) ++ n :: B).IsChain (Adjacent next prev) := by simpa using chain
    exact (isChain_split.mp whole).2
  have p_apart : p ∉ n :: B := by grind
  have n_apart : n ∉ A ++ [p] := by grind
  rw [isChain_append_cons_cons]
  refine ⟨?_, adjacent_update_self, ?_⟩
  · refine isChain_of_agree left (by grind) (fun u _ not_last => ?_) (fun v mem_v _ => ?_)
    · exact update_of_ne (Ne.symm (by simpa using not_last)) ..
    · exact update_of_ne (ne_of_mem_of_not_mem mem_v n_apart) ..
  · refine isChain_of_agree right (by grind) (fun u mem_u _ => ?_) (fun v _ not_first => ?_)
    · exact update_of_ne (ne_of_mem_of_not_mem mem_u p_apart) ..
    · exact update_of_ne (Ne.symm (by simpa using not_first)) ..

theorem isChain_link [DecidableEq α] {A S B : List α} {p b first last : α}
    (chain : (A ++ p :: b :: B).IsChain (Adjacent next prev))
    (segment : S.IsChain (Adjacent next prev))
    (first_eq : S.head? = some first) (last_eq : S.getLast? = some last)
    (nodup : (A ++ p :: (S ++ b :: B)).Nodup) :
    (A ++ p :: (S ++ b :: B)).IsChain
      (Adjacent (update (update next last (some b)) p (some first))
        (update (update prev first (some p)) b (some last))) := by
  obtain ⟨left, -, right⟩ := isChain_append_cons_cons.mp chain
  have first_mem : first ∈ S := mem_of_mem_head? first_eq
  have last_mem : last ∈ S := mem_of_getLast? last_eq
  have p_apart : p ∉ S ∧ p ∉ b :: B := by grind
  have b_apart : b ∉ S ∧ b ∉ A ++ [p] := by grind
  have S_apart : ∀ u ∈ S, u ∉ A ++ [p] ∧ u ∉ b :: B := by grind
  have whole : ((A ++ [p]) ++ (S ++ b :: B)).IsChain
      (Adjacent (update (update next last (some b)) p (some first))
        (update (update prev first (some p)) b (some last))) := by
    refine IsChain.append ?_ (IsChain.append ?_ ?_ ?_) ?_
    -- the part up to `p`, with `p` keeping its backward link
    · refine isChain_of_agree left (by grind) (fun u mem_u not_last => ?_)
        (fun v mem_v _ => ?_)
      · rw [update_of_ne (Ne.symm (by simpa using not_last)),
          update_of_ne (ne_of_mem_of_not_mem mem_u (S_apart last last_mem).1)]
      · rw [update_of_ne (ne_of_mem_of_not_mem mem_v b_apart.2),
          update_of_ne (ne_of_mem_of_not_mem mem_v (S_apart first first_mem).1)]
    -- the run itself, whose two end links are the ones rewritten
    · refine isChain_of_agree segment (by grind) (fun u mem_u not_last => ?_)
        (fun v mem_v not_first => ?_)
      · rw [update_of_ne (ne_of_mem_of_not_mem mem_u p_apart.1),
          update_of_ne (Ne.symm (by simpa [last_eq] using not_last))]
      · rw [update_of_ne (ne_of_mem_of_not_mem mem_v b_apart.1),
          update_of_ne (Ne.symm (by simpa [first_eq] using not_first))]
    -- the part from `b` on, with `b` keeping its forward link
    · refine isChain_of_agree right (by grind) (fun u mem_u _ => ?_)
        (fun v mem_v not_first => ?_)
      · rw [update_of_ne (ne_of_mem_of_not_mem mem_u p_apart.2),
          update_of_ne (ne_of_mem_of_not_mem mem_u (S_apart last last_mem).2)]
      · rw [update_of_ne (Ne.symm (by simpa using not_first)),
          update_of_ne (ne_of_mem_of_not_mem mem_v (S_apart first first_mem).2)]
    · intro x last_x y head_y
      obtain rfl : x = last := by simpa [last_eq] using last_x.symm
      obtain rfl : y = b := by simpa using head_y.symm
      refine ⟨?_, update_self ..⟩
      rw [update_of_ne (ne_of_mem_of_not_mem last_mem p_apart.1), update_self]
    · intro x last_x y head_y
      obtain rfl : x = p := by simpa using last_x.symm
      have : (S ++ b :: B).head? = some first := by simp [head?_append, first_eq]
      obtain rfl : y = first := by simpa [this] using head_y.symm
      refine ⟨update_self .., ?_⟩
      rw [update_of_ne (ne_of_mem_of_not_mem first_mem b_apart.1), update_self]
  simpa using whole

end Pintos.Links
