import Mathlib

/-!
# Buckets

A list of buckets read as one list by `flatten`.  Pushing an element to the front of one bucket
adds it to the whole up to order, and erasing it from its bucket erases it from the whole.  A
loop that pushes each of a list of elements to the front of the bucket `place` picks for it
leaves all of them in the buckets, each where `place` put it.
-/

namespace Pintos.Buckets

variable {α : Type*} {L : List (List α)} {i : Nat} {a : α}

theorem mem_flatten_of_getD (member : a ∈ L.getD i []) : a ∈ L.flatten := by
  rw [List.getD_eq_getElem?_getD] at member
  cases found : L[i]? with
  | none => simp [found] at member
  | some bucket =>
    rw [found, Option.getD_some] at member
    exact List.mem_flatten.mpr ⟨bucket, List.mem_of_getElem? found, member⟩

theorem exists_getD_of_mem_flatten (member : a ∈ L.flatten) : ∃ i, a ∈ L.getD i [] := by
  obtain ⟨bucket, memberBucket, memberA⟩ := List.mem_flatten.mp member
  obtain ⟨i, inside, rfl⟩ := List.getElem_of_mem memberBucket
  exact ⟨i, by rwa [List.getD_eq_getElem _ _ inside]⟩

theorem lt_length_of_mem_getD (member : a ∈ L.getD i []) : i < L.length := by
  by_contra outside
  rw [List.getD_eq_default _ _ (by omega)] at member
  cases member

theorem getD_sublist_flatten (L : List (List α)) (i : Nat) : (L.getD i []).Sublist L.flatten := by
  by_cases inside : i < L.length
  · rw [List.getD_eq_getElem _ _ inside]
    exact List.sublist_flatten_of_mem (List.getElem_mem inside)
  · rw [List.getD_eq_default _ _ (by omega)]
    exact List.nil_sublist _

theorem getD_modify (f : List α → List α) {j : Nat} (inside : j < L.length) :
    (L.modify i f).getD j [] = if i = j then f (L.getD j []) else L.getD j [] := by
  rw [List.getD_eq_getElem _ _ (by simpa using inside), List.getElem_modify,
    List.getD_eq_getElem _ _ inside]

theorem flatten_modify_cons (L : List (List α)) (inside : i < L.length) (e : α) :
    (L.modify i (e :: ·)).flatten.Perm (e :: L.flatten) := by
  induction L generalizing i with
  | nil => cases inside
  | cons bucket L inductionHypothesis =>
    cases i with
    | zero => simp [List.modify_zero_cons]
    | succ i =>
      rw [List.modify_succ_cons, List.flatten_cons, List.flatten_cons]
      exact ((inductionHypothesis (by simpa using inside)).append_left bucket).trans List.perm_middle

theorem flatten_modify_erase [DecidableEq α] (L : List (List α)) (member : a ∈ L.getD i [])
    (nodup : L.flatten.Nodup) : (L.modify i (·.erase a)).flatten = L.flatten.erase a := by
  induction L generalizing i with
  | nil => simp at member
  | cons bucket L inductionHypothesis =>
    rw [List.flatten_cons] at nodup ⊢
    cases i with
    | zero =>
      simp only [List.getD_cons_zero] at member
      rw [List.modify_zero_cons, List.flatten_cons, List.erase_append_left _ member]
    | succ i =>
      simp only [List.getD_cons_succ] at member
      -- the element is in a later bucket, so not in this one
      have elsewhere : a ∉ bucket := fun here =>
        List.disjoint_of_nodup_append nodup here (mem_flatten_of_getD member)
      rw [List.modify_succ_cons, List.flatten_cons, List.erase_append_right _ elsewhere,
        inductionHypothesis member nodup.of_append_right]

section Push

variable (place : α → Nat)

/-- The loop that pushes each element to the front of the bucket `place` picks. -/
def pushAll (L : List (List α)) (xs : List α) : List (List α) :=
  xs.foldl (fun L x => L.modify (place x) (x :: ·)) L

theorem pushAll_cons (L : List (List α)) (x : α) (xs : List α) :
    pushAll place L (x :: xs) = pushAll place (L.modify (place x) (x :: ·)) xs := rfl

@[simp]
theorem length_pushAll (L : List (List α)) (xs : List α) : (pushAll place L xs).length = L.length := by
  induction xs generalizing L with
  | nil => rfl
  | cons x xs inductionHypothesis => rw [pushAll_cons, inductionHypothesis, List.length_modify]

theorem flatten_pushAll (L : List (List α)) (xs : List α) (fits : ∀ x ∈ xs, place x < L.length) :
    (pushAll place L xs).flatten.Perm (xs.reverse ++ L.flatten) := by
  induction xs generalizing L with
  | nil => rfl
  | cons x xs inductionHypothesis =>
    have rest := inductionHypothesis (L.modify (place x) (x :: ·))
      (fun y member => by simpa using fits y (List.mem_cons_of_mem x member))
    have first := flatten_modify_cons L (fits x List.mem_cons_self) x
    rw [pushAll_cons, List.reverse_cons, List.append_assoc, List.singleton_append]
    exact rest.trans (first.append_left xs.reverse)

theorem mem_pushAll (L : List (List α)) (xs : List α) (fits : ∀ x ∈ xs, place x < L.length)
    {j : Nat} (member : a ∈ (pushAll place L xs).getD j []) : a ∈ L.getD j [] ∨ place a = j := by
  induction xs generalizing L with
  | nil => exact .inl member
  | cons x xs inductionHypothesis =>
    rw [pushAll_cons] at member
    have inside : j < L.length := by simpa using lt_length_of_mem_getD member
    rcases inductionHypothesis (L.modify (place x) (x :: ·))
      (fun y memberY => by simpa using fits y (List.mem_cons_of_mem x memberY)) member with
      before | placed
    · rw [getD_modify _ inside] at before
      split at before
      · rename_i here
        rcases List.mem_cons.mp before with rfl | old
        · exact .inr here
        · exact .inl old
      · exact .inl before
    · exact .inr placed

end Push

end Pintos.Buckets
