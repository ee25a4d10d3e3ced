import Mathlib
import Pintos.Lib.ListRefinement
import Pintos.NaturalMerge

/-!
# `list_sort`

The natural merge sort of `lib/kernel/list.c`.  `find_end_of_run` walks from an element while
no element is less than the one before it; `is_sorted`, which only the assertions call, is the
same walk asked whether it reached its end.  `inplace_merge` moves each element of the second
run that is less than the current element of the first in front of it with `list_splice`, and
each pass of `list_sort` merges the runs it finds two by two.

A list holding `xs` goes, pass by pass, through the sequences `NaturalMerge.pass` computes
with `atMost less` for the order: a pass is the merge of neighbouring maximal runs.  For a
`less` that is a strict weak order the library then gives the rest: the sort is a stable
permutation in order, and `Nat.clog 2 n + 1` passes suffice.
-/

namespace Pintos.KernelList

open Function Links NaturalMerge

variable {α : Type} [DecidableEq α]

/-- The loop of `find_end_of_run`: from `a`, the first element that is `b` or less than the
one before it. -/
def findEndOfRunLoop (heap : Heap α) (less : α → α → Bool) (b : Option α) :
    Nat → Option α → Except String (Option α)
  | 0, _ => throw "out of fuel"
  | fuel + 1, a => do
    let a ← listNext heap a
    if a = b then return a
    if less (← deref a) (← deref (← listPrev heap a)) then return a
    findEndOfRunLoop heap less b fuel a

def findEndOfRun (heap : Heap α) (less : α → α → Bool) (fuel : Nat) (a b : Option α) :
    Except String (Option α) := do
  if a = none then throw "assertion a != NULL failed"
  if b = none then throw "assertion b != NULL failed"
  if a = b then throw "assertion a != b failed"
  findEndOfRunLoop heap less b fuel a

/-- `is_sorted`: its loop stops at `b`, returning true, or at an element less than the one
before it, returning false, which is where the walk of `find_end_of_run` stops. -/
def isSorted (heap : Heap α) (less : α → α → Bool) (fuel : Nat) (a b : Option α) :
    Except String Bool :=
  if a ≠ b then do return (← findEndOfRunLoop heap less b fuel a) = b else pure true

/-- The loop of `inplace_merge`. -/
def inplaceMergeLoop (less : α → α → Bool) (b1 : Option α) :
    Nat → Heap α → Option α → Option α → Except String (Heap α)
  | 0, _, _, _ => throw "out of fuel"
  | fuel + 1, heap, a0, a1b0 =>
    if a0 ≠ a1b0 ∧ a1b0 ≠ b1 then do
      if !less (← deref a1b0) (← deref a0) then
        inplaceMergeLoop less b1 fuel heap (← listNext heap a0) a1b0
      else
        let a1b0 ← listNext heap a1b0
        let heap ← listSplice heap a0 (← listPrev heap a1b0) a1b0
        inplaceMergeLoop less b1 fuel heap a0 a1b0
    else return heap

def inplaceMerge (heap : Heap α) (less : α → α → Bool) (fuel : Nat) (a0 a1b0 b1 : Option α) :
    Except String (Heap α) := do
  if a0 = none then throw "assertion a0 != NULL failed"
  if a1b0 = none then throw "assertion a1b0 != NULL failed"
  if b1 = none then throw "assertion b1 != NULL failed"
  if !(← isSorted heap less fuel a0 a1b0) then throw "assertion is_sorted (a0, a1b0, less, aux) failed"
  if !(← isSorted heap less fuel a1b0 b1) then throw "assertion is_sorted (a1b0, b1, less, aux) failed"
  inplaceMergeLoop less b1 fuel heap a0 a1b0

/-- The inner loop of `list_sort`: one pass from `a0`, with the count of runs it outputs. -/
def listSortPass (list : Header α) (less : α → α → Bool) (fuel : Nat) :
    Nat → Heap α → Option α → Nat → Except String (Heap α × Nat)
  | 0, _, _, _ => throw "out of fuel"
  | turns + 1, heap, a0, outputRunCnt =>
    if a0 = listEnd list then return (heap, outputRunCnt)
    else do
      let outputRunCnt := outputRunCnt + 1
      let a1b0 ← findEndOfRun heap less fuel a0 (listEnd list)
      if a1b0 = listEnd list then return (heap, outputRunCnt)
      let b1 ← findEndOfRun heap less fuel a1b0 (listEnd list)
      let heap ← inplaceMerge heap less fuel a0 a1b0 b1
      listSortPass list less fuel turns heap b1 outputRunCnt

/-- The outer loop of `list_sort`: passes while a pass outputs more than one run. -/
def listSortLoop (list : Header α) (less : α → α → Bool) (fuel : Nat) :
    Nat → Heap α → Except String (Heap α)
  | 0, _ => throw "out of fuel"
  | passes + 1, heap => do
    let (heap, outputRunCnt) ← listSortPass list less fuel fuel heap (listBegin heap list) 0
    if outputRunCnt > 1 then listSortLoop list less fuel passes heap else return heap

/-- `list_sort`, with at most `passes` passes and `fuel` turns for each inner loop. -/
def listSort (heap : Heap α) (list : Header α) (less : α → α → Bool) (passes fuel : Nat) :
    Except String (Heap α) := do
  let heap ← listSortLoop list less fuel passes heap
  if !(← isSorted heap less fuel (listBegin heap list) (listEnd list)) then
    throw "assertion is_sorted (list_begin (list), list_end (list), less, aux) failed"
  return heap

/-- The order the sort puts elements in: `a` before `b` when `b` is not less than `a`. -/
def atMost (less : α → α → Bool) (a b : α) : Bool := !less b a

/-! ## The walk along a run -/

section Walk

variable {heap : Heap α} {list : Header α} (less : α → α → Bool)

omit [DecidableEq α] in
theorem listPrev_of_linked {u v : α} (linked : Linked heap u v) :
    listPrev heap (some v) = .ok (some u) := by
  have prev_v : (heap v).prev = some u := linked.2
  cases next_v : (heap v).next <;> simp [listPrev, isInterior, isTail, deref, prev_v, next_v] <;> rfl

omit [DecidableEq α] in
theorem Holds.ne_after {P S Q : List α} (holds : Holds heap list (P ++ S ++ Q)) :
    ∀ u ∈ S, some u ≠ (Q ++ [list.tail]).head? := by
  intro u mem same
  have after : u ∈ Q ++ [list.tail] := List.mem_of_mem_head? same.symm
  exact holds.run_apart.2 u mem (by simp only [List.mem_cons, List.mem_append] at after ⊢; tauto)

/-- Along a run in order the walk goes on, and it stops right after the run, where it meets
`b` or an element less than the run's last. -/
theorem findEndOfRunLoop_walk {pre rest post : List α} {x : α}
    (holds : Holds heap list (pre ++ x :: rest ++ post))
    (chain : (x :: rest).IsChain fun a b => atMost less a b) {b : Option α}
    (apart : ∀ u ∈ x :: rest, some u ≠ b)
    (stops : (post ++ [list.tail]).head? = b ∨
      ∃ y ∈ post.head?, less y ((x :: rest).getLast (List.cons_ne_nil x rest)) = true)
    {fuel : Nat} (enough : rest.length < fuel) :
    findEndOfRunLoop heap less b fuel (some x) = .ok (post ++ [list.tail]).head? := by
  obtain ⟨fuel, rfl⟩ : ∃ turns, fuel = turns + 1 := ⟨fuel - 1, by omega⟩
  induction rest generalizing pre x fuel with
  | nil =>
    have linked : Linked heap x (post.headD list.tail) := by
      have : Holds heap list (pre ++ x :: post) := by simpa using holds
      exact this.linked_cons
    have descent : some (post.headD list.tail) ≠ b → less (post.headD list.tail) x = true := by
      intro atEnd
      rcases stops with reached | ⟨y, first, less_y⟩
      · rw [head?_append_tail] at reached
        exact absurd reached atEnd
      · cases post with
        | nil => cases first
        | cons z post =>
          obtain rfl : z = y := by simpa using first
          simpa using less_y
    rw [head?_append_tail]
    generalize post.headD list.tail = c at linked descent
    by_cases atEnd : some c = b
    · simp only [findEndOfRunLoop, listNext_of_linked linked, bind, Except.bind, if_pos atEnd, pure,
        Except.pure]
    · simp only [findEndOfRunLoop, listNext_of_linked linked, bind, Except.bind, if_neg atEnd,
        listPrev_of_linked linked, deref, descent atEnd, if_true, pure, Except.pure]
  | cons y rest ih =>
    have linked : Linked heap x y := by
      have : Holds heap list (pre ++ x :: (y :: rest ++ post)) := by simpa using holds
      simpa using this.linked_cons
    obtain ⟨ordered, chain⟩ := List.isChain_cons_cons.mp chain
    have no_descent : less y x = false := by simpa [atMost] using ordered
    have later : Holds heap list ((pre ++ [x]) ++ y :: rest ++ post) := by simpa using holds
    obtain ⟨turns, rfl⟩ : ∃ turns, fuel = turns + 1 := ⟨fuel - 1, by simp at enough; omega⟩
    have walked := ih later chain (fun u mem => apart u (List.mem_cons_of_mem x mem))
      (by simpa using stops) turns (by simp at enough; omega)
    rw [findEndOfRunLoop]
    simp only [listNext_of_linked linked, bind, Except.bind, if_neg (apart y (by simp)),
      listPrev_of_linked linked, deref, pure, Except.pure, no_descent, Bool.false_eq_true, if_false, walked]

/-- `find_end_of_run` from an element to the end of the list finds the end of the run that
`takeRun` cuts off. -/
theorem findEndOfRun_eq {pre rest : List α} {x : α} (holds : Holds heap list (pre ++ x :: rest))
    {fuel : Nat} (enough : rest.length < fuel) :
    findEndOfRun heap less fuel (some x) (listEnd list) =
      .ok (((takeRun (atMost less) (x :: rest)).2 ++ [list.tail]).head?) := by
  obtain ⟨run, first⟩ := takeRun_fst_cons (atMost less) x rest
  have whole := takeRun_append (atMost less) (x :: rest)
  have chain := isChain_takeRun (atMost less) (x :: rest)
  have boundary := takeRun_boundary (atMost less) (x :: rest)
  rw [first] at whole chain boundary
  generalize (takeRun (atMost less) (x :: rest)).2 = after at whole boundary ⊢
  have split : Holds heap list (pre ++ x :: run ++ after) := by rwa [List.append_assoc, whole]
  have shorter : run.length < fuel := by
    have lengths := congrArg List.length whole
    simp only [List.cons_append, List.length_cons, List.length_append] at lengths
    omega
  have not_tail : ∀ u ∈ x :: run, some u ≠ listEnd list := by
    intro u mem same
    have inside : u ∈ pre ++ x :: rest := by
      rw [← whole]
      simp only [List.mem_append, List.mem_cons] at mem ⊢
      tauto
    exact holds.ne_tail inside (Option.some.inj same)
  -- the walk stops at the end of the list or at the element that goes down
  have stops : (after ++ [list.tail]).head? = listEnd list ∨
      ∃ y ∈ after.head?, less y ((x :: run).getLast (List.cons_ne_nil x run)) = true := by
    cases after with
    | nil => exact Or.inl rfl
    | cons y after =>
      refine Or.inr ⟨y, rfl, ?_⟩
      have down := boundary ((x :: run).getLast (List.cons_ne_nil x run))
        (List.getLast_mem_getLast? (List.cons_ne_nil x run)) y rfl
      simpa [atMost] using down
  have walked := findEndOfRunLoop_walk less split chain not_tail stops shorter
  have x_not_end : some x ≠ some list.tail := not_tail x List.mem_cons_self
  rw [listEnd] at walked
  simp only [findEndOfRun, listEnd, reduceCtorEq, if_false, x_not_end, walked]

/-- `is_sorted` holds of a run in order. -/
theorem isSorted_of_isChain {pre rest post : List α} {x : α}
    (holds : Holds heap list (pre ++ x :: rest ++ post))
    (chain : (x :: rest).IsChain fun a b => atMost less a b) {fuel : Nat} (enough : rest.length < fuel) :
    isSorted heap less fuel (some x) (post ++ [list.tail]).head? = .ok true := by
  have apart := holds.ne_after
  rw [isSorted, if_pos (apart x List.mem_cons_self)]
  simp only [findEndOfRunLoop_walk less holds chain apart (Or.inl rfl) enough, bind, Except.bind,
    pure, Except.pure, decide_true]

theorem isSorted_self (fuel : Nat) (a : Option α) : isSorted heap less fuel a a = .ok true := by
  simp [isSorted]
  rfl

end Walk

/-! ## Merging in place -/

section Merge

variable {heap : Heap α} {list : Header α} (less : α → α → Bool)

/-- The loop of `inplace_merge` merges the runs `A` and `B` as `List.merge` does: it keeps
an element of `A` ahead when the element of `B` it meets is not less, and otherwise moves
that element of `B` in front of it. -/
theorem inplaceMergeLoop_holds {P A B Q : List α} (holds : Holds heap list (P ++ A ++ B ++ Q))
    {fuel : Nat} (enough : A.length + B.length < fuel) :
    ∃ heap', inplaceMergeLoop less (Q ++ [list.tail]).head? fuel heap
        (A ++ B ++ Q ++ [list.tail]).head? (B ++ Q ++ [list.tail]).head? = .ok heap' ∧
      Holds heap' list (P ++ A.merge B (atMost less) ++ Q) ∧
      ∀ u ∉ list.head :: (P ++ A ++ B ++ Q ++ [list.tail]), heap' u = heap u := by
  -- on the turns: each moves one element of `A` or of `B` into place
  induction fuel generalizing P A B heap with
  | zero => omega
  | succ turns ih =>
    cases A with
    | nil =>
      refine ⟨heap, ?_, by simpa using holds, fun _ _ => rfl⟩
      rw [inplaceMergeLoop]
      simp
      rfl
    | cons a A =>
      cases B with
      | nil =>
        refine ⟨heap, ?_, by simpa using holds, fun _ _ => rfl⟩
        rw [inplaceMergeLoop]
        simp
        rfl
      | cons b B =>
        have a_ne_b : some a ≠ some b := by
          have := (show Holds heap list (P ++ (a :: A) ++ (b :: B ++ Q)) by simpa using holds).ne_after
          simpa using this a List.mem_cons_self
        have b_ne_end : some b ≠ (Q ++ [list.tail]).head? :=
          (show Holds heap list ((P ++ a :: A) ++ (b :: B) ++ Q) by simpa using holds).ne_after
            b List.mem_cons_self
        have fewer : A.length + (b :: B).length < turns ∧ (a :: A).length + B.length < turns := by
          simp only [List.length_cons] at enough ⊢
          omega
        have enter : some a ≠ some b ∧ some b ≠ (Q ++ [list.tail]).head? := ⟨a_ne_b, b_ne_end⟩
        by_cases ordered : less b a = false
        · -- `a` stays ahead of `b`: the walk moves on along `A`
          have linked : Linked heap a ((A ++ b :: B ++ Q).headD list.tail) := by
            have : Holds heap list (P ++ a :: (A ++ b :: B ++ Q)) := by simpa using holds
            exact this.linked_cons
          have later : Holds heap list ((P ++ [a]) ++ A ++ (b :: B) ++ Q) := by simpa using holds
          obtain ⟨heap', ran, holds', agree⟩ := ih later fewer.1
          refine ⟨heap', ?_, ?_, fun u outside => agree u (by simpa using outside)⟩
          · rw [inplaceMergeLoop]
            simp only [List.cons_append, List.head?_cons, if_pos enter, deref, bind,
              Except.bind, pure, Except.pure, ordered, Bool.not_false, if_true,
              listNext_of_linked linked]
            rw [← head?_append_tail]
            simpa using ran
          · rw [List.cons_merge_cons_pos _ _ _ (by simpa [atMost] using ordered)]
            simpa using holds'
        · -- `b` is less than `a`: it moves in front of `a`
          have less_b : less b a = true := by simpa using ordered
          have linked : Linked heap b ((B ++ Q).headD list.tail) := by
            have : Holds heap list ((P ++ a :: A) ++ b :: (B ++ Q)) := by simpa using holds
            exact this.linked_cons
          have last_eq : ((B ++ Q) ++ [list.tail]).head? = some ((B ++ Q).headD list.tail) :=
            head?_append_tail _ _
          have cut : Holds heap list ((P ++ a :: A) ++ [b] ++ (B ++ Q)) := by simpa using holds
          have split : (P ++ a :: A) ++ (B ++ Q) = P ++ (a :: A ++ B ++ Q) := by simp
          obtain ⟨heap₁, spliced, holds₁, agree₁⟩ := listSplice_holds_within cut split rfl last_eq rfl
          have moved : Holds heap₁ list ((P ++ [b]) ++ (a :: A) ++ B ++ Q) := by simpa using holds₁
          obtain ⟨heap', ran, holds', agree⟩ := ih moved fewer.2
          refine ⟨heap', ?_, ?_, fun u outside => ?_⟩
          · rw [inplaceMergeLoop]
            simp only [List.cons_append, List.head?_cons, if_pos enter, deref, bind,
              Except.bind, pure, Except.pure, less_b, Bool.not_true, Bool.false_eq_true, if_false,
              listNext_of_linked linked, listPrev_of_linked linked, spliced]
            rw [← head?_append_tail]
            simpa using ran
          · rw [List.cons_merge_cons_neg _ _ _ (by simpa [atMost] using less_b)]
            simpa using holds'
          · rw [agree u (by simp only [List.mem_cons, List.mem_append] at outside ⊢; tauto)]
            exact agree₁ u (by simp only [List.mem_cons, List.mem_append] at outside ⊢; tauto)

/-- `inplace_merge` of two neighbouring runs in order: its assertions hold, and it merges
them. -/
theorem inplaceMerge_holds {P A B Q : List α} {a b : α}
    (holds : Holds heap list (P ++ a :: A ++ b :: B ++ Q))
    (chainA : (a :: A).IsChain fun x y => atMost less x y)
    (chainB : (b :: B).IsChain fun x y => atMost less x y)
    {fuel : Nat} (enough : A.length + B.length + 2 < fuel) :
    ∃ heap', inplaceMerge heap less fuel (some a) (some b) (Q ++ [list.tail]).head? = .ok heap' ∧
      Holds heap' list (P ++ (a :: A).merge (b :: B) (atMost less) ++ Q) ∧
      ∀ u ∉ list.head :: (P ++ a :: A ++ b :: B ++ Q ++ [list.tail]), heap' u = heap u := by
  have enoughA : A.length < fuel := by omega
  have enoughB : B.length < fuel := by omega
  have enoughBoth : (a :: A).length + (b :: B).length < fuel := by simp only [List.length_cons]; omega
  have sortedA : isSorted heap less fuel (some a) (some b) = .ok true := by
    have first : Holds heap list (P ++ a :: A ++ (b :: B ++ Q)) := by simpa using holds
    simpa using isSorted_of_isChain less first chainA enoughA
  have second : Holds heap list ((P ++ a :: A) ++ b :: B ++ Q) := by simpa using holds
  have sortedB := isSorted_of_isChain less second chainB enoughB
  obtain ⟨heap', ran, holds', agree⟩ := inplaceMergeLoop_holds less holds enoughBoth
  refine ⟨heap', ?_, holds', agree⟩
  rw [head?_append_tail] at sortedB ran ⊢
  simp only [List.cons_append, List.head?_cons] at ran
  simp only [inplaceMerge, reduceCtorEq, if_false, sortedA, sortedB, bind, Except.bind,
    Bool.not_true, Bool.false_eq_true, ran]

end Merge

/-! ## Passes -/

section Pass

variable {heap : Heap α} {list : Header α} (less : α → α → Bool)

/-- A pass from the start of `S` merges the maximal runs of `S` two by two, as
`NaturalMerge.pass` does, and counts the runs it outputs. -/
theorem listSortPass_holds {P S : List α} (holds : Holds heap list (P ++ S)) {fuel turns : Nat}
    (enough : S.length < fuel) (few : S.length < turns) (cnt : Nat) :
    ∃ heap', listSortPass list less fuel turns heap (S ++ [list.tail]).head? cnt =
        .ok (heap', cnt + (pass (atMost less) S).length) ∧
      Holds heap' list (P ++ (pass (atMost less) S).flatten) ∧
      ∀ u ∉ list.head :: (P ++ S ++ [list.tail]), heap' u = heap u := by
  -- on the turns, each merging the first two runs
  induction turns generalizing P S heap cnt with
  | zero => omega
  | succ turns ih =>
    cases S with
    | nil =>
      refine ⟨heap, ?_, by simpa [NaturalMerge.pass, mergePairs] using holds, fun _ _ => rfl⟩
      simp [listSortPass, listEnd, NaturalMerge.pass, mergePairs]
      rfl
    | cons x T =>
      have x_not_end : some x ≠ listEnd list := by
        simpa [listEnd] using holds.ne_tail (List.mem_append_right P List.mem_cons_self)
      obtain ⟨run, first⟩ := takeRun_fst_cons (atMost less) x T
      have whole := takeRun_append (atMost less) (x :: T)
      have chain := isChain_takeRun (atMost less) (x :: T)
      have runs := splitBy_eq_takeRun (atMost less) (List.cons_ne_nil x T)
      have found := findEndOfRun_eq less (show Holds heap list (P ++ x :: T) from holds)
        (show T.length < fuel by simp at enough; omega)
      rw [first] at whole chain runs
      generalize (takeRun (atMost less) (x :: T)).2 = after at whole runs found
      cases after with
      | nil =>
        -- one run is left: the pass ends
        rw [List.append_nil] at whole
        have single : pass (atMost less) (x :: T) = [x :: run] := by
          rw [NaturalMerge.pass, runs]
          rfl
        refine ⟨heap, ?_, by rw [single, List.flatten_singleton, whole]; exact holds, fun _ _ => rfl⟩
        rw [single, List.cons_append, List.head?_cons, listSortPass, if_neg x_not_end]
        have at_end : some list.tail = listEnd list := rfl
        simp only [found, bind, Except.bind, List.nil_append, List.head?_cons]
        rw [if_pos at_end]
        rfl
      | cons y T₂ =>
        -- two runs: merge them and go on after the second
        have second : Holds heap list ((P ++ x :: run) ++ y :: T₂) := by
          rw [List.append_assoc, List.cons_append, ← List.cons_append, whole]
          exact holds
        have y_not_end : some y ≠ listEnd list := by
          simpa [listEnd] using second.ne_tail (List.mem_append_right _ List.mem_cons_self)
        have shorter : T₂.length < fuel := by
          have lengths := congrArg List.length whole
          simp only [List.cons_append, List.length_cons, List.length_append] at lengths enough
          omega
        obtain ⟨run₂, first₂⟩ := takeRun_fst_cons (atMost less) y T₂
        have whole₂ := takeRun_append (atMost less) (y :: T₂)
        have chain₂ := isChain_takeRun (atMost less) (y :: T₂)
        have runs₂ := splitBy_eq_takeRun (atMost less) (List.cons_ne_nil y T₂)
        have found₂ := findEndOfRun_eq less second shorter
        rw [first₂] at whole₂ chain₂ runs₂
        generalize (takeRun (atMost less) (y :: T₂)).2 = after at whole₂ runs₂ found₂
        have pair : Holds heap list (P ++ x :: run ++ y :: run₂ ++ after) := by
          rw [List.append_assoc, whole₂]
          exact second
        have lengths : run.length + run₂.length + 2 < fuel ∧ after.length < turns ∧
            after.length < fuel := by
          have total := congrArg List.length whole
          have total₂ := congrArg List.length whole₂
          simp only [List.cons_append, List.length_cons, List.length_append] at total total₂ enough few
          omega
        obtain ⟨heap₁, merged, holds₁, agree₁⟩ := inplaceMerge_holds less pair chain chain₂ lengths.1
        have rest : Holds heap₁ list ((P ++ (x :: run).merge (y :: run₂) (atMost less)) ++ after) := by
          simpa using holds₁
        obtain ⟨heap', ran, holds', agree⟩ := ih rest lengths.2.2 lengths.2.1 (cnt + 1)
        have two : pass (atMost less) (x :: T) =
            (x :: run).merge (y :: run₂) (atMost less) :: pass (atMost less) after := by
          rw [NaturalMerge.pass, runs, runs₂]
          rfl
        -- the nodes of the list are the same before and after the merge
        have same_nodes : ∀ u, u ∈ list.head :: (P ++ x :: T ++ [list.tail]) ↔
            u ∈ list.head :: (P ++ x :: run ++ y :: run₂ ++ after ++ [list.tail]) := by
          intro u
          rw [← whole, ← whole₂]
          simp only [List.cons_append, List.append_assoc]
        refine ⟨heap', ?_, ?_, fun u outside => ?_⟩
        · rw [two]
          rw [List.cons_append, List.head?_cons, listSortPass, if_neg x_not_end]
          simp only [found, bind, Except.bind, List.cons_append, List.head?_cons, if_neg y_not_end,
            found₂, merged, ran, List.length_cons]
          congr 2
          omega
        · rw [two, List.flatten_cons, ← List.append_assoc]
          exact holds'
        · have outside' := (same_nodes u).not.mp outside
          rw [agree u ?_, agree₁ u outside']
          simp only [List.mem_cons, List.mem_append, List.mem_merge] at outside' ⊢
          tauto

/-- The passes of `list_sort` go through the sequences `sortPasses` computes. -/
theorem listSortLoop_holds {xs ys : List α} {passes : Nat} (holds : Holds heap list xs) {fuel : Nat}
    (enough : xs.length < fuel) (sorted : sortPasses (atMost less) passes xs = some ys) :
    ∃ heap', listSortLoop list less fuel passes heap = .ok heap' ∧ Holds heap' list ys ∧
      ∀ u ∉ list.head :: (xs ++ [list.tail]), heap' u = heap u := by
  induction passes generalizing xs heap with
  | zero => cases sorted
  | succ passes ih =>
    obtain ⟨heap₁, passed, holds₁, agree₁⟩ :=
      listSortPass_holds less (show Holds heap list ([] ++ xs) by simpa using holds) enough enough 0
    rw [Nat.zero_add] at passed
    have begin := holds.listBegin_eq
    rw [sortPasses] at sorted
    split at sorted
    · -- more than one run was output: another pass
      rename_i more
      have same_length : (pass (atMost less) xs).flatten.length = xs.length :=
        (perm_pass (atMost less) xs).length_eq
      obtain ⟨heap', ran, holds', agree⟩ :=
        ih (show Holds heap₁ list (pass (atMost less) xs).flatten by simpa using holds₁)
          (by omega) sorted
      refine ⟨heap', ?_, holds', fun u outside => ?_⟩
      · simp only [listSortLoop, begin, passed, bind, Except.bind, gt_iff_lt, more, if_true, ran]
      · rw [agree u ?_, agree₁ u (by simpa using outside)]
        have perm := perm_pass (atMost less) xs
        simp only [List.mem_cons, List.mem_append, perm.mem_iff] at outside ⊢
        exact outside
    · rename_i few
      cases sorted
      refine ⟨heap₁, ?_, by simpa using holds₁, fun u outside => agree₁ u (by simpa using outside)⟩
      simp only [listSortLoop, begin, passed, bind, Except.bind, gt_iff_lt, few, if_false, pure,
        Except.pure]

end Pass

/-! ## The sort -/

section Sorting

variable {heap : Heap α} {list : Header α} (less : α → α → Bool)

/-- The final assertion of `list_sort` holds of a list holding a sequence in order. -/
theorem isSorted_of_pairwise {ys : List α} (holds : Holds heap list ys)
    (ordered : ys.Pairwise fun a b => atMost less a b) {fuel : Nat} (enough : ys.length < fuel) :
    isSorted heap less fuel (listBegin heap list) (listEnd list) = .ok true := by
  rw [holds.listBegin_eq]
  cases ys with
  | nil => exact isSorted_self less fuel _
  | cons y rest =>
    have whole : Holds heap list ([] ++ y :: rest ++ []) := by simpa using holds
    have shorter : rest.length < fuel := by
      simp only [List.length_cons] at enough
      omega
    have sorted := isSorted_of_isChain less whole ordered.isChain shorter
    simpa [listEnd] using sorted

omit [DecidableEq α] in
theorem atMost_trans (order : IsStrictWeakOrder α fun a b => less a b = true) :
    ∀ a b c, atMost less a b → atMost less b c → atMost less a c := by
  intro a b c first second
  simp only [atMost, Bool.not_eq_eq_eq_not, Bool.not_true] at first second ⊢
  by_contra below
  rcases connected_of_strictWeakOrder less order (Bool.not_eq_false _ ▸ below) (b := b) with
    lower | lower
  · rw [second] at lower
    cases lower
  · rw [first] at lower
    cases lower

omit [DecidableEq α] in
theorem atMost_total (order : IsStrictWeakOrder α fun a b => less a b = true) :
    ∀ a b, atMost less a b || atMost less b a := by
  intro a b
  by_contra neither
  simp only [atMost, Bool.or_eq_true, Bool.not_eq_eq_eq_not, Bool.not_true, not_or] at neither
  have both : less a a = true := order.trans a b a (by simpa using neither.2) (by simpa using neither.1)
  exact order.irrefl a both

/-- `list_sort` sorts a well-formed list stably within `Nat.clog 2 n + 1` passes, and each pass
leaves at most half the maximal runs it found, rounding up. -/
theorem listSort_sorts (order : IsStrictWeakOrder α fun a b => less a b = true) {xs : List α}
    (holds : Holds heap list xs) {fuel : Nat} (enough : xs.length < fuel) :
    (∃ heap' ys, listSort heap list less (Nat.clog 2 xs.length + 1) fuel = .ok heap' ∧
      Holds heap' list ys ∧ ys.Perm xs ∧ ys.Pairwise (fun a b => less b a = false) ∧
      (∀ x, ys.filter (fun y => !less x y && !less y x) = xs.filter (fun y => !less x y && !less y x)) ∧
      ∀ u ∉ list.head :: (xs ++ [list.tail]), heap' u = heap u) ∧
    ∃ heap' ys, listSortPass list less fuel fuel heap (listBegin heap list) 0 =
        .ok (heap', (runCount (atMost less) xs + 1) / 2) ∧
      Holds heap' list ys ∧ runCount (atMost less) ys ≤ (runCount (atMost less) xs + 1) / 2 := by
  have trans := atMost_trans less order
  have total := atMost_total less order
  -- the classes of `less` are those of `Equiv (atMost less)`
  have classes : ∀ x, (fun y => !less x y && !less y x) = Equiv (atMost less) x := by
    intro x
    funext y
    simp [NaturalMerge.Equiv, atMost, Bool.and_comm]
  obtain ⟨ys, sorted⟩ := Option.isSome_iff_exists.mp (sortPasses_clog trans total xs)
  obtain ⟨perm, ordered, stable⟩ := sortPasses_spec trans total sorted
  obtain ⟨heap', ran, holds', agree⟩ := listSortLoop_holds less holds enough sorted
  have final := isSorted_of_pairwise less holds' ordered (by rw [perm.length_eq]; exact enough)
  obtain ⟨heap₁, passed, holds₁, -⟩ :=
    listSortPass_holds less (show Holds heap list ([] ++ xs) by simpa using holds) enough enough 0
  refine ⟨⟨heap', ys, ?_, holds', perm, ordered.imp fun below => by simpa [atMost] using below,
    fun x => by rw [classes x]; exact stable x, agree⟩, heap₁, _, ?_, by simpa using holds₁,
    runCount_pass_le trans total xs⟩
  · simp only [listSort, ran, final, bind, Except.bind, Bool.not_true, Bool.false_eq_true, if_false,
      pure, Except.pure]
  · rw [holds.listBegin_eq, ← length_pass]
    simpa using passed

theorem sampleList_sorts :
    IsStrictWeakOrder ℕ (fun a b => decide (a < b) = true) ∧ Holds sampleHeap sampleList [5, 1] ∧
    (∃ heap' ys, listSort sampleHeap sampleList (fun a b => decide (a < b)) (Nat.clog 2 2 + 1) 3 =
        .ok heap' ∧ Holds heap' sampleList ys ∧ ys.Perm [5, 1] ∧
      ys.Pairwise (fun a b => decide (b < a) = false) ∧
      (∀ x, ys.filter (fun y => !decide (x < y) && !decide (y < x)) =
        [5, 1].filter (fun y => !decide (x < y) && !decide (y < x))) ∧
      ∀ u ∉ sampleList.head :: ([5, 1] ++ [sampleList.tail]), heap' u = sampleHeap u) ∧
    ∃ heap' ys, listSortPass sampleList (fun a b => decide (a < b)) 3 3 sampleHeap
        (listBegin sampleHeap sampleList) 0 =
        .ok (heap', (runCount (atMost fun a b => decide (a < b)) [5, 1] + 1) / 2) ∧
      Holds heap' sampleList ys ∧
      runCount (atMost fun a b => decide (a < b)) ys ≤
        (runCount (atMost fun a b => decide (a < b)) [5, 1] + 1) / 2 := by
  have order : IsStrictWeakOrder ℕ fun a b => decide (a < b) = true :=
    { irrefl := fun a => by simp
      trans := fun a b c => by simp only [decide_eq_true_eq]; omega
      incomp_trans := fun a b c => by simp only [decide_eq_true_eq]; omega }
  have holds : Holds sampleHeap sampleList [5, 1] := by decide
  exact ⟨order, holds, listSort_sorts _ order holds (by decide)⟩

end Sorting

end Pintos.KernelList
