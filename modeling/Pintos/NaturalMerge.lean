import Mathlib

/-!
# Natural merge sort

A natural merge sort cuts a sequence into its maximal runs in order, `List.splitBy le`, and
merges neighbouring runs pairwise, one pass after another, until a pass leaves at most one
run.  `takeRun` finds the first run the way a loop that walks the sequence does; `pass` is
one pass and `sortPasses` the passes, at most a given number of them.

For a total preorder `le` each pass keeps the elements and, within each class of elements
that `le` cannot tell apart (`Equiv`), their order.  A pass leaves at most half as many runs
as it found, rounding up, so `Nat.clog 2 n + 1` passes sort `n` elements.
-/

namespace Pintos.NaturalMerge

variable {α : Type} (le : α → α → Bool)

/-- The first maximal run of a sequence in order under `le`, and what follows it. -/
def takeRun : List α → List α × List α
  | [] => ([], [])
  | [x] => ([x], [])
  | x :: y :: rest =>
    if le x y then (x :: (takeRun (y :: rest)).1, (takeRun (y :: rest)).2)
    else ([x], y :: rest)

/-- Merge neighbouring runs pairwise; a last run without a partner stays as it is. -/
def mergePairs : List (List α) → List (List α)
  | first :: second :: rest => first.merge second le :: mergePairs rest
  | [run] => [run]
  | [] => []

/-- The runs one pass leaves. -/
def pass (xs : List α) : List (List α) := mergePairs le (xs.splitBy le)

/-- Passes until one leaves at most one run, for at most `passes` passes. -/
def sortPasses : Nat → List α → Option (List α)
  | 0, _ => none
  | passes + 1, xs =>
    if 1 < (pass le xs).length then sortPasses passes (pass le xs).flatten
    else some (pass le xs).flatten

/-- The number of maximal runs of a sequence. -/
def runCount (xs : List α) : Nat := (xs.splitBy le).length

/-- The number of places where a sequence goes down. -/
def descents : List α → Nat
  | x :: y :: rest => (if le x y then 0 else 1) + descents (y :: rest)
  | _ => 0

/-- `y` is in the class of `x`: `le` cannot tell them apart. -/
def Equiv (x y : α) : Bool := le x y && le y x

/-! ## The first run -/

section Runs

theorem takeRun_append (xs : List α) : (takeRun le xs).1 ++ (takeRun le xs).2 = xs := by
  fun_induction takeRun le xs with
  | case1 => rfl
  | case2 x => rfl
  | case3 x y rest ordered ih => simp [ih]
  | case4 x y rest unordered => rfl

theorem takeRun_fst_cons (x : α) (rest : List α) : ∃ run, (takeRun le (x :: rest)).1 = x :: run := by
  cases rest with
  | nil => exact ⟨[], rfl⟩
  | cons y rest =>
    unfold takeRun
    split
    · exact ⟨_, rfl⟩
    · exact ⟨[], rfl⟩

theorem takeRun_fst_ne_nil {xs : List α} (nonempty : xs ≠ []) : (takeRun le xs).1 ≠ [] := by
  obtain ⟨x, rest, rfl⟩ := List.exists_cons_of_ne_nil nonempty
  obtain ⟨run, first⟩ := takeRun_fst_cons le x rest
  rw [first]
  exact List.cons_ne_nil x run

theorem isChain_takeRun (xs : List α) : (takeRun le xs).1.IsChain fun a b => le a b := by
  fun_induction takeRun le xs with
  | case1 => exact .nil
  | case2 x => exact .singleton x
  | case3 x y rest ordered ih =>
    -- the run after `x` starts at `y`
    obtain ⟨run, first⟩ := takeRun_fst_cons le y rest
    rw [first] at ih ⊢
    exact List.IsChain.cons_cons ordered ih
  | case4 x y rest unordered => exact .singleton x

theorem takeRun_boundary (xs : List α) :
    ∀ a ∈ (takeRun le xs).1.getLast?, ∀ b ∈ (takeRun le xs).2.head?, le a b = false := by
  fun_induction takeRun le xs with
  | case1 => simp
  | case2 x => simp
  | case3 x y rest ordered ih =>
    intro a last b first
    have nonempty := takeRun_fst_ne_nil le (List.cons_ne_nil y rest)
    obtain ⟨l, lastRun⟩ := Option.isSome_iff_exists.mp (List.getLast?_isSome.mpr nonempty)
    rw [List.getLast?_cons, lastRun, Option.getD_some, Option.mem_def, Option.some.injEq] at last
    rw [← last]
    exact ih l lastRun b first
  | case4 x y rest unordered =>
    simp only [List.getLast?_singleton, Option.mem_def, Option.some.injEq, List.head?_cons]
    rintro a rfl b rfl
    simpa using unordered

theorem splitBy_eq_takeRun {xs : List α} (nonempty : xs ≠ []) :
    xs.splitBy le = (takeRun le xs).1 :: (takeRun le xs).2.splitBy le := by
  conv_lhs => rw [← takeRun_append le xs]
  rw [List.splitBy_append (takeRun_boundary le xs),
    List.splitBy_of_isChain (takeRun_fst_ne_nil le nonempty) (isChain_takeRun le xs)]
  rfl

theorem length_takeRun_snd_lt {xs : List α} (nonempty : xs ≠ []) :
    (takeRun le xs).2.length < xs.length := by
  have whole := congrArg List.length (takeRun_append le xs)
  have first := List.length_pos_iff.mpr (takeRun_fst_ne_nil le nonempty)
  rw [List.length_append] at whole
  omega

end Runs

/-! ## Counting runs -/

section Count

@[simp] theorem descents_nil : descents le ([] : List α) = 0 := rfl

@[simp] theorem descents_singleton (x : α) : descents le [x] = 0 := rfl

theorem descents_cons_cons (x y : α) (rest : List α) :
    descents le (x :: y :: rest) = (if le x y then 0 else 1) + descents le (y :: rest) := rfl

theorem descents_append (init : List α) (a b : α) (rest : List α) :
    descents le (init ++ a :: b :: rest) =
      descents le (init ++ [a]) + (if le a b then 0 else 1) + descents le (b :: rest) := by
  induction init with
  | nil =>
    simp only [List.nil_append, descents_cons_cons]
    show _ = 0 + _ + _
    omega
  | cons x init ih =>
    cases init with
    | nil =>
      simp only [List.cons_append, List.nil_append, descents_cons_cons, descents_singleton] at ih ⊢
      omega
    | cons y init =>
      simp only [List.cons_append] at ih ⊢
      rw [descents_cons_cons, ih, descents_cons_cons]
      omega

theorem descents_append_le (l m : List α) :
    descents le (l ++ m) ≤ descents le l + 1 + descents le m := by
  rcases List.eq_nil_or_concat' l with rfl | ⟨init, a, rfl⟩
  · simp
  · cases m with
    | nil => simp
    | cons b rest =>
      rw [List.append_assoc, List.singleton_append, descents_append]
      split <;> omega

theorem descents_eq_zero {l : List α} (chain : l.IsChain fun a b => le a b) : descents le l = 0 := by
  induction l with
  | nil => rfl
  | cons x rest ih =>
    cases rest with
    | nil => rfl
    | cons y rest =>
      obtain ⟨ordered, chain⟩ := List.isChain_cons_cons.mp chain
      rw [descents_cons_cons, if_pos ordered, ih chain]

theorem descents_flatten {l : List α} {ls : List (List α)}
    (chains : ∀ m ∈ l :: ls, m.IsChain fun a b => le a b) : descents le (l :: ls).flatten ≤ ls.length := by
  induction ls generalizing l with
  | nil => simp [descents_eq_zero le (chains l List.mem_cons_self)]
  | cons m ls ih =>
    have rest := ih fun m' mem => chains m' (List.mem_cons_of_mem l mem)
    have joined := descents_append_le le l (m :: ls).flatten
    rw [descents_eq_zero le (chains l List.mem_cons_self)] at joined
    rw [List.flatten_cons]
    simp only [List.length_cons]
    omega

theorem runCount_eq {xs : List α} (nonempty : xs ≠ []) : runCount le xs = descents le xs + 1 := by
  -- on the length: the first run is cut off and the rest counted
  induction h : xs.length using Nat.strong_induction_on generalizing xs with
  | _ n ih =>
    have whole := takeRun_append le xs
    rw [runCount, splitBy_eq_takeRun le nonempty, List.length_cons]
    rcases List.eq_nil_or_concat' (takeRun le xs).1 with empty | ⟨init, a, run⟩
    · exact absurd empty (takeRun_fst_ne_nil le nonempty)
    cases after : (takeRun le xs).2 with
    | nil =>
      rw [after, List.append_nil] at whole
      rw [← whole, descents_eq_zero le (isChain_takeRun le xs)]
      rfl
    | cons b rest =>
      have shorter : (b :: rest).length < n := by
        rw [← after, ← h]
        exact length_takeRun_snd_lt le nonempty
      have down : le a b = false :=
        takeRun_boundary le xs a (by rw [run]; simp) b (by rw [after]; rfl)
      have chain := isChain_takeRun le xs
      rw [run] at whole chain
      rw [after] at whole
      rw [← runCount, ih _ shorter (List.cons_ne_nil b rest) rfl, ← whole, List.append_assoc,
        List.singleton_append, descents_append, descents_eq_zero le chain, down]
      simp only [Bool.false_eq_true, if_false]
      omega

theorem runCount_le_length (xs : List α) : runCount le xs ≤ xs.length := by
  have groups : ∀ ls : List (List α), [] ∉ ls → ls.length ≤ ls.flatten.length := by
    intro ls
    induction ls with
    | nil => simp
    | cons l ls ih =>
      intro nonempty
      rw [List.mem_cons, not_or] at nonempty
      have first := List.length_pos_iff.mpr (Ne.symm nonempty.1)
      simp only [List.length_cons, List.flatten_cons, List.length_append]
      have := ih nonempty.2
      omega
  have := groups _ (List.nil_notMem_splitBy le xs)
  rwa [List.flatten_splitBy] at this

end Count

/-! ## Merging runs -/

section Merge

variable {le} (trans : ∀ a b c, le a b → le b c → le a c) (total : ∀ a b, le a b || le b a)

include total in
theorem le_refl' (a : α) : le a a := by simpa using total a a

include trans in
theorem pairwise_of_isChain {l : List α} (chain : l.IsChain fun a b => le a b) :
    l.Pairwise fun a b => le a b := by
  let _ : Trans (fun a b => le a b = true) (fun a b => le a b = true) (fun a b => le a b = true) :=
    ⟨fun first second => trans _ _ _ first second⟩
  exact chain.pairwise

include trans total in
/-- Merging is stable: the elements of each class come from the first run, then from the
second, in their order.  An element of the second run goes before one of the first only when
it is below it, and so below the whole rest of the first run. -/
theorem filter_merge (x : α) {first : List α} (sorted : first.Pairwise fun a b => le a b)
    (second : List α) :
    (first.merge second le).filter (Equiv le x) =
      first.filter (Equiv le x) ++ second.filter (Equiv le x) := by
  induction first generalizing second with
  | nil => simp
  | cons a first ih =>
    induction second with
    | nil => simp
    | cons b second ihSecond =>
      by_cases ordered : le a b
      · rw [List.cons_merge_cons_pos le first second ordered, List.filter_cons,
          List.filter_cons (x := a), ih sorted.of_cons (b :: second)]
        split <;> simp
      · rw [List.cons_merge_cons_neg le first second ordered, List.filter_cons,
          ihSecond, List.filter_cons (x := b)]
        split
        · rename_i same
          -- nothing of the first run is in the class of `b`
          have none : (a :: first).filter (Equiv le x) = [] := by
            refine List.filter_eq_nil_iff.mpr fun c mem inClass => ordered ?_
            simp only [Equiv, Bool.and_eq_true] at same inClass
            have below : le a c := by
              rcases List.mem_cons.mp mem with rfl | later
              · exact le_refl' total _
              · exact List.rel_of_pairwise_cons sorted later
            exact trans _ _ _ below (trans _ _ _ inClass.2 same.1)
          rw [none]
          simp
        · rfl

include trans total in
theorem pairwise_of_mem_mergePairs {rs : List (List α)}
    (sorted : ∀ r ∈ rs, r.Pairwise fun a b => le a b) :
    ∀ r ∈ mergePairs le rs, r.Pairwise fun a b => le a b := by
  fun_induction mergePairs le rs with
  | case1 first second rest ih =>
    intro r mem
    rcases List.mem_cons.mp mem with rfl | later
    · exact List.pairwise_merge trans total first second (sorted first (by simp)) (sorted second (by simp))
    · exact ih (fun r' mem' => sorted r' (by simp [mem'])) r later
  | case2 run => exact sorted
  | case3 => exact sorted

include trans total in
theorem filter_flatten_mergePairs (x : α) {rs : List (List α)}
    (sorted : ∀ r ∈ rs, r.Pairwise fun a b => le a b) :
    (mergePairs le rs).flatten.filter (Equiv le x) = rs.flatten.filter (Equiv le x) := by
  fun_induction mergePairs le rs with
  | case1 first second rest ih =>
    simp only [List.flatten_cons, List.filter_append]
    rw [filter_merge trans total x (sorted first (by simp)) second,
      ih fun r' mem' => sorted r' (by simp [mem']), List.append_assoc]
  | case2 run => rfl
  | case3 => rfl

end Merge

/-! ## Passes -/

section Passes

theorem flatten_mergePairs_perm (rs : List (List α)) :
    (mergePairs le rs).flatten.Perm rs.flatten := by
  fun_induction mergePairs le rs with
  | case1 first second rest ih =>
    simp only [List.flatten_cons, ← List.append_assoc]
    exact (List.merge_perm_append le).append ih
  | case2 run => exact List.Perm.refl _
  | case3 => exact List.Perm.refl _

theorem length_mergePairs (rs : List (List α)) :
    (mergePairs le rs).length = (rs.length + 1) / 2 := by
  fun_induction mergePairs le rs with
  | case1 first second rest ih =>
    simp only [List.length_cons, ih]
    omega
  | case2 run => simp
  | case3 => simp

theorem perm_pass (xs : List α) : (pass le xs).flatten.Perm xs := by
  have runs := flatten_mergePairs_perm le (xs.splitBy le)
  rwa [List.flatten_splitBy] at runs

theorem length_pass (xs : List α) : (pass le xs).length = (runCount le xs + 1) / 2 :=
  length_mergePairs le _

variable {le} (trans : ∀ a b c, le a b → le b c → le a c) (total : ∀ a b, le a b || le b a)
include trans total

theorem pairwise_of_mem_pass {xs r : List α} (mem : r ∈ pass le xs) : r.Pairwise fun a b => le a b :=
  pairwise_of_mem_mergePairs trans total
    (fun _ run => pairwise_of_isChain trans (List.isChain_of_mem_splitBy run)) r mem

theorem filter_pass (x : α) (xs : List α) :
    (pass le xs).flatten.filter (Equiv le x) = xs.filter (Equiv le x) := by
  rw [pass, filter_flatten_mergePairs trans total x
    (fun _ run => pairwise_of_isChain trans (List.isChain_of_mem_splitBy run)), List.flatten_splitBy]

theorem runCount_pass (xs : List α) : runCount le (pass le xs).flatten ≤ (pass le xs).length := by
  cases made : pass le xs with
  | nil => simp [runCount]
  | cons l ls =>
    by_cases empty : (l :: ls).flatten = []
    · rw [empty]
      simp [runCount]
    · have chains : ∀ m ∈ l :: ls, m.IsChain fun a b => le a b := by
        intro m mem
        rw [← made] at mem
        exact (pairwise_of_mem_pass trans total mem).isChain
      rw [runCount_eq le empty]
      have := descents_flatten le chains
      simp only [List.length_cons]
      omega

theorem runCount_pass_le (xs : List α) :
    runCount le (pass le xs).flatten ≤ (runCount le xs + 1) / 2 :=
  (runCount_pass trans total xs).trans (length_pass le xs).le

theorem sortPasses_spec {passes : Nat} {xs ys : List α} (sorted : sortPasses le passes xs = some ys) :
    ys.Perm xs ∧ (ys.Pairwise fun a b => le a b) ∧ ∀ x, ys.filter (Equiv le x) = xs.filter (Equiv le x) := by
  induction passes generalizing xs with
  | zero => cases sorted
  | succ passes ih =>
    rw [sortPasses] at sorted
    split at sorted
    · -- another pass follows
      obtain ⟨perm, ordered, stable⟩ := ih sorted
      exact ⟨perm.trans (perm_pass le xs), ordered,
        fun x => (stable x).trans (filter_pass trans total x xs)⟩
    · -- the pass left at most one run
      rename_i few
      cases sorted
      refine ⟨perm_pass le xs, ?_, fun x => filter_pass trans total x xs⟩
      match made : pass le xs, few with
      | [], _ => exact List.Pairwise.nil
      | [run], _ =>
        simpa using pairwise_of_mem_pass trans total (show run ∈ pass le xs by simp [made])
      | _ :: _ :: _, more => simp at more

theorem sortPasses_isSome {passes : Nat} {xs : List α} (few : runCount le xs ≤ 2 ^ passes) :
    (sortPasses le (passes + 1) xs).isSome := by
  induction passes generalizing xs with
  | zero =>
    have one : ¬ 1 < (pass le xs).length := by
      rw [length_pass]
      simp at few
      omega
    rw [sortPasses, if_neg one]
    rfl
  | succ passes ih =>
    rw [sortPasses]
    split
    · apply ih
      have halved := runCount_pass_le trans total xs
      rw [Nat.pow_succ] at few
      omega
    · rfl

theorem sortPasses_clog (xs : List α) : (sortPasses le (Nat.clog 2 xs.length + 1) xs).isSome :=
  sortPasses_isSome trans total ((runCount_le_length le xs).trans (Nat.le_pow_clog (by decide) _))

end Passes

end Pintos.NaturalMerge
