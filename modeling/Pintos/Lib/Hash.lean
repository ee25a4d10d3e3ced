import Mathlib
import Pintos.LowBit
import Pintos.Representatives
import Pintos.Buckets

/-!
# Hash tables

`lib/kernel/hash.c`: `bucket_cnt` buckets, each a list, and an element lives in bucket
`hash (e) & (bucket_cnt - 1)`.  Two elements neither of which is `less` than the other are
equal, and the table holds at most one element of each class.  After an insertion or a deletion
`rehash` resizes the table to about two elements a bucket, clearing low bits of the count until
a power of two remains; when `malloc` fails it leaves the table as it is.

Elements stand for the `hash_elem`s themselves: `=` on them is the identity `list_remove` uses,
and `hash` and `less` read the structures that contain them.
-/

namespace Pintos

structure Hash (α : Type) where
  elemCnt : Nat
  bucketCnt : Nat
  buckets : List (List α)

namespace Hash

open Buckets

variable {α : Type}

def bestElemsPerBucket : Nat := 2

def turnOffLeast1bit (x : Nat) : Nat := x &&& (x - 1)

def isPowerOf2 (x : Nat) : Bool := x != 0 && turnOffLeast1bit x == 0

theorem turnOffLeast1bit_pos {x : Nat} (positive : 0 < x) (notPower : ¬ isPowerOf2 x = true) :
    0 < turnOffLeast1bit x := by
  simp only [isPowerOf2, Bool.and_eq_true, bne_iff_ne, ne_eq, beq_iff_eq, not_and] at notPower
  exact Nat.pos_of_ne_zero (notPower (by omega))

/-- `while (!is_power_of_2 (new_bucket_cnt)) new_bucket_cnt = turn_off_least_1bit (new_bucket_cnt);`
from a count that is not zero. -/
def powerOf2Loop (x : Nat) (positive : 0 < x) : Nat :=
  if power : isPowerOf2 x then x
  else powerOf2Loop (turnOffLeast1bit x) (turnOffLeast1bit_pos positive power)
termination_by x
decreasing_by exact LowBit.and_pred_lt positive

section Table

variable (hash : α → Nat) (less : α → α → Bool)

def findBucket (h : Hash α) (e : α) : Nat := hash e &&& (h.bucketCnt - 1)

def findElem (bucket : List α) (e : α) : Option α :=
  bucket.find? fun hi => !less hi e && !less e hi

def insertElem (h : Hash α) (bucket : Nat) (e : α) : Hash α :=
  { h with elemCnt := h.elemCnt + 1, buckets := h.buckets.modify bucket (e :: ·) }

/-- `remove_elem`; the element is in `bucket`, where `find_elem` found it. -/
def removeElem [DecidableEq α] (h : Hash α) (bucket : Nat) (e : α) : Hash α :=
  { h with elemCnt := h.elemCnt - 1, buckets := h.buckets.modify bucket (·.erase e) }

/-- One turn of `rehash`'s last loop: the element goes to the front of its new bucket. -/
def moveElem (h : Hash α) (e : α) : Hash α :=
  { h with buckets := h.buckets.modify (findBucket hash h e) (e :: ·) }

def rehash (h : Hash α) (mallocOk : Bool) : Hash α :=
  -- `if (new_bucket_cnt < 4) new_bucket_cnt = 4;`
  let newBucketCnt := powerOf2Loop (max (h.elemCnt / bestElemsPerBucket) 4) (by omega)
  if newBucketCnt = h.bucketCnt then h
  else if mallocOk then
    h.buckets.foldl (fun moved bucket => bucket.foldl (moveElem hash) moved)
      { h with bucketCnt := newBucketCnt, buckets := List.replicate newBucketCnt [] }
  else h

/-- `hash_clear`, with the elements it passes to the destructor in order. -/
def hashClear (h : Hash α) : Hash α × List α :=
  ({ h with buckets := List.replicate h.bucketCnt [], elemCnt := 0 }, h.buckets.flatten)

def hashInit (mallocOk : Bool) : Option (Hash α) :=
  if mallocOk then some (hashClear { elemCnt := 0, bucketCnt := 4, buckets := List.replicate 4 [] }).1
  else none

def hashInsert (h : Hash α) (new : α) (mallocOk : Bool) : Hash α × Option α :=
  let bucket := findBucket hash h new
  match findElem less (h.buckets.getD bucket []) new with
  | none => (rehash hash (insertElem h bucket new) mallocOk, none)
  | some old => (rehash hash h mallocOk, some old)

def hashReplace [DecidableEq α] (h : Hash α) (new : α) (mallocOk : Bool) : Hash α × Option α :=
  let bucket := findBucket hash h new
  match findElem less (h.buckets.getD bucket []) new with
  | none => (rehash hash (insertElem h bucket new) mallocOk, none)
  | some old => (rehash hash (insertElem (removeElem h bucket old) bucket new) mallocOk, some old)

def hashFind (h : Hash α) (e : α) : Option α :=
  findElem less (h.buckets.getD (findBucket hash h e) []) e

def hashDelete [DecidableEq α] (h : Hash α) (e : α) (mallocOk : Bool) : Hash α × Option α :=
  let bucket := findBucket hash h e
  match findElem less (h.buckets.getD bucket []) e with
  | some found => (rehash hash (removeElem h bucket found) mallocOk, some found)
  | none => (h, none)

end Table

def hashSize (h : Hash α) : Nat := h.elemCnt

def hashEmpty (h : Hash α) : Bool := h.elemCnt == 0

/-- `struct hash_iterator`: a bucket, and the position of `elem` in it; `none` is the bucket's
head. -/
structure HashIterator where
  bucket : Nat
  elem : Option Nat

def hashFirst (_ : Hash α) : HashIterator := { bucket := 0, elem := none }

/-- The loop of `hash_next`: from the end of a bucket on to the first element of the next one,
until there is no next bucket. -/
def nextLoop (h : Hash α) (bucket elem : Nat) : Option (Nat × Nat) :=
  if elem = (h.buckets.getD bucket []).length then
    if bucket + 1 < h.bucketCnt then nextLoop h (bucket + 1) 0 else none
  else some (bucket, elem)
termination_by h.bucketCnt - bucket

/-- Where `hash_next` starts looking from `i`: the element after `i.elem`, which after the
bucket's head is its first. -/
def HashIterator.start (i : HashIterator) : Nat :=
  match i.elem with
  | none => 0
  | some elem => elem + 1

/-- `hash_next`: the next element and where it is, or `none` for the `NULL` at the end. -/
def hashNext (h : Hash α) (i : HashIterator) : Option (HashIterator × α) := do
  let (bucket, elem) ← nextLoop h i.bucket i.start
  let e ← (h.buckets.getD bucket [])[elem]?
  pure ({ bucket, elem := some elem }, e)

/-- The elements `hash_next` returns from `i` on, up to the `NULL`, with fuel for the calls. -/
def iterate (h : Hash α) : Nat → HashIterator → List α
  | 0, _ => []
  | fuel + 1, i =>
    match hashNext h i with
    | none => []
    | some (i, e) => e :: iterate h fuel i

section PowerOf2

theorem isPowerOf2_iff {x : Nat} (positive : 0 < x) : isPowerOf2 x = true ↔ ∃ k, x = 2 ^ k := by
  rw [← LowBit.and_pred_eq_zero_iff positive]
  simp [isPowerOf2, turnOffLeast1bit, Nat.pos_iff_ne_zero.mp positive]

theorem powerOf2Loop_eq (x : Nat) (positive : 0 < x) : powerOf2Loop x positive = 2 ^ Nat.log 2 x := by
  induction x using Nat.strong_induction_on with
  | _ x inductionHypothesis =>
    rw [powerOf2Loop]
    split
    · rename_i power
      obtain ⟨k, rfl⟩ := (isPowerOf2_iff positive).mp power
      rw [Nat.log_pow (by decide)]
    · rename_i notPower
      have cleared := turnOffLeast1bit_pos positive notPower
      rw [inductionHypothesis (turnOffLeast1bit x) (LowBit.and_pred_lt positive), turnOffLeast1bit,
        LowBit.log_and_pred (Nat.pos_iff_ne_zero.mp cleared)]

theorem four_le_powerOf2Loop {x : Nat} (big : 4 ≤ x) (positive : 0 < x) :
    4 ≤ powerOf2Loop x positive := by
  rw [powerOf2Loop_eq]
  have atLeastTwo : 2 ≤ Nat.log 2 x := Nat.le_log_of_pow_le (by decide) big
  calc 4 = 2 ^ 2 := rfl
    _ ≤ 2 ^ Nat.log 2 x := Nat.pow_le_pow_right (by decide) atLeastTwo

end PowerOf2

/-! ## The set a table stands for -/

section Abstract

variable (hash : α → Nat) (less : α → α → Bool)

/-- Equality under `less`: neither element is less than the other. -/
def equal (a b : α) : Bool := !less a b && !less b a

inductive Op (α : Type) where
  | insert (new : α) (mallocOk : Bool)
  | replace (new : α) (mallocOk : Bool)
  | find (e : α)
  | delete (e : α) (mallocOk : Bool)
  | clear

/-- One call on the table, with the element it returns. -/
def apply [DecidableEq α] (h : Hash α) : Op α → Hash α × Option α
  | .insert new mallocOk => hashInsert hash less h new mallocOk
  | .replace new mallocOk => hashReplace hash less h new mallocOk
  | .find e => (h, hashFind hash less h e)
  | .delete e mallocOk => hashDelete hash less h e mallocOk
  | .clear => ((hashClear h).1, none)

/-- The same call on a finite set modulo `equal`. -/
def absApply [DecidableEq α] (S : List α) : Op α → List α × Option α
  | .insert new _ => Representatives.insert (equal less) S new
  | .replace new _ => Representatives.replace (equal less) S new
  | .find e => (S, Representatives.find (equal less) S e)
  | .delete e _ => Representatives.delete (equal less) S e
  | .clear => ([], none)

/-- A sequence of calls, with what each returns. -/
def run [DecidableEq α] (h : Hash α) : List (Op α) → Hash α × List (Option α)
  | [] => (h, [])
  | op :: ops =>
    let first := apply hash less h op
    let rest := run first.1 ops
    (rest.1, first.2 :: rest.2)

def absRun [DecidableEq α] (S : List α) : List (Op α) → List α × List (Option α)
  | [] => (S, [])
  | op :: ops =>
    let first := absApply less S op
    let rest := absRun first.1 ops
    (rest.1, first.2 :: rest.2)

/-- A table whose buckets are a power of two, at least four, each element in its bucket, with
its count, and at most one element of each class. -/
structure Valid (h : Hash α) : Prop where
  power : ∃ k, h.bucketCnt = 2 ^ k
  atLeastFour : 4 ≤ h.bucketCnt
  length : h.buckets.length = h.bucketCnt
  placed : ∀ i e, e ∈ h.buckets.getD i [] → findBucket hash h e = i
  count : h.elemCnt = h.buckets.flatten.length
  apart : Representatives.Apart (equal less) h.buckets.flatten

theorem equivalence_equal (order : IsStrictWeakOrder α fun a b => less a b = true) :
    Equivalence fun a b => equal less a b = true where
  refl a := by simp [equal, order.irrefl a]
  symm {a b} same := by simpa [equal, Bool.and_comm] using same
  trans {a b c} first second := by
    simp only [equal, Bool.and_eq_true, Bool.not_eq_true'] at first second ⊢
    have := order.incomp_trans a b c (by simp [first]) (by simp [second])
    simpa using this

end Abstract

/-! ## Each operation keeps the table valid -/

section Valid

variable {hash : α → Nat} {less : α → α → Bool} {h : Hash α}
  (equivalence : Equivalence fun a b => equal less a b = true)

theorem Valid.findBucket_lt (valid : Valid hash less h) (e : α) :
    findBucket hash h e < h.buckets.length := by
  obtain ⟨k, power⟩ := valid.power
  rw [findBucket, power, Nat.and_two_pow_sub_one_eq_mod, valid.length, power]
  exact Nat.mod_lt _ (Nat.two_pow_pos k)

theorem Valid.mem_bucket (valid : Valid hash less h) {a : α} (member : a ∈ h.buckets.flatten) :
    a ∈ h.buckets.getD (findBucket hash h a) [] := by
  obtain ⟨i, memberI⟩ := exists_getD_of_mem_flatten member
  rwa [valid.placed i a memberI]

include equivalence in
/-- `find_elem` in `e`'s bucket finds the element of `e`'s class in the whole table, when
elements of one class have one hash. -/
theorem Valid.findElem_eq (valid : Valid hash less h)
    (compatible : ∀ a b, equal less a b = true → hash a = hash b) (e : α) :
    findElem less (h.buckets.getD (findBucket hash h e) []) e =
      Representatives.find (equal less) h.buckets.flatten e := by
  have bucketApart : Representatives.Apart (equal less) (h.buckets.getD (findBucket hash h e) []) :=
    valid.apart.sublist (getD_sublist_flatten _ _)
  apply Option.ext
  intro a
  change Representatives.find (equal less) _ e = some a ↔ _
  rw [Representatives.find_eq_some_iff equivalence bucketApart,
    Representatives.find_eq_some_iff equivalence valid.apart]
  constructor
  · rintro ⟨member, same⟩
    exact ⟨mem_flatten_of_getD member, same⟩
  · rintro ⟨member, same⟩
    -- an element equal to `e` has `e`'s hash, so it is in `e`'s bucket
    have sameBucket : findBucket hash h a = findBucket hash h e := by
      unfold findBucket
      rw [compatible a e same]
    exact ⟨sameBucket ▸ valid.mem_bucket member, same⟩

include equivalence in
theorem Valid.insertElem (valid : Valid hash less h) (e : α)
    (apart : Representatives.Apart (equal less) (e :: h.buckets.flatten)) :
    Valid hash less (insertElem h (findBucket hash h e) e) ∧
      (insertElem h (findBucket hash h e) e).buckets.flatten.Perm (e :: h.buckets.flatten) := by
  have perm := flatten_modify_cons h.buckets (valid.findBucket_lt e) e
  refine ⟨⟨valid.power, valid.atLeastFour, by simp [Hash.insertElem, valid.length], ?_, ?_,
    Representatives.Apart.perm equivalence apart perm.symm⟩, perm⟩
  · intro i a member
    have inside : i < h.buckets.length := by
      simpa [Hash.insertElem] using lt_length_of_mem_getD member
    simp only [Hash.insertElem] at member
    rw [getD_modify _ inside] at member
    split at member
    · rename_i here
      rcases List.mem_cons.mp member with rfl | old
      · exact here
      · exact valid.placed i a old
    · exact valid.placed i a member
  · simp [Hash.insertElem, valid.count, perm.length_eq]

include equivalence in
theorem Valid.removeElem [DecidableEq α] (valid : Valid hash less h) {b : Nat} {old : α}
    (member : old ∈ h.buckets.getD b []) :
    Valid hash less (removeElem h b old) ∧
      (removeElem h b old).buckets.flatten = h.buckets.flatten.erase old := by
  have erased := flatten_modify_erase h.buckets member (valid.apart.nodup equivalence)
  refine ⟨⟨valid.power, valid.atLeastFour, by simp [Hash.removeElem, valid.length], ?_, ?_, ?_⟩,
    erased⟩
  · intro i a memberA
    have inside : i < h.buckets.length := by
      simpa [Hash.removeElem] using lt_length_of_mem_getD memberA
    simp only [Hash.removeElem] at memberA
    rw [getD_modify _ inside] at memberA
    split at memberA
    · exact valid.placed i a (List.mem_of_mem_erase memberA)
    · exact valid.placed i a memberA
  · simp only [Hash.removeElem]
    rw [erased, List.length_erase_of_mem (mem_flatten_of_getD member), valid.count]
  · simp only [Hash.removeElem]
    rw [erased]
    exact valid.apart.sublist List.erase_sublist

theorem foldl_moveElem (h : Hash α) (xs : List α) :
    xs.foldl (moveElem hash) h = { h with buckets := pushAll (findBucket hash h) h.buckets xs } := by
  induction xs generalizing h with
  | nil => rfl
  | cons x xs inductionHypothesis =>
    rw [List.foldl_cons, inductionHypothesis, pushAll_cons]
    rfl

/-- `rehash` leaves the table as it is, or moves its elements into a power of two, at least
four, of new buckets. -/
theorem rehash_cases (h : Hash α) (mallocOk : Bool) :
    rehash hash h mallocOk = h ∨
      ∃ n, (∃ k, n = 2 ^ k) ∧ 4 ≤ n ∧ rehash hash h mallocOk =
        { h with
          bucketCnt := n
          buckets := pushAll (fun e => hash e &&& (n - 1)) (List.replicate n []) h.buckets.flatten } := by
  unfold Hash.rehash
  dsimp only
  split
  · exact .inl rfl
  split
  · refine .inr ⟨powerOf2Loop (max (h.elemCnt / bestElemsPerBucket) 4) (by omega),
      ⟨_, powerOf2Loop_eq _ _⟩, four_le_powerOf2Loop (Nat.le_max_right _ _) _, ?_⟩
    rw [← List.foldl_flatten, foldl_moveElem]
    rfl
  · exact .inl rfl

include equivalence in
theorem Valid.rehash (valid : Valid hash less h) (mallocOk : Bool) :
    Valid hash less (rehash hash h mallocOk) ∧
      (rehash hash h mallocOk).buckets.flatten.Perm h.buckets.flatten ∧
      (rehash hash h mallocOk).elemCnt = h.elemCnt := by
  rcases rehash_cases h mallocOk with same | ⟨n, ⟨k, power⟩, atLeastFour, moved⟩
  · rw [same]
    exact ⟨valid, .refl _, rfl⟩
  rw [moved]
  -- every element's new bucket is one of the `n`
  have fits : ∀ e ∈ h.buckets.flatten, hash e &&& (n - 1) < (List.replicate n ([] : List α)).length := by
    intro e _
    rw [List.length_replicate, power, Nat.and_two_pow_sub_one_eq_mod]
    exact Nat.mod_lt _ (Nat.two_pow_pos k)
  have perm := flatten_pushAll _ _ _ fits
  rw [List.flatten_replicate_nil, List.append_nil] at perm
  have perm' := perm.trans (List.reverse_perm _)
  refine ⟨⟨⟨k, power⟩, atLeastFour, by simp, fun i e member => ?_, ?_,
    Representatives.Apart.perm equivalence valid.apart perm'.symm⟩, perm', rfl⟩
  · rcases mem_pushAll _ _ _ fits member with before | placed
    · simp at before
    · exact placed
  · simp only
    rw [perm'.length_eq, valid.count]

/-- `hash_init` starts from four empty buckets. -/
theorem valid_hashInit {mallocOk : Bool} (initialized : hashInit mallocOk = some h) :
    Valid hash less h ∧ h.buckets.flatten = [] := by
  unfold hashInit at initialized
  split at initialized
  · cases initialized
    have empty : (hashClear ({ elemCnt := 0, bucketCnt := 4, buckets := List.replicate 4 [] } :
        Hash α)).1.buckets.flatten = [] := by simp [hashClear]
    refine ⟨{ power := ⟨2, rfl⟩
              atLeastFour := Nat.le_refl 4
              length := by simp [hashClear]
              placed := fun i e member => nomatch empty ▸ mem_flatten_of_getD member
              count := by simp [hashClear]
              apart := by rw [Representatives.Apart, empty]; exact List.Pairwise.nil }, empty⟩
  · cases initialized

theorem valid_hashClear (valid : Valid hash less h) : Valid hash less (hashClear h).1 where
  power := valid.power
  atLeastFour := valid.atLeastFour
  length := by simp [hashClear]
  placed i e member := by simp [hashClear] at member
  count := by simp [hashClear]
  apart := by simp [hashClear, Representatives.Apart]

end Valid

/-! ## The table refines the set -/

section Refinement

variable [DecidableEq α] {hash : α → Nat} {less : α → α → Bool} {h : Hash α} {S : List α}
  (equivalence : Equivalence fun a b => equal less a b = true)
  (compatible : ∀ a b, equal less a b = true → hash a = hash b)

include equivalence compatible

/-- One call on a valid table returns what the same call on its set returns, and leaves a valid
table for the set that call leaves. -/
theorem Valid.apply (valid : Valid hash less h) (perm : h.buckets.flatten.Perm S) (op : Op α) :
    (apply hash less h op).2 = (absApply less S op).2 ∧ Valid hash less (apply hash less h op).1 ∧
      (apply hash less h op).1.buckets.flatten.Perm (absApply less S op).1 := by
  have apartS := valid.apart.perm equivalence perm
  -- the table's lookup is the set's
  have found : ∀ e, findElem less (h.buckets.getD (findBucket hash h e) []) e =
      Representatives.find (equal less) S e := fun e =>
    (valid.findElem_eq equivalence compatible e).trans
      (Representatives.find_perm equivalence valid.apart perm)
  -- the element of a class that is in the set is in the bucket of every element of its class
  have inBucket : ∀ e old, Representatives.find (equal less) S e = some old →
      old ∈ h.buckets.getD (findBucket hash h e) [] := fun e old present => by
    obtain ⟨member, same⟩ := (Representatives.find_eq_some_iff equivalence apartS).mp present
    have sameBucket : findBucket hash h old = findBucket hash h e := by
      unfold findBucket
      rw [compatible old e same]
    exact sameBucket ▸ valid.mem_bucket (perm.symm.subset member)
  -- adding an element of a class the set lacks
  have add : ∀ e, Representatives.find (equal less) S e = none →
      Valid hash less (Hash.insertElem h (findBucket hash h e) e) ∧
        (Hash.insertElem h (findBucket hash h e) e).buckets.flatten.Perm (e :: S) := fun e fresh => by
    have apart := Representatives.apart_cons equivalence valid.apart
      (by rwa [Representatives.find_perm equivalence valid.apart perm])
    obtain ⟨validI, permI⟩ := valid.insertElem equivalence e apart
    exact ⟨validI, permI.trans (perm.cons e)⟩
  cases op with
  | insert new mallocOk =>
    simp only [Hash.apply, absApply, hashInsert, Representatives.insert, found]
    rcases present : Representatives.find (equal less) S new with _ | old
    · obtain ⟨validI, permI⟩ := add new present
      obtain ⟨validR, permR, -⟩ := validI.rehash equivalence mallocOk
      exact ⟨rfl, validR, permR.trans permI⟩
    · obtain ⟨validR, permR, -⟩ := valid.rehash equivalence mallocOk
      exact ⟨rfl, validR, permR.trans perm⟩
  | replace new mallocOk =>
    simp only [Hash.apply, absApply, hashReplace, Representatives.replace, found]
    rcases present : Representatives.find (equal less) S new with _ | old
    · obtain ⟨validI, permI⟩ := add new present
      obtain ⟨validR, permR, -⟩ := validI.rehash equivalence mallocOk
      exact ⟨rfl, validR, permR.trans permI⟩
    · obtain ⟨validD, erased⟩ := valid.removeElem equivalence (inBucket new old present)
      have permD : (Hash.removeElem h (findBucket hash h new) old).buckets.flatten.Perm (S.erase old) :=
        erased ▸ perm.erase old
      -- `new` takes the place of `old` in the set
      have apartReplaced := Representatives.apart_replace equivalence apartS new
      simp only [Representatives.replace, present] at apartReplaced
      obtain ⟨validI, permI⟩ := validD.insertElem equivalence new
        (Representatives.Apart.perm equivalence apartReplaced (permD.cons new).symm)
      obtain ⟨validR, permR, -⟩ := validI.rehash equivalence mallocOk
      exact ⟨rfl, validR, permR.trans (permI.trans (permD.cons new))⟩
  | find e =>
    exact ⟨found e, valid, perm⟩
  | delete e mallocOk =>
    simp only [Hash.apply, absApply, hashDelete, Representatives.delete, found]
    rcases present : Representatives.find (equal less) S e with _ | old
    · exact ⟨rfl, valid, perm⟩
    · obtain ⟨validD, erased⟩ := valid.removeElem equivalence (inBucket e old present)
      obtain ⟨validR, permR, -⟩ := validD.rehash equivalence mallocOk
      exact ⟨rfl, validR, permR.trans (erased ▸ perm.erase old)⟩
  | clear =>
    exact ⟨rfl, valid_hashClear valid, by simp [Hash.apply, absApply, hashClear]⟩

theorem Valid.run (valid : Valid hash less h) (perm : h.buckets.flatten.Perm S) (ops : List (Op α)) :
    (run hash less h ops).2 = (absRun less S ops).2 ∧ Valid hash less (run hash less h ops).1 ∧
      (run hash less h ops).1.buckets.flatten.Perm (absRun less S ops).1 := by
  induction ops generalizing h S with
  | nil => exact ⟨rfl, valid, perm⟩
  | cons op ops inductionHypothesis =>
    obtain ⟨same, validFirst, permFirst⟩ := valid.apply equivalence compatible perm op
    obtain ⟨sameRest, validRest, permRest⟩ := inductionHypothesis validFirst permFirst
    refine ⟨?_, validRest, permRest⟩
    simp only [Hash.run, absRun, same, sameRest]

end Refinement

/-! ## Iteration -/

section Iteration

variable {h : Hash α}

/-- The elements still to visit from position `elem` of `bucket`: the rest of that bucket, then
the later buckets. -/
def remaining (h : Hash α) (bucket elem : Nat) : List α :=
  (h.buckets.getD bucket []).drop elem ++ (h.buckets.drop (bucket + 1)).flatten

theorem remaining_of_lt {bucket elem : Nat} (within : elem < (h.buckets.getD bucket []).length) :
    remaining h bucket elem = (h.buckets.getD bucket [])[elem] :: remaining h bucket (elem + 1) := by
  simp only [remaining, List.drop_eq_getElem_cons within, List.cons_append]

theorem remaining_end (lengthEq : h.buckets.length = h.bucketCnt) {bucket elem : Nat}
    (atEnd : elem = (h.buckets.getD bucket []).length) (more : bucket + 1 < h.bucketCnt) :
    remaining h bucket elem = remaining h (bucket + 1) 0 := by
  have inside : bucket + 1 < h.buckets.length := lengthEq ▸ more
  rw [remaining, remaining, atEnd, List.drop_length, List.nil_append, List.drop_zero,
    List.drop_eq_getElem_cons inside, List.flatten_cons, List.getD_eq_getElem _ _ inside]

theorem nextLoop_eq_none (lengthEq : h.buckets.length = h.bucketCnt) {bucket elem : Nat}
    (ended : nextLoop h bucket elem = none) : remaining h bucket elem = [] := by
  fun_induction nextLoop h bucket elem with
  | case1 bucket more inductionHypothesis =>
    rw [remaining_end lengthEq rfl more]
    exact inductionHypothesis ended
  | case2 bucket last =>
    -- past the last bucket nothing is left
    rw [remaining, List.drop_length, List.drop_eq_nil_of_le (by omega), List.flatten_nil]
    rfl
  | case3 => cases ended

theorem nextLoop_eq_some (lengthEq : h.buckets.length = h.bucketCnt) {bucket elem b p : Nat}
    (inside : bucket < h.bucketCnt) (within : elem ≤ (h.buckets.getD bucket []).length)
    (found : nextLoop h bucket elem = some (b, p)) :
    b < h.bucketCnt ∧ p < (h.buckets.getD b []).length ∧ remaining h bucket elem = remaining h b p := by
  fun_induction nextLoop h bucket elem with
  | case1 bucket more inductionHypothesis =>
    obtain ⟨insideB, withinP, same⟩ := inductionHypothesis more (Nat.zero_le _) found
    exact ⟨insideB, withinP, (remaining_end lengthEq rfl more).trans same⟩
  | case2 => cases found
  | case3 bucket elem notEnd =>
    cases found
    exact ⟨inside, by omega, rfl⟩

/-- With enough fuel, the elements `hash_next` returns from a position are those still to
visit from it. -/
theorem iterate_eq_remaining (lengthEq : h.buckets.length = h.bucketCnt) (fuel : Nat)
    (i : HashIterator) (inside : i.bucket < h.bucketCnt)
    (within : i.start ≤ (h.buckets.getD i.bucket []).length)
    (enough : (remaining h i.bucket i.start).length < fuel) :
    iterate h fuel i = remaining h i.bucket i.start := by
  induction fuel generalizing i with
  | zero => cases enough
  | succ fuel inductionHypothesis =>
    cases found : nextLoop h i.bucket i.start with
    | none =>
      simp only [iterate, hashNext, found, nextLoop_eq_none lengthEq found]
      rfl
    | some position =>
      obtain ⟨b, p⟩ := position
      obtain ⟨insideB, withinP, same⟩ := nextLoop_eq_some lengthEq inside within found
      rw [same, remaining_of_lt withinP] at enough ⊢
      simp only [iterate, hashNext, found, Option.bind_eq_bind, Option.bind_some,
        List.getElem?_eq_getElem withinP, Option.pure_def]
      congr 1
      exact inductionHypothesis { bucket := b, elem := some p } insideB withinP
        (Nat.lt_of_succ_lt_succ enough)

/-- A full iteration from `hash_first` visits the elements of all buckets, in order. -/
theorem Valid.iterate_hashFirst {hash : α → Nat} {less : α → α → Bool} (valid : Valid hash less h) :
    iterate h (hashSize h + 1) (hashFirst h) = h.buckets.flatten := by
  have nonempty : 0 < h.buckets.length := by
    rw [valid.length]
    exact Nat.lt_of_lt_of_le (by decide) valid.atLeastFour
  have whole : remaining h 0 0 = h.buckets.flatten := by
    obtain ⟨first, rest, split⟩ := List.exists_cons_of_length_pos nonempty
    simp [remaining, split]
  rw [← whole]
  refine iterate_eq_remaining valid.length _ _ (valid.length ▸ nonempty) (Nat.zero_le _) ?_
  rw [hashFirst, HashIterator.start, whole, hashSize, valid.count]
  exact Nat.lt_succ_self _

end Iteration

/-- Sixteen insertions, which make `rehash` double the four buckets, then a find, a replace and
the deletion of an absent element. -/
def growingRun : List (Op Nat) :=
  (List.range 16).map (fun n => .insert n true) ++ [.find 9, .replace 3 true, .delete 20 true]

/-- From `hash_init`, whatever calls are made, with each allocation of `rehash` succeeding or not,
the table answers as the set of representatives does, keeps every element in the bucket its hash
picks among a power of two of at least four, counts the set, and a walk from `hash_first` with
`hash_next` visits each element of the set once. -/
theorem hash_set_refinement [DecidableEq α] {hash : α → Nat} {less : α → α → Bool}
    (order : IsStrictWeakOrder α fun a b => less a b = true)
    (compatible : ∀ a b, less a b = false → less b a = false → hash a = hash b)
    {mallocOk : Bool} {h₀ h : Hash α} (initialized : hashInit mallocOk = some h₀) (ops : List (Op α))
    {results expected : List (Option α)} {S : List α}
    (ran : run hash less h₀ ops = (h, results)) (absRan : absRun less [] ops = (S, expected)) :
    results = expected ∧ Valid hash less h ∧ h.buckets.flatten.Perm S ∧ hashSize h = S.length ∧
      (iterate h (hashSize h + 1) (hashFirst h)).Perm S ∧
      (iterate h (hashSize h + 1) (hashFirst h)).Nodup := by
  have equivalence := equivalence_equal less order
  have sameHash : ∀ a b, equal less a b = true → hash a = hash b := fun a b same => by
    simp only [equal, Bool.and_eq_true, Bool.not_eq_true'] at same
    exact compatible a b same.1 same.2
  obtain ⟨valid₀, empty⟩ := valid_hashInit initialized
  obtain ⟨same, valid, perm⟩ :=
    valid₀.run equivalence sameHash (by rw [empty]) ops
  rw [ran, absRan] at same perm
  rw [ran] at valid
  have visited := valid.iterate_hashFirst
  refine ⟨same, valid, perm, ?_, visited ▸ perm, visited ▸ valid.apart.nodup equivalence⟩
  rw [hashSize, valid.count, perm.length_eq]

theorem hash_set_refinement_sample :
    IsStrictWeakOrder ℕ (fun a b => decide (a < b) = true) ∧
    ∃ h₀ h results S expected,
      hashInit true = some h₀ ∧
      run (fun n => n) (fun a b => decide (a < b)) h₀ growingRun = (h, results) ∧
      h.bucketCnt = 8 ∧
      absRun (fun a b => decide (a < b)) [] growingRun = (S, expected) ∧
      results = expected ∧ Valid (fun n => n) (fun a b => decide (a < b)) h ∧
      h.buckets.flatten.Perm S ∧ hashSize h = S.length ∧
      (iterate h (hashSize h + 1) (hashFirst h)).Perm S ∧
      (iterate h (hashSize h + 1) (hashFirst h)).Nodup := by
  have order : IsStrictWeakOrder ℕ fun a b => decide (a < b) = true :=
    { irrefl := fun a => by simp
      trans := fun a b c => by simp only [decide_eq_true_eq]; omega
      incomp_trans := fun a b c => by simp only [decide_eq_true_eq]; omega }
  have compatible : ∀ a b : ℕ, decide (a < b) = false → decide (b < a) = false → a = b :=
    fun a b below above => by simp only [decide_eq_false_iff_not] at below above; omega
  exact ⟨order, _, _, _, _, _, rfl, rfl, by decide +kernel, rfl,
    hash_set_refinement order compatible (show hashInit true = some _ from rfl) growingRun rfl rfl⟩

end Hash

end Pintos
