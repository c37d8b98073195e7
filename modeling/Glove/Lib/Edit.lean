import Mathlib.Data.List.Basic
import Mathlib.Order.Bounds.Basic
import Mathlib.Order.MinMax

/-! # Edit sequences

Insertions, deletions and replacements of one element, at any position and in any order, and the least
number of them that turns one list into another. The distance is computed by recursion on the first
elements. It takes equal first elements without comparing that with the other moves; one edit changes the
distance to every list by at most one, so no sequence of edits is shorter. -/

namespace Edit
variable {α : Type}

/-- One element is inserted, deleted or replaced. -/
inductive Step : List α → List α → Prop
  | insert (pre post : List α) (a : α) : Step (pre ++ post) (pre ++ a :: post)
  | delete (pre post : List α) (a : α) : Step (pre ++ a :: post) (pre ++ post)
  | replace (pre post : List α) (a b : α) : Step (pre ++ a :: post) (pre ++ b :: post)

/-- A sequence of `n` edits. -/
inductive Steps : Nat → List α → List α → Prop
  | refl (xs : List α) : Steps 0 xs xs
  | cons {n : Nat} {xs ys zs : List α} (h : Step xs ys) (hs : Steps n ys zs) : Steps (n + 1) xs zs

/-! ### Sequences -/

theorem Step.cons {xs ys : List α} (a : α) (h : Step xs ys) : Step (a :: xs) (a :: ys) := by
  cases h with
  | insert pre post b => exact .insert (a :: pre) post b
  | delete pre post b => exact .delete (a :: pre) post b
  | replace pre post b c => exact .replace (a :: pre) post b c

theorem Step.reverse {xs ys : List α} (h : Step xs ys) : Step xs.reverse ys.reverse := by
  cases h with
  | insert pre post a => simpa using Step.insert post.reverse pre.reverse a
  | delete pre post a => simpa using Step.delete post.reverse pre.reverse a
  | replace pre post a b => simpa using Step.replace post.reverse pre.reverse a b

theorem Steps.map {f : List α → List α} (hf : ∀ {xs ys}, Step xs ys → Step (f xs) (f ys)) {n : Nat}
    {xs ys : List α} (h : Steps n xs ys) : Steps n (f xs) (f ys) := by
  induction h with
  | refl xs => exact .refl (f xs)
  | cons hstep _ ih => exact .cons (hf hstep) ih

theorem steps_insert : ∀ ys : List α, Steps ys.length [] ys
  | [] => .refl []
  | y :: ys => .cons (.insert [] [] y) ((steps_insert ys).map (Step.cons y))

theorem steps_delete : ∀ xs : List α, Steps xs.length xs []
  | [] => .refl []
  | x :: xs => .cons (.delete [] xs x) (steps_delete xs)

/-! ### The distance -/

variable [DecidableEq α]

def distance : List α → List α → Nat
  | [], ys => ys.length
  | x :: xs, [] => xs.length + 1
  | x :: xs, y :: ys =>
    if x = y then distance xs ys
    else 1 + min (min (distance (x :: xs) ys) (distance xs (y :: ys))) (distance xs ys)

@[simp] theorem distance_nil_left (ys : List α) : distance [] ys = ys.length := by simp [distance]

@[simp] theorem distance_nil_right (xs : List α) : distance xs [] = xs.length := by cases xs <;> simp [distance]

theorem distance_cons_same (x : α) (xs ys : List α) : distance (x :: xs) (x :: ys) = distance xs ys := by
  simp [distance]

theorem distance_cons_ne {x y : α} (h : x ≠ y) (xs ys : List α) :
    distance (x :: xs) (y :: ys) =
      1 + min (min (distance (x :: xs) ys) (distance xs (y :: ys))) (distance xs ys) := by
  simp [distance, h]

@[simp] theorem distance_self (xs : List α) : distance xs xs = 0 := by
  induction xs with
  | nil => simp
  | cons x xs ih => rw [distance_cons_same, ih]

theorem distance_comm (xs ys : List α) : distance xs ys = distance ys xs := by
  induction xs generalizing ys with
  | nil => simp
  | cons x xs ihx =>
    induction ys with
    | nil => simp
    | cons y ys ihy =>
      by_cases h : x = y
      · rw [h, distance_cons_same, distance_cons_same, ihx]
      · rw [distance_cons_ne h, distance_cons_ne (Ne.symm h), ihy, ihx, ihx ys, Nat.min_comm (distance ys (x :: xs))]

/-- One element more on the left adds at most one, and one on the right takes at most one away. Where first
    elements are equal each of the two rests on the other for shorter lists. -/
theorem distance_cons_bounds (xs ys : List α) :
    (∀ x, distance (x :: xs) ys ≤ distance xs ys + 1) ∧ ∀ y, distance xs ys ≤ distance xs (y :: ys) + 1 := by
  induction xs generalizing ys with
  | nil =>
    refine ⟨fun x => ?_, fun y => by simp; omega⟩
    induction ys with
    | nil => simp
    | cons y ys _ =>
      by_cases h : x = y
      · rw [h, distance_cons_same]
        simp
        omega
      · rw [distance_cons_ne h]
        omega
  | cons x' xs ihx =>
    have hright : ∀ ys y, distance (x' :: xs) ys ≤ distance (x' :: xs) (y :: ys) + 1 := by
      intro ys y
      have hadd := (ihx ys).1 x'
      have htake := (ihx ys).2 y
      by_cases h : x' = y
      · rw [h, distance_cons_same, ← h]
        exact hadd
      · rw [distance_cons_ne h]
        omega
    refine ⟨fun x => ?_, hright ys⟩
    cases ys with
    | nil => simp
    | cons y ys =>
      by_cases h : x = y
      · rw [h, distance_cons_same]
        exact hright ys y
      · rw [distance_cons_ne h]
        omega

theorem distance_cons_left_le (x : α) (xs ys : List α) : distance (x :: xs) ys ≤ distance xs ys + 1 :=
  (distance_cons_bounds xs ys).1 x

theorem distance_le_cons_left (x : α) (xs ys : List α) : distance xs ys ≤ distance (x :: xs) ys + 1 := by
  rw [distance_comm xs, distance_comm (x :: xs)]
  exact (distance_cons_bounds ys xs).2 x

theorem distance_cons_right_le (y : α) (xs ys : List α) : distance xs (y :: ys) ≤ distance xs ys + 1 := by
  rw [distance_comm xs, distance_comm xs]
  exact distance_cons_left_le y ys xs

theorem distance_cons_cons_le (x y : α) (xs ys : List α) : distance (x :: xs) (y :: ys) ≤ distance xs ys + 1 := by
  by_cases h : x = y
  · rw [h, distance_cons_same]
    omega
  · rw [distance_cons_ne h]
    omega

/-- A bound on the distances from two lists is one with a first element to each. -/
theorem distance_cons_mono {a b : α} {xs ys : List α} (h : ∀ zs, distance xs zs ≤ distance ys zs + 1)
    (hsame : ∀ zs, distance (a :: xs) (b :: zs) ≤ distance ys zs + 1) (zs : List α) :
    distance (a :: xs) zs ≤ distance (b :: ys) zs + 1 := by
  induction zs with
  | nil => simpa using h []
  | cons c zs ih =>
    by_cases hbc : b = c
    · rw [hbc, distance_cons_same, ← hbc]
      exact hsame zs
    · have hinsert := distance_cons_right_le c (a :: xs) zs
      have hdelete := distance_cons_left_le a xs (c :: zs)
      have hreplace := distance_cons_cons_le a c xs zs
      have hrest := h (c :: zs)
      have hrests := h zs
      rw [distance_cons_ne hbc]
      omega

/-- One edit brings a list nearer to another by at most one. -/
theorem Step.distance_le {xs ys : List α} (h : Step xs ys) (zs : List α) : distance xs zs ≤ distance ys zs + 1 := by
  have hpre : ∀ {xs ys : List α} (pre : List α), (∀ zs, distance xs zs ≤ distance ys zs + 1) →
      ∀ zs, distance (pre ++ xs) zs ≤ distance (pre ++ ys) zs + 1 := by
    intro xs ys pre h
    induction pre with
    | nil => exact h
    | cons a pre ih =>
      refine distance_cons_mono ih fun zs => ?_
      rw [distance_cons_same]
      exact ih zs
  cases h with
  | insert pre post a => exact hpre pre (fun zs => distance_le_cons_left a post zs) zs
  | delete pre post a => exact hpre pre (fun zs => distance_cons_left_le a post zs) zs
  | replace pre post a b =>
    refine hpre pre (distance_cons_mono (fun zs => by omega) fun zs => ?_) zs
    exact distance_cons_cons_le a b post zs

theorem Steps.distance_le {n : Nat} {xs ys : List α} (h : Steps n xs ys) : distance xs ys ≤ n := by
  induction h with
  | refl xs => simp
  | cons hstep _ ih =>
    have := hstep.distance_le
    exact (this _).trans (Nat.succ_le_succ ih)

theorem steps_distance (xs ys : List α) : Steps (distance xs ys) xs ys := by
  induction xs generalizing ys with
  | nil =>
    rw [distance_nil_left]
    exact steps_insert ys
  | cons x xs ihx =>
    induction ys with
    | nil =>
      rw [distance_nil_right]
      exact steps_delete (x :: xs)
    | cons y ys ihy =>
      by_cases h : x = y
      · rw [h, distance_cons_same]
        exact (ihx ys).map (Step.cons y)
      · have hinsert : Steps (distance (x :: xs) ys + 1) (x :: xs) (y :: ys) :=
          .cons (.insert [] (x :: xs) y) (ihy.map (Step.cons y))
        have hdelete : Steps (distance xs (y :: ys) + 1) (x :: xs) (y :: ys) :=
          .cons (.delete [] xs x) (ihx (y :: ys))
        have hreplace : Steps (distance xs ys + 1) (x :: xs) (y :: ys) :=
          .cons (.replace [] xs x y) ((ihx ys).map (Step.cons y))
        rw [distance_cons_ne h, Nat.add_comm]
        rcases min_choice (min (distance (x :: xs) ys) (distance xs (y :: ys))) (distance xs ys) with hmin | hmin
        · rw [hmin]
          rcases min_choice (distance (x :: xs) ys) (distance xs (y :: ys)) with hmin | hmin
          · rwa [hmin]
          · rwa [hmin]
        · rwa [hmin]

/-- Some sequence of edits has the distance as its length, and none is shorter. -/
theorem distance_isLeast (xs ys : List α) : IsLeast {n | Steps n xs ys} (distance xs ys) :=
  ⟨steps_distance xs ys, fun _ h => Steps.distance_le h⟩

/-! ### By the last elements -/

theorem distance_reverse (xs ys : List α) : distance xs.reverse ys.reverse = distance xs ys := by
  have hle : ∀ xs ys : List α, distance xs.reverse ys.reverse ≤ distance xs ys := fun xs ys =>
    ((steps_distance xs ys).map Step.reverse).distance_le
  refine Nat.le_antisymm (hle xs ys) ?_
  simpa using hle xs.reverse ys.reverse

theorem distance_concat_same (x : α) (xs ys : List α) : distance (xs ++ [x]) (ys ++ [x]) = distance xs ys := by
  rw [← distance_reverse, List.reverse_concat, List.reverse_concat, distance_cons_same, distance_reverse]

theorem distance_concat_ne {x y : α} (h : x ≠ y) (xs ys : List α) :
    distance (xs ++ [x]) (ys ++ [y]) =
      1 + min (min (distance (xs ++ [x]) ys) (distance xs (ys ++ [y]))) (distance xs ys) := by
  rw [← distance_reverse, List.reverse_concat, List.reverse_concat, distance_cons_ne h, ← List.reverse_concat,
    ← List.reverse_concat, distance_reverse, distance_reverse, distance_reverse]

/-! ### Bounds -/

theorem distance_eq_zero_iff (xs ys : List α) : distance xs ys = 0 ↔ xs = ys := by
  constructor
  · intro h
    have hsteps := steps_distance xs ys
    rw [h] at hsteps
    cases hsteps
    rfl
  · rintro rfl
    exact distance_self xs

end Edit
