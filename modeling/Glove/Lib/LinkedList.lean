import Mathlib.Data.List.Basic
import Mathlib.Logic.Function.Basic

/-! # Linked lists

Lists whose cells lie in a heap and hold the links to their neighbours. `Chain` follows the links forwards to the end;
`Linked` says of a segment that both links of each cell are right. The rules say which writes of links push, pop,
insert and unlink a cell; a segment does not see a write to a cell outside it. -/

/-- A cell with its value and the cells before and after it. -/
structure Cell (ι α : Type) where
  value : α
  prev : Option ι
  next : Option ι
  deriving DecidableEq

/-- A heap of cells. -/
structure Cells (ι α : Type) where
  cell : ι → Cell ι α

namespace Cells
variable {ι α : Type}

instance : CoeFun (Cells ι α) fun _ => ι → Cell ι α := ⟨cell⟩

/-! ## Writes -/

section Writes
variable [DecidableEq ι]

def setValue (h : Cells ι α) (i : ι) (a : α) : Cells ι α := ⟨Function.update h.cell i { h i with value := a }⟩

def setPrev (h : Cells ι α) (i : ι) (p : Option ι) : Cells ι α := ⟨Function.update h.cell i { h i with prev := p }⟩

def setNext (h : Cells ι α) (i : ι) (q : Option ι) : Cells ι α := ⟨Function.update h.cell i { h i with next := q }⟩

variable (h : Cells ι α) (i j : ι) (a : α) (p : Option ι)

@[simp, grind =] theorem setValue_value : (h.setValue i a j).value = if j = i then a else (h j).value := by
  by_cases hij : j = i <;> simp [setValue, Function.update, hij]

@[simp, grind =] theorem setValue_prev : (h.setValue i a j).prev = (h j).prev := by
  by_cases hij : j = i <;> simp [setValue, Function.update, hij]

@[simp, grind =] theorem setValue_next : (h.setValue i a j).next = (h j).next := by
  by_cases hij : j = i <;> simp [setValue, Function.update, hij]

@[simp, grind =] theorem setPrev_value : (h.setPrev i p j).value = (h j).value := by
  by_cases hij : j = i <;> simp [setPrev, Function.update, hij]

@[simp, grind =] theorem setPrev_prev : (h.setPrev i p j).prev = if j = i then p else (h j).prev := by
  by_cases hij : j = i <;> simp [setPrev, Function.update, hij]

@[simp, grind =] theorem setPrev_next : (h.setPrev i p j).next = (h j).next := by
  by_cases hij : j = i <;> simp [setPrev, Function.update, hij]

@[simp, grind =] theorem setNext_value : (h.setNext i p j).value = (h j).value := by
  by_cases hij : j = i <;> simp [setNext, Function.update, hij]

@[simp, grind =] theorem setNext_prev : (h.setNext i p j).prev = (h j).prev := by
  by_cases hij : j = i <;> simp [setNext, Function.update, hij]

@[simp, grind =] theorem setNext_next : (h.setNext i p j).next = if j = i then p else (h j).next := by
  by_cases hij : j = i <;> simp [setNext, Function.update, hij]

end Writes

/-! ## Chains -/

/-- The loop that follows the links until it meets a value to stop at or the end. It has no result if it is still going
    after `n` cells. -/
def seek (h : Cells ι α) (stop : α → Bool) : Nat → Option ι → Option (Option ι)
  | _, none => some none
  | 0, some _ => none
  | n + 1, some i => if stop (h i).value then some (some i) else seek h stop n (h i).next

/-- The links lead from each cell of `is` to the one after it, and from the last one to the end. -/
def Chain (h : Cells ι α) : List ι → Prop
  | [] => True
  | i :: is => (h i).next = is.head? ∧ Chain h is

instance decidableChain [DecidableEq ι] (h : Cells ι α) : ∀ is, Decidable (h.Chain is)
  | [] => isTrue trivial
  | _ :: is =>
    have := decidableChain h is
    inferInstanceAs (Decidable (_ ∧ _))

section Chain
variable {h k : Cells ι α} {i : ι} {is : List ι}

theorem Chain.congr (heq : ∀ j ∈ is, (k j).next = (h j).next) (hc : h.Chain is) : k.Chain is := by
  induction is with
  | nil => trivial
  | cons j js ih =>
    refine ⟨(heq j List.mem_cons_self).trans hc.1, ih (fun l hl => heq l (List.mem_cons_of_mem _ hl)) hc.2⟩

/-- The loop ends at the first cell to stop at. -/
theorem Chain.seek_eq {stop : α → Bool} {n : Nat} (hc : h.Chain is) (hn : is.length ≤ n) :
    h.seek stop n is.head? = some (is.find? fun i => stop (h i).value) := by
  induction is generalizing n with
  | nil => cases n <;> rfl
  | cons j js ih =>
    obtain ⟨n, rfl⟩ := Nat.exists_eq_succ_of_ne_zero (Nat.ne_of_gt (Nat.lt_of_lt_of_le (Nat.succ_pos _) hn))
    rw [List.head?_cons, seek, List.find?_cons]
    cases stop (h j).value with
    | true => rfl
    | false =>
      rw [hc.1]
      exact ih hc.2 (Nat.le_of_succ_le_succ hn)

end Chain

/-! ## Segments -/

/-- Both links of each cell of `is` are right, where `p` stands before the segment and `q` after it. -/
def Linked (h : Cells ι α) : Option ι → List ι → Option ι → Prop
  | _, [], _ => True
  | p, i :: is, q => (h i).prev = p ∧ (h i).next = is.head?.or q ∧ Linked h (some i) is q

section Linked
variable {h k : Cells ι α} {p q : Option ι} {c x y : ι} {is xs zs : List ι}

theorem Linked.congr (heq : ∀ j ∈ is, (k j).prev = (h j).prev ∧ (k j).next = (h j).next) (hl : h.Linked p is q) :
    k.Linked p is q := by
  induction is generalizing p with
  | nil => trivial
  | cons j js ih =>
    obtain ⟨hprev, hnext⟩ := heq j List.mem_cons_self
    exact ⟨hprev.trans hl.1, hnext.trans hl.2.1, ih (fun l hl => heq l (List.mem_cons_of_mem _ hl)) hl.2.2⟩

theorem linked_append : h.Linked p (xs ++ zs) q ↔ h.Linked p xs (zs.head?.or q) ∧ h.Linked (xs.getLast?.or p) zs q := by
  induction xs generalizing p with
  | nil => simp [Linked]
  | cons j js ih =>
    have hlast : (j :: js).getLast?.or p = js.getLast?.or (some j) := by
      rw [List.getLast?_cons]
      cases js.getLast? <;> rfl
    rw [List.cons_append, Linked, ih, Linked, hlast, List.head?_append, Option.or_assoc]
    tauto

theorem Linked.chain (hl : h.Linked p is none) : h.Chain is := by
  induction is generalizing p with
  | nil => trivial
  | cons j js ih => exact ⟨by simpa using hl.2.1, ih hl.2.2⟩

/-- A cell in the midst of a segment, with its neighbours. -/
theorem linked_middle : h.Linked p (xs ++ x :: y :: zs) q ↔
    h.Linked p xs (some x) ∧ (h x).prev = xs.getLast?.or p ∧ (h x).next = some y ∧ (h y).prev = some x ∧
      (h y).next = zs.head?.or q ∧ h.Linked (some y) zs q := by
  simp [linked_append, Linked]

section Rules
variable [DecidableEq ι]

/-- Pushing `c` in front of `x`. -/
theorem Linked.push (hl : h.Linked none (x :: zs) q) (hx : x ∉ zs) (hc : c ∉ x :: zs)
    (heq : k = ((h.setNext c (some x)).setPrev c none).setPrev x (some c)) : k.Linked none (c :: x :: zs) q := by
  obtain ⟨-, hnext, hrest⟩ := hl
  obtain ⟨hcx, hcz⟩ := not_or.mp (List.mem_cons.not.mp hc)
  subst heq
  refine ⟨by simp [hcx], by simp, by simp, by simp [Ne.symm hcx, hnext], hrest.congr fun j hj => ?_⟩
  have hjx : j ≠ x := fun h => hx (h ▸ hj)
  have hjc : j ≠ c := fun h => hcz (h ▸ hj)
  simp [hjx, hjc]

/-- Popping the cell in front of `y`. -/
theorem Linked.pop (hl : h.Linked p (x :: y :: zs) q) (hy : y ∉ zs) : (h.setPrev y none).Linked none (y :: zs) q := by
  obtain ⟨-, -, -, hnext, hrest⟩ := hl
  refine ⟨by simp, by simp [hnext], hrest.congr fun j hj => ?_⟩
  have hjy : j ≠ y := fun h => hy (h ▸ hj)
  simp [hjy]

/-- Inserting `c` between `x` and `y`. -/
theorem Linked.insert (hl : h.Linked p (xs ++ x :: y :: zs) q) (hnodup : (xs ++ x :: y :: zs).Nodup)
    (hc : c ∉ xs ++ x :: y :: zs)
    (heq : k = (((h.setPrev c (some x)).setNext c (some y)).setNext x (some c)).setPrev y (some c)) :
    k.Linked p (xs ++ x :: c :: y :: zs) q := by
  obtain ⟨hxs, hxp, -, -, hyn, hzs⟩ := linked_middle.mp hl
  subst heq
  refine linked_middle.mpr ⟨hxs.congr fun j hj => ?_, ?_, by grind, by grind, by grind, by grind, by grind,
    hzs.congr fun j hj => ?_⟩
  · grind
  · grind
  · grind

/-- Unlinking the cell between `x` and `y`. -/
theorem Linked.unlink (hl : h.Linked p (xs ++ x :: c :: y :: zs) q) (hnodup : (xs ++ x :: c :: y :: zs).Nodup) :
    ((h.setNext x (some y)).setPrev y (some x)).Linked p (xs ++ x :: y :: zs) q := by
  obtain ⟨hxs, hxp, -, -, -, -, hyn, hzs⟩ := linked_middle.mp hl
  refine linked_middle.mpr ⟨hxs.congr fun j hj => ?_, ?_, ?_, ?_, ?_, hzs.congr fun j hj => ?_⟩
  all_goals grind

/-- Unlinking the last cell. -/
theorem Linked.unlink_last (hl : h.Linked p (xs ++ [x, c]) none) (hnodup : (xs ++ [x, c]).Nodup) :
    (h.setNext x none).Linked p (xs ++ [x]) none := by
  obtain ⟨hxs, hxp, -⟩ := linked_middle.mp hl
  refine linked_append.mpr ⟨hxs.congr fun j hj => ?_, ?_, ?_, trivial⟩
  all_goals grind

end Rules

end Linked

end Cells
