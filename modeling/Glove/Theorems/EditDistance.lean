import Glove.Lib.Edit
import Glove.Lib.History
import Glove.EditDistance

/-! The table of `editDistDP`. Its cells are filled row by row, each from cells that are filled already,
    and each holds the distance of two prefixes. -/

namespace Glove.FakeKb
open Edit Past

/-! ### Accesses -/

/-- Every cell that is read was written before. -/
def ReadsWritten (accesses : List Access) : Prop :=
  ∀ pre i j post, accesses = pre ++ .read i j :: post → .write i j ∈ pre

theorem ReadsWritten.concat {accesses : List Access} {a : Access} (h : ReadsWritten accesses)
    (ha : ∀ i j, a = .read i j → .write i j ∈ accesses) : ReadsWritten (accesses ++ [a]) := by
  intro pre i j post heq
  rcases concat_eq_split heq with ⟨rfl, hlast, -⟩ | ⟨post', -, hbefore⟩
  · exact ha i j hlast.symm
  · exact h pre i j post' hbefore

theorem readCell_of_cell {t : Table} {i j d : Nat} (h : t.cell i j = some d) :
    readCell i j t = some (d, { t with accesses := t.accesses ++ [.read i j] }) := by
  simp [readCell, h]

theorem writeCell_of_isSome {t : Table} {i j : Nat} (d : Nat) (h : (t.cell i j).isSome) :
    ∃ u, writeCell i j d t = some ((), u) ∧ u.accesses = t.accesses ++ [.write i j] ∧
      ∀ i' j', u.cell i' j' = if i' = i ∧ j' = j then some d else t.cell i' j' := by
  obtain ⟨d', hd'⟩ := Option.isSome_iff_exists.mp h
  refine ⟨⟨t.dp.modify i (·.set j d), t.accesses ++ [.write i j]⟩, by simp [writeCell, hd'], rfl, fun i' j' => ?_⟩
  obtain ⟨row, hrow, hcell⟩ := Option.bind_eq_some_iff.mp hd'
  have hj : j < row.length := (List.getElem?_eq_some_iff.mp hcell).1
  simp only [Table.cell, List.getElem?_modify]
  by_cases hi : i' = i
  · rw [hi, hrow]
    by_cases hj' : j' = j
    · simp [hj', hj]
    · simp [hj', List.getElem?_set_ne (Ne.symm hj')]
  · simp [hi, Ne.symm hi]

/-! ### The loops -/

section Range
variable {σ : Type} {f : Nat → StateT σ Option PUnit} {P : Nat → σ → Prop} {n : Nat}

theorem bind_of_eq {β γ : Type} {x : StateT σ Option β} {g : β → StateT σ Option γ} {s t : σ} {b : β}
    (h : x s = some (b, t)) : (x >>= g) s = g b t := by
  show (x s).bind (fun y => g y.1 y.2) = _
  rw [h, Option.bind_some]

/-- A loop whose body may fail, from an invariant of its counter. -/
theorem forM_range (hstep : ∀ k s, k < n → P k s → ∃ t, f k s = some ((), t) ∧ P (k + 1) t) {s : σ} (hs : P 0 s) :
    ∃ t, forM (List.range n) f s = some ((), t) ∧ P n t := by
  induction n with
  | zero => exact ⟨s, rfl, hs⟩
  | succ n ih =>
    obtain ⟨t, hrun, ht⟩ := ih fun k s hk => hstep k s (Nat.lt_succ_of_lt hk)
    obtain ⟨u, hlast, hu⟩ := hstep n t (Nat.lt_succ_self n) ht
    refine ⟨u, ?_, hu⟩
    rw [List.range_succ, List.forM_append, bind_of_eq hrun, List.forM_cons, bind_of_eq hlast]
    rfl

end Range

section Fill
variable {α : Type} [DecidableEq α] {str1 str2 : List α} {i j : Nat} {t : Table}

/-- The cells before row `i`, column `j` hold the distances of their prefixes. -/
structure Filled (str1 str2 : List α) (i j : Nat) (t : Table) : Prop where
  shape : ∀ i' j', i' ≤ str1.length → j' ≤ str2.length → (t.cell i' j').isSome
  cells : ∀ i' j', i' ≤ str1.length → j' ≤ str2.length → i' < i ∨ i' = i ∧ j' < j →
    t.cell i' j' = some (distance (str1.take i') (str2.take j')) ∧ .write i' j' ∈ t.accesses
  reads : ReadsWritten t.accesses

theorem Filled.read (h : Filled str1 str2 i j t) (i' j' : Nat) (hi : i' ≤ str1.length) (hj : j' ≤ str2.length)
    (hbefore : i' < i ∨ i' = i ∧ j' < j) :
    ∃ u, readCell i' j' t = some (distance (str1.take i') (str2.take j'), u) ∧ Filled str1 str2 i j u := by
  obtain ⟨hcell, hwritten⟩ := h.cells i' j' hi hj hbefore
  refine ⟨_, readCell_of_cell hcell, h.shape, fun i'' j'' hi'' hj'' hb => ?_, h.reads.concat ?_⟩
  · obtain ⟨hcell, hwritten⟩ := h.cells i'' j'' hi'' hj'' hb
    exact ⟨hcell, List.mem_append_left _ hwritten⟩
  · rintro _ _ ⟨⟩
    exact hwritten

theorem Filled.write (h : Filled str1 str2 i j t) (hi : i ≤ str1.length) (hj : j ≤ str2.length) {d : Nat}
    (hd : d = distance (str1.take i) (str2.take j)) :
    ∃ u, writeCell i j d t = some ((), u) ∧ Filled str1 str2 i (j + 1) u := by
  obtain ⟨u, hrun, haccesses, hcells⟩ := writeCell_of_isSome d (h.shape i j hi hj)
  refine ⟨u, hrun, fun i' j' hi' hj' => ?_, fun i' j' hi' hj' hbefore => ?_, ?_⟩
  · rw [hcells]
    split
    · rfl
    · exact h.shape i' j' hi' hj'
  · rw [hcells, haccesses]
    split
    · rename_i heq
      obtain ⟨rfl, rfl⟩ := heq
      exact ⟨congrArg some hd, List.mem_append_right _ List.mem_cons_self⟩
    · obtain ⟨hcell, hwritten⟩ := h.cells i' j' hi' hj' (by omega)
      exact ⟨hcell, List.mem_append_left _ hwritten⟩
  · rw [haccesses]
    exact h.reads.concat (by simp)

/-- The body of the loops fills the next cell. -/
theorem fillCell_filled (h : Filled str1 str2 i j t) (hi : i ≤ str1.length) (hj : j ≤ str2.length) :
    ∃ u, fillCell str1 str2 i j t = some ((), u) ∧ Filled str1 str2 i (j + 1) u := by
  unfold fillCell
  cases i with
  | zero => exact h.write hi hj (by simpa using hj)
  | succ i =>
    cases j with
    | zero => exact h.write hi hj (by simpa using hi)
    | succ j =>
      have htake1 := List.take_succ_eq_append_getElem hi
      have htake2 := List.take_succ_eq_append_getElem hj
      have hchar1 : str1[i]? = some str1[i] := List.getElem?_eq_getElem hi
      have hchar2 : str2[j]? = some str2[j] := List.getElem?_eq_getElem hj
      simp only [Nat.succ_ne_zero, if_false, Nat.add_sub_cancel, hchar1, hchar2]
      rw [bind_of_eq rfl, bind_of_eq rfl]
      by_cases heq : str1[i] = str2[j]
      · have hd : distance (str1.take i) (str2.take j) = distance (str1.take (i + 1)) (str2.take (j + 1)) := by
          rw [htake1, htake2, heq, distance_concat_same]
        obtain ⟨u, hread, hu⟩ := h.read i j (by omega) (by omega) (by omega)
        rw [if_pos heq, bind_of_eq hread]
        exact hu.write hi hj hd
      · have hd : 1 + min (min (distance (str1.take (i + 1)) (str2.take j)) (distance (str1.take i) (str2.take (j + 1))))
            (distance (str1.take i) (str2.take j)) = distance (str1.take (i + 1)) (str2.take (j + 1)) := by
          rw [htake1, htake2, distance_concat_ne heq]
        obtain ⟨u, hinsert, hu⟩ := h.read (i + 1) j hi (by omega) (by omega)
        obtain ⟨v, hremove, hv⟩ := hu.read i (j + 1) (by omega) hj (by omega)
        obtain ⟨w, hreplace, hw⟩ := hv.read i j (by omega) (by omega) (by omega)
        rw [if_neg heq, bind_of_eq hinsert, bind_of_eq hremove, bind_of_eq hreplace]
        exact hw.write hi hj hd

theorem fillRow_filled (h : Filled str1 str2 i 0 t) (hi : i ≤ str1.length) :
    ∃ u, forM (List.range (str2.length + 1)) (fun j => fillCell str1 str2 i j) t = some ((), u) ∧
      Filled str1 str2 (i + 1) 0 u := by
  obtain ⟨u, hrun, hu⟩ := forM_range (P := fun j => Filled str1 str2 i j)
    (fun j s hj hs => fillCell_filled hs hi (Nat.lt_succ_iff.mp hj)) h
  refine ⟨u, hrun, hu.shape, fun i' j' hi' hj' hbefore => hu.cells i' j' hi' hj' ?_, hu.reads⟩
  omega

theorem fill_filled (h : Filled str1 str2 0 0 t) :
    ∃ u, forM (List.range (str1.length + 1)) (fun i => forM (List.range (str2.length + 1)) fun j =>
      fillCell str1 str2 i j) t = some ((), u) ∧ Filled str1 str2 (str1.length + 1) 0 u :=
  forM_range (P := fun i => Filled str1 str2 i 0) (fun _ _ hi hs => fillRow_filled hs (Nat.lt_succ_iff.mp hi)) h

theorem filled_zeros (str1 str2 : List α) :
    Filled str1 str2 0 0 ⟨List.replicate (str1.length + 1) (List.replicate (str2.length + 1) 0), []⟩ := by
  refine ⟨fun i j hi hj => ?_, fun i j _ _ hbefore => by omega, fun pre i j post heq => ?_⟩
  · have hi : i < str1.length + 1 := Nat.lt_succ_iff.mpr hi
    have hj : j < str2.length + 1 := Nat.lt_succ_iff.mpr hj
    simp [Table.cell, hi, hj]
  · cases pre <;> cases heq

/-- The table is filled without an error, and the cell that is returned holds the distance of the words. -/
theorem editDistDP_eq (str1 str2 : List α) :
    ∃ t, editDistDP str1 str2 = some (distance str1 str2, t) ∧ ReadsWritten t.accesses := by
  obtain ⟨t, hfill, ht⟩ := fill_filled (filled_zeros str1 str2)
  obtain ⟨u, hread, hu⟩ := ht.read str1.length str2.length (Nat.le_refl _) (Nat.le_refl _) (by omega)
  rw [List.take_length, List.take_length] at hread
  refine ⟨u, ?_, hu.reads⟩
  show (forM (List.range (str1.length + 1)) (fun i => forM (List.range (str2.length + 1)) fun j =>
    fillCell str1 str2 i j) >>= fun _ => readCell str1.length str2.length) _ = _
  rw [bind_of_eq hfill]
  exact hread

/-- `editDistDP` returns the least number of insertions, deletions and replacements that turn one word into the
    other, and reads no cell before it was written. -/
theorem editDistDP_levenshtein (str1 str2 : List α) :
    ∃ d t, editDistDP str1 str2 = some (d, t) ∧ IsLeast {n | Steps n str1 str2} d ∧ ReadsWritten t.accesses := by
  obtain ⟨t, hrun, hreads⟩ := editDistDP_eq str1 str2
  exact ⟨_, t, hrun, distance_isLeast str1 str2, hreads⟩

end Fill

end Glove.FakeKb
