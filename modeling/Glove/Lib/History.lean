import Mathlib.Data.List.Basic

/-! # Lists that grow at their end

A stream cut into disjoint blocks of `n` elements, counted from 1: the elements since the last multiple of `n`
are the block at a position. A position is a boundary when the block it would close is full.

A history, one element at a time: `Since P Q` says that some element meets `P` and all after it meet `Q`. -/

namespace Block
variable {α : Type} {n : Nat} {c : Nat → α}

/-- The elements since the last multiple of `n`. -/
def block (n : Nat) (c : Nat → α) (t : Nat) : List α := (List.range (t % n)).map fun i => c (t - t % n + 1 + i)

@[simp] theorem length_block (t : Nat) : (block n c t).length = t % n := by simp [block]

@[simp] theorem block_zero : block n c 0 = [] := by simp [block]

theorem block_of_dvd {t : Nat} (h : n ∣ t) : block n c t = [] := by simp [block, Nat.mod_eq_zero_of_dvd h]

theorem succ_mod_of_lt {t : Nat} (h : t % n + 1 < n) : (t + 1) % n = t % n + 1 := by
  rw [Nat.add_mod, Nat.mod_eq_of_lt (Nat.lt_of_le_of_lt (Nat.le_add_left 1 _) h), Nat.mod_eq_of_lt h]

theorem dvd_succ_iff (hn : 0 < n) {t : Nat} : n ∣ t + 1 ↔ t % n + 1 = n := by
  have hlt := Nat.mod_lt t hn
  constructor
  · intro hdvd
    by_contra hne
    have hmod := succ_mod_of_lt (show t % n + 1 < n by omega)
    rw [Nat.mod_eq_zero_of_dvd hdvd] at hmod
    omega
  · intro heq
    rw [← Nat.div_add_mod t n, Nat.add_assoc, heq]
    exact ⟨t / n + 1, by rw [Nat.mul_add, Nat.mul_one]⟩

/-- Below a boundary the block grows by the next element. -/
theorem block_succ {t : Nat} (h : t % n + 1 < n) : block n c (t + 1) = block n c t ++ [c (t + 1)] := by
  have hle := Nat.mod_le t n
  unfold block
  rw [succ_mod_of_lt h, List.range_succ, List.map_append, List.map_singleton]
  have hstart : t + 1 - (t % n + 1) = t - t % n := by omega
  have hlast : t - t % n + 1 + t % n = t + 1 := by omega
  rw [hstart, hlast]

/-- The block that closes at a boundary is constant exactly when the last `n` elements are. -/
theorem block_constant_iff {t : Nat} (h : t % n + 1 = n) {r : α} :
    ((∀ x ∈ block n c t, x = c (t + 1)) ∧ c (t + 1) = r) ↔ ∀ i, t + 1 - n < i → i ≤ t + 1 → c i = r := by
  have hle := Nat.mod_le t n
  simp only [block, List.mem_map, List.mem_range, forall_exists_index, and_imp, forall_apply_eq_imp_iff₂]
  constructor
  · rintro ⟨hall, rfl⟩ i hlo hhi
    rcases Nat.lt_or_ge i (t + 1) with hi | hi
    · have := hall (i - (t - t % n + 1)) (by omega)
      rwa [show t - t % n + 1 + (i - (t - t % n + 1)) = i by omega] at this
    · rw [show i = t + 1 by omega]
  · intro hall
    have hlast : c (t + 1) = r := hall (t + 1) (by omega) (Nat.le_refl _)
    exact ⟨fun i hi => (hall _ (by omega) (by omega)).trans hlast.symm, hlast⟩

/-- Any `2 n - 1` positions in a row contain all the positions of a block. -/
theorem exists_boundary (hn : 0 < n) (t : Nat) : ∃ j, n ∣ j ∧ t + n ≤ j + 1 ∧ j < t + (2 * n - 1) := by
  refine ⟨n * ((t + n - 1 + n - 1) / n), Nat.dvd_mul_right _ _, ?_, ?_⟩
  · have hmod := Nat.div_add_mod (t + n - 1 + n - 1) n
    have hlt := Nat.mod_lt (t + n - 1 + n - 1) hn
    omega
  · have hmod := Nat.div_add_mod (t + n - 1 + n - 1) n
    omega

end Block

namespace Past
variable {α : Type} {P Q : α → Prop} {xs : List α} {x : α}

/-- Where a list that grew by one element splits: at that element, or before it. -/
theorem concat_eq_split {pre post : List α} {y : α} (h : xs ++ [x] = pre ++ y :: post) :
    (pre = xs ∧ y = x ∧ post = []) ∨ ∃ post', post = post' ++ [x] ∧ xs = pre ++ y :: post' := by
  rcases List.eq_nil_or_concat post with rfl | ⟨post', z, rfl⟩
  · obtain ⟨rfl, hlast⟩ := List.append_inj' h rfl
    exact Or.inl ⟨rfl, (List.singleton_inj.mp hlast).symm, rfl⟩
  · have hsplit : xs ++ [x] = (pre ++ y :: post') ++ [z] := by simpa using h
    obtain ⟨rfl, hlast⟩ := List.append_inj' hsplit rfl
    obtain rfl := List.singleton_inj.mp hlast
    exact Or.inr ⟨post', List.concat_eq_append, rfl⟩

def Since (P Q : α → Prop) (xs : List α) : Prop := ∃ pre x post, xs = pre ++ x :: post ∧ P x ∧ ∀ y ∈ post, Q y

theorem since_concat : Since P Q (xs ++ [x]) ↔ P x ∨ (Since P Q xs ∧ Q x) := by
  constructor
  · rintro ⟨pre, y, post, heq, hy, hpost⟩
    rcases concat_eq_split heq with ⟨rfl, rfl, rfl⟩ | ⟨post', rfl, rfl⟩
    · exact Or.inl hy
    · exact Or.inr ⟨⟨pre, y, post', rfl, hy, fun z hz => hpost z (by simp [hz])⟩, hpost x (by simp)⟩
  · rintro (hx | ⟨⟨pre, y, post, rfl, hy, hpost⟩, hx⟩)
    · exact ⟨xs, x, [], rfl, hx, fun y hy => absurd hy List.not_mem_nil⟩
    · refine ⟨pre, y, post ++ [x], by simp, hy, fun z hz => ?_⟩
      rcases List.mem_append.mp hz with hz | hz
      · exact hpost z hz
      · rw [List.mem_singleton.mp hz]
        exact hx

end Past
