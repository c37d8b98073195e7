import Mathlib.Data.List.Induction
import Glove.Lib.History
import Glove.TestMode
import Glove.Theorems.EditDistance

/-! The scores of the test. A word is scored against the larger of its expected length and its distance, so an
    accuracy is a ratio of two totals in order; it is undefined for an empty word that is expected to be
    empty, and then only. -/

namespace Glove.FakeKb
open Edit Past

/-! ### A score -/

theorem accuracy_range {wrong len : Nat} {q : ℚ} (hle : wrong ≤ len) (h : accuracy wrong len = some q) :
    0 ≤ q ∧ q ≤ 1 := by
  unfold accuracy at h
  split at h
  · cases h
  · rename_i hlen
    have hratio : (0 : ℚ) ≤ wrong / len := div_nonneg (Nat.cast_nonneg wrong) (Nat.cast_nonneg len)
    have hone : (wrong : ℚ) / len ≤ 1 := div_le_one_of_le₀ (Nat.cast_le.mpr hle) (Nat.cast_nonneg len)
    rw [← Option.some.inj h, abs_of_nonneg hratio]
    exact ⟨sub_nonneg.mpr hone, sub_le_self 1 hratio⟩

theorem accuracy_isSome {wrong len : Nat} : (accuracy wrong len).isSome ↔ len ≠ 0 := by
  unfold accuracy
  split <;> simp_all

/-- Only an empty word that is expected to be empty counts against no length. -/
theorem charLen_eq_zero {ideal actual : List Char} :
    max ideal.length (distance ideal actual) = 0 ↔ ideal = [] ∧ actual = [] := by
  rw [Nat.max_eq_zero_iff, List.length_eq_zero_iff, distance_eq_zero_iff]
  constructor
  · rintro ⟨rfl, rfl⟩
    exact ⟨rfl, rfl⟩
  · rintro ⟨rfl, rfl⟩
    exact ⟨rfl, rfl⟩

/-- The numbers of a score, with the totals before it. -/
structure IsScore (totalWrong totalLen : Nat) (s : Scored) : Prop where
  wrong : (editDistDP s.ideal s.actual).map (·.1) = some s.wrong
  charLen : s.charLen = max s.ideal.length s.wrong
  accuracy : accuracy s.wrong s.charLen = some s.accuracy
  overall : FakeKb.accuracy (totalWrong + s.wrong) (totalLen + s.charLen) = some s.overall

/-- The state with a character more in the buffer. -/
def TestMode.withChar (t : TestMode) (c : Char) : TestMode :=
  { t with item := [c], buffer := t.buffer ++ [c], received := t.received ++ [c] }

/-- The state after a score. -/
def TestMode.withScore (t : TestMode) (s : Scored) : TestMode :=
  { t with
    buffer := [], wrong := s.wrong, charLen := s.charLen, totalWrong := t.totalWrong + s.wrong,
    totalLen := t.totalLen + s.charLen, done := true, asked := t.asked + 1, scored := t.scored ++ [s] }

section Steps
variable {spell : List Char → List Char} {answers : Nat → List Char} {t u : TestMode} {c : Char}

theorem takeWhile_of_not_mem {word : List Char} (h : ' ' ∉ word) : (word ++ [' ']).takeWhile (· ≠ ' ') = word := by
  rw [List.takeWhile_append_of_pos]
  · simp
  · intro c hc
    simpa using fun heq : c = ' ' => h (heq ▸ hc)

/-- A word in the buffer is scored unless it is empty and expected to be empty. -/
theorem score_cases (spell : List Char → List Char) (t : TestMode) (ideal : List Char) {word : List Char}
    (hword : ' ' ∉ word) (hbuffer : t.buffer = word ++ [' ']) :
    (ideal = [] ∧ word = []) ∧ t.score false spell ideal = none ∨
      ¬(ideal = [] ∧ word = []) ∧ ∃ s, s.ideal = ideal ∧ s.actual = word ∧ IsScore t.totalWrong t.totalLen s ∧
        t.score false spell ideal = some (t.withScore s) := by
  obtain ⟨table, hdist, -⟩ := editDistDP_eq ideal word
  have hscore : t.score false spell ideal =
      (accuracy (distance ideal word) (max ideal.length (distance ideal word))).bind fun wordAccuracy =>
        (accuracy (t.totalWrong + distance ideal word)
            (t.totalLen + max ideal.length (distance ideal word))).bind fun overall =>
          some (t.withScore ⟨ideal, word, distance ideal word, max ideal.length (distance ideal word), wordAccuracy,
            overall⟩) := by
    unfold TestMode.score
    rw [hbuffer, takeWhile_of_not_mem hword, show correct false spell word = word from rfl]
    dsimp only
    rw [hdist]
    rfl
  by_cases hempty : ideal = [] ∧ word = []
  · refine Or.inl ⟨hempty, ?_⟩
    rw [hscore, charLen_eq_zero.mpr hempty]
    rfl
  · have hlen : max ideal.length (distance ideal word) ≠ 0 := mt charLen_eq_zero.mp hempty
    obtain ⟨wordAccuracy, haccuracy⟩ := Option.isSome_iff_exists.mp (accuracy_isSome.mpr hlen)
    have htotal : t.totalLen + max ideal.length (distance ideal word) ≠ 0 :=
      Nat.ne_of_gt (Nat.add_pos_right t.totalLen (Nat.pos_of_ne_zero hlen))
    have hsome : (accuracy (t.totalWrong + distance ideal word)
      (t.totalLen + max ideal.length (distance ideal word))).isSome := accuracy_isSome.mpr htotal
    obtain ⟨overall, hoverall⟩ := Option.isSome_iff_exists.mp hsome
    refine Or.inr ⟨hempty,
      ⟨ideal, word, distance ideal word, max ideal.length (distance ideal word), wordAccuracy, overall⟩, rfl, rfl,
      ⟨by simp [hdist], rfl, haccuracy, hoverall⟩, ?_⟩
    rw [hscore, haccuracy, Option.bind_some, hoverall, Option.bind_some]

theorem runReader_other (h : ' ' ∉ t.buffer) (hc : c ≠ ' ') :
    t.runReader false spell answers c = some (t.withChar c) := by
  have hnot : ' ' ∉ t.buffer ++ [c] := by simp [h, Ne.symm hc]
  simp only [TestMode.runReader, if_neg hnot, TestMode.withChar]

theorem runReader_space :
    t.runReader false spell answers ' ' = (t.withChar ' ').score false spell (answers t.asked) := by
  have hmem : ' ' ∈ t.buffer ++ [' '] := by simp
  simp only [TestMode.runReader, if_pos hmem, TestMode.withChar]

/-- A pass that goes through: the buffer grows, or its word is scored against the next expected word. -/
theorem runReader_eq_some (h : ' ' ∉ t.buffer) (hu : t.runReader false spell answers c = some u) :
    c ≠ ' ' ∧ u = t.withChar c ∨
      c = ' ' ∧ ∃ s, s.ideal = answers t.asked ∧ s.actual = t.buffer ∧ IsScore t.totalWrong t.totalLen s ∧
        u = (t.withChar ' ').withScore s := by
  by_cases hc : c = ' '
  · refine Or.inr ⟨hc, ?_⟩
    rw [hc, runReader_space] at hu
    rcases score_cases spell (t.withChar ' ') (answers t.asked) h rfl with
      ⟨-, hnone⟩ | ⟨-, s, hideal, hactual, hscore, hsome⟩
    · rw [hnone] at hu
      cases hu
    · rw [hsome] at hu
      exact ⟨s, hideal, hactual, hscore, (Option.some.inj hu).symm⟩
  · rw [runReader_other h hc] at hu
    exact Or.inl ⟨hc, (Option.some.inj hu).symm⟩

/-- A pass fails exactly when the space of an empty word comes and the expected word is empty. -/
theorem runReader_isSome (h : ' ' ∉ t.buffer) :
    (t.runReader false spell answers c).isSome ↔ (c = ' ' → t.buffer = [] → answers t.asked ≠ []) := by
  by_cases hc : c = ' '
  · rw [hc, runReader_space]
    rcases score_cases spell (t.withChar ' ') (answers t.asked) h rfl with
      ⟨⟨hideal, hword⟩, hnone⟩ | ⟨hne, s, -, -, -, hsome⟩
    · rw [hnone]
      simp [hideal, hword]
    · rw [hsome]
      simpa using fun hword hideal => hne ⟨hideal, hword⟩
  · rw [runReader_other h hc]
    simp [hc]

end Steps

/-! ### What the scores add up to -/

/-- The words scored are the characters received, cut at each space, against the expected words in order; the totals are
    the sums of the scores, and every accuracy is between 0 and 1. -/
structure WellScored (answers : Nat → List Char) (t : TestMode) : Prop where
  segments : t.received = (t.scored.flatMap fun s => s.actual ++ [' ']) ++ t.buffer
  spaceless : ∀ s ∈ t.scored, ' ' ∉ s.actual
  buffer : ' ' ∉ t.buffer
  asked : t.asked = t.scored.length
  ideals : t.scored.map (·.ideal) = (List.range t.scored.length).map answers
  scores : ∀ pre s post, t.scored = pre ++ s :: post → IsScore (pre.map (·.wrong)).sum (pre.map (·.charLen)).sum s
  totalWrong : t.totalWrong = (t.scored.map (·.wrong)).sum
  totalLen : t.totalLen = (t.scored.map (·.charLen)).sum
  totals : t.totalWrong ≤ t.totalLen
  inRange : ∀ s ∈ t.scored, (0 ≤ s.accuracy ∧ s.accuracy ≤ 1) ∧ 0 ≤ s.overall ∧ s.overall ≤ 1

/-- The expected words are read one a space, and the buffer is empty at the start and after a space. -/
structure Spaced (t : TestMode) : Prop where
  asked : t.asked = t.received.count ' '
  buffer : t.buffer = [] ↔ t.received = [] ∨ t.received.getLast? = some ' '

theorem IsScore.wrong_le {totalWrong totalLen : Nat} {s : Scored} (h : IsScore totalWrong totalLen s) :
    s.wrong ≤ s.charLen := by
  rw [h.charLen]
  exact Nat.le_max_right _ _

section Runs
variable {spell : List Char → List Char} {answers : Nat → List Char} {t u : TestMode} {c : Char}

theorem init_wellScored (answers : Nat → List Char) : WellScored answers TestMode.init := by
  refine ⟨rfl, fun s hs => absurd hs List.not_mem_nil, List.not_mem_nil, rfl, rfl, fun pre s post heq => ?_, rfl, rfl,
    Nat.le_refl 0, fun s hs => absurd hs List.not_mem_nil⟩
  exact absurd (heq ▸ List.mem_append_right pre List.mem_cons_self) List.not_mem_nil

theorem WellScored.withChar (h : WellScored answers t) (hc : c ≠ ' ') : WellScored answers (t.withChar c) := by
  refine { h with segments := ?_, buffer := ?_ }
  · show t.received ++ [c] = (t.scored.flatMap fun s => s.actual ++ [' ']) ++ (t.buffer ++ [c])
    rw [h.segments, List.append_assoc]
  · show ' ' ∉ t.buffer ++ [c]
    simp [h.buffer, Ne.symm hc]

theorem WellScored.withScore {s : Scored} (h : WellScored answers t) (hideal : s.ideal = answers t.asked)
    (hactual : s.actual = t.buffer) (hs : IsScore t.totalWrong t.totalLen s) :
    WellScored answers ((t.withChar ' ').withScore s) := by
  have hle := hs.wrong_le
  have htotals : t.totalWrong + s.wrong ≤ t.totalLen + s.charLen := Nat.add_le_add h.totals hle
  refine ⟨?_, fun s' hs' => ?_, List.not_mem_nil, ?_, ?_, fun pre s' post heq => ?_, ?_, ?_, htotals, fun s' hs' => ?_⟩
  · show t.received ++ [' '] = ((t.scored ++ [s]).flatMap fun s => s.actual ++ [' ']) ++ []
    simp [h.segments, hactual]
  · rcases List.mem_append.mp hs' with hs' | hs'
    · exact h.spaceless s' hs'
    · rw [List.mem_singleton.mp hs', hactual]
      exact h.buffer
  · show t.asked + 1 = (t.scored ++ [s]).length
    simp [h.asked]
  · show (t.scored ++ [s]).map (·.ideal) = (List.range (t.scored ++ [s]).length).map answers
    simp [h.ideals, hideal, h.asked, List.range_succ]
  · have hscored : t.scored ++ [s] = pre ++ s' :: post := heq
    rcases concat_eq_split hscored with ⟨rfl, rfl, rfl⟩ | ⟨post', rfl, hbefore⟩
    · rw [← h.totalWrong, ← h.totalLen]
      exact hs
    · exact h.scores pre s' post' hbefore
  · show t.totalWrong + s.wrong = ((t.scored ++ [s]).map (·.wrong)).sum
    simp [h.totalWrong]
  · show t.totalLen + s.charLen = ((t.scored ++ [s]).map (·.charLen)).sum
    simp [h.totalLen]
  · rcases List.mem_append.mp hs' with hs' | hs'
    · exact h.inRange s' hs'
    · rw [List.mem_singleton.mp hs']
      exact ⟨accuracy_range hle hs.accuracy, accuracy_range htotals hs.overall⟩

theorem step_wellScored (h : WellScored answers t) (hu : (testMode false spell answers).step t c = some u) :
    WellScored answers u := by
  rcases runReader_eq_some h.buffer hu with ⟨hc, rfl⟩ | ⟨rfl, s, hideal, hactual, hscore, rfl⟩
  · exact h.withChar hc
  · exact h.withScore hideal hactual hscore

theorem step_spaced (h : Spaced t) (hbuffer : ' ' ∉ t.buffer) (hu : (testMode false spell answers).step t c = some u) :
    Spaced u := by
  rcases runReader_eq_some hbuffer hu with ⟨hc, rfl⟩ | ⟨rfl, s, -, -, -, rfl⟩
  · exact ⟨by simp [TestMode.withChar, h.asked, hc], by simp [TestMode.withChar, hc]⟩
  · exact ⟨by simp [TestMode.withChar, TestMode.withScore, h.asked], by simp [TestMode.withChar, TestMode.withScore]⟩

/-- What a run knows of the characters it read. -/
structure Reads (answers : Nat → List Char) (cs : List Char) (t : TestMode) : Prop where
  received : t.received = cs
  wellScored : WellScored answers t
  spaced : Spaced t

theorem step_received (hbuffer : ' ' ∉ t.buffer) (hu : (testMode false spell answers).step t c = some u) :
    u.received = t.received ++ [c] := by
  rcases runReader_eq_some hbuffer hu with ⟨-, rfl⟩ | ⟨rfl, s, -, -, -, rfl⟩ <;> rfl

theorem run_reads (cs : List Char) (h : (testMode false spell answers).run TestMode.init cs = some t) :
    Reads answers cs t := by
  induction cs using List.reverseRecOn generalizing t with
  | nil =>
    cases h
    exact ⟨rfl, init_wellScored answers, by decide, by decide⟩
  | append_singleton cs c ih =>
    rw [Lts.run_concat] at h
    obtain ⟨u, hrun, hstep⟩ := Option.bind_eq_some_iff.mp h
    have hu := ih hrun
    have hbuffer := hu.wellScored.buffer
    exact ⟨by rw [step_received hbuffer hstep, hu.received], step_wellScored hu.wellScored hstep,
      step_spaced hu.spaced hbuffer hstep⟩

/-- No empty word is expected where an empty word is received, that is where a space comes first or after a space. -/
def Expected (answers : Nat → List Char) (cs : List Char) : Prop :=
  ∀ pre post, cs = pre ++ ' ' :: post → pre = [] ∨ pre.getLast? = some ' ' → answers (pre.count ' ') ≠ []

theorem expected_concat {cs : List Char} : Expected answers (cs ++ [c]) ↔
    Expected answers cs ∧ (c = ' ' → cs = [] ∨ cs.getLast? = some ' ' → answers (cs.count ' ') ≠ []) := by
  constructor
  · intro h
    refine ⟨fun pre post heq => h pre (post ++ [c]) (by simp [heq]), ?_⟩
    rintro rfl
    exact h cs [] rfl
  · rintro ⟨h, hlast⟩ pre post heq
    rcases concat_eq_split heq with ⟨rfl, rfl, rfl⟩ | ⟨post', rfl, hcs⟩
    · exact hlast rfl
    · exact h pre post' hcs

/-- A run goes through exactly when no empty word is scored against an empty word. -/
theorem run_isSome_iff (spell : List Char → List Char) (answers : Nat → List Char) (cs : List Char) :
    ((testMode false spell answers).run TestMode.init cs).isSome ↔ Expected answers cs := by
  induction cs using List.reverseRecOn with
  | nil =>
    refine ⟨fun _ pre post heq => ?_, fun _ => rfl⟩
    cases pre <;> cases heq
  | append_singleton cs c ih =>
    rw [Lts.run_concat, expected_concat, ← ih]
    cases hrun : (testMode false spell answers).run TestMode.init cs with
    | none => simp
    | some t =>
      have ht := run_reads cs hrun
      rw [Option.bind_some, ← ht.received, ← ht.spaced.asked, ← ht.spaced.buffer]
      have hstep : ((testMode false spell answers).step t c).isSome ↔
          (c = ' ' → t.buffer = [] → answers t.asked ≠ []) := runReader_isSome ht.wellScored.buffer
      exact hstep.trans (by simp)

/-- For every sequence of characters and of expected words, the test goes through with every score right exactly when
    no empty word is scored against an empty word. -/
theorem testMode_wellScored_iff (spell : List Char → List Char) (answers : Nat → List Char) (cs : List Char) :
    (∃ t, (testMode false spell answers).run TestMode.init cs = some t ∧ t.received = cs ∧ WellScored answers t) ↔
      Expected answers cs := by
  rw [← run_isSome_iff spell answers cs, Option.isSome_iff_exists]
  constructor
  · rintro ⟨t, hrun, -⟩
    exact ⟨t, hrun⟩
  · rintro ⟨t, hrun⟩
    have ht := run_reads cs hrun
    exact ⟨t, hrun, ht.received, ht.wellScored⟩

/-- A space, where the user expects nothing. -/
theorem testMode_divides_by_zero : ¬∀ (spell : List Char → List Char) (answers : Nat → List Char) (cs : List Char),
    ∃ t, (testMode false spell answers).run TestMode.init cs = some t ∧ t.received = cs ∧ WellScored answers t := by
  intro h
  obtain ⟨t, hrun, -⟩ := h id (fun _ => []) [' ']
  have hnone : (testMode false id fun _ => []).run TestMode.init [' '] = none := by decide
  rw [hnone] at hrun
  cases hrun

end Runs

end Glove.FakeKb
