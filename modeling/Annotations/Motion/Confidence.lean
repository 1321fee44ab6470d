import Annotations.Motion.Matcher
import Mathlib.Tactic.Linarith
import Mathlib.Tactic.FieldSimp
import Mathlib.Tactic.Ring

/-! The confidence, in exact arithmetic. It falls with the best error on either side of the
error that counts as flat, and is divided by four below it: an exact match is then reported
with less confidence than many inexact ones. -/

namespace Annotations.Motion

/-- The best error stands out from the second. -/
def Separated (best second : ℚ) : Prop := best * 1.0000001 < second ∧ second < 10 ^ 290

instance (best second : ℚ) : Decidable (Separated best second) := inferInstanceAs (Decidable (_ ∧ _))

/-- The confidence before the penalty. -/
def separation (best second : ℚ) : ℚ := if Separated best second then 1 - best / second else 0

variable {best best' second : ℚ}

theorem Separated.second_pos (hbest : 0 ≤ best) (h : Separated best second) : 0 < second := by
  have hlt := h.1
  have hnonneg : 0 ≤ best * 1.0000001 := by positivity
  exact hnonneg.trans_lt hlt

theorem Separated.best_lt (hbest : 0 ≤ best) (h : Separated best second) : best < second := by
  have hlt := h.1
  norm_num at hlt
  linarith

theorem Separated.antitone (hle : best ≤ best') (h : Separated best' second) : Separated best second :=
  ⟨(mul_le_mul_of_nonneg_right hle (by norm_num)).trans_lt h.1, h.2⟩

theorem separation_nonneg (hbest : 0 ≤ best) : 0 ≤ separation best second := by
  unfold separation
  split_ifs with h
  · have hdiv := (div_le_one (h.second_pos hbest)).mpr (h.best_lt hbest).le
    linarith
  · exact le_rfl

theorem separation_le_one (hbest : 0 ≤ best) : separation best second ≤ 1 := by
  unfold separation
  split_ifs with h
  · have hdiv := div_nonneg hbest (h.second_pos hbest).le
    linarith
  · exact zero_le_one

/-- The clamps change nothing: the confidence is the separation, with the penalty. -/
theorem confidence_exact (hbest : 0 ≤ best) : confidence .exact best second =
    if best < 1e-6 then separation best second * 0.25 else separation best second := by
  have hlow : ¬ separation best second < 0 := not_lt.mpr (separation_nonneg hbest)
  have hhigh : ¬ 1 < separation best second := not_lt.mpr (separation_le_one hbest)
  have hclamped : confidence .exact best second =
      (let c := if separation best second < 0 then 0 else separation best second
       let c := if 1 < c then 1 else c
       if best < 1e-6 then c * 0.25 else c) := rfl
  rw [hclamped]
  simp only [if_neg hlow, if_neg hhigh]

/-- Without the penalty the confidence falls with the best error. -/
theorem separation_antitone (hbest : 0 ≤ best) (hle : best ≤ best') :
    separation best' second ≤ separation best second := by
  by_cases h : Separated best' second
  · have hpos := h.second_pos (hbest.trans hle)
    have hdiv : best / second ≤ best' / second := div_le_div_of_nonneg_right hle hpos.le
    rw [separation, if_pos h, separation, if_pos (h.antitone hle)]
    linarith
  · rw [separation, if_neg h]
    exact separation_nonneg hbest

/-- A smaller best error yields no smaller confidence, unless the penalty meets it and not the
greater one, which then is still less than three quarters of the way to the second. -/
theorem confidence_antitone_iff (hbest : 0 ≤ best) (hle : best ≤ best') :
    confidence .exact best' second ≤ confidence .exact best second ↔
      (best < 1e-6 ∧ 1e-6 ≤ best' ∧ Separated best' second → 3 * second + best ≤ 4 * best') := by
  have hmono : separation best' second ≤ separation best second := separation_antitone hbest hle
  have hnonneg : 0 ≤ separation best second := separation_nonneg hbest
  rw [confidence_exact hbest, confidence_exact (hbest.trans hle)]
  by_cases hflat' : best' < 1e-6
  · -- the penalty meets both
    rw [if_pos hflat', if_pos (hle.trans_lt hflat')]
    refine iff_of_true (mul_le_mul_of_nonneg_right hmono (by norm_num)) ?_
    rintro ⟨_, hnot, _⟩
    exact absurd hflat' (not_lt.mpr hnot)
  rw [if_neg hflat']
  by_cases hflat : best < 1e-6
  · rw [if_pos hflat]
    by_cases hsep : Separated best' second
    · have hpos := hsep.second_pos (hbest.trans hle)
      rw [separation, if_pos hsep, separation, if_pos (hsep.antitone hle)]
      have hclear : 1 - best' / second ≤ (1 - best / second) * 0.25 ↔ 3 * second + best ≤ 4 * best' := by
        have hscale : (1 - best / second) * 0.25 - (1 - best' / second) =
            (4 * best' - (3 * second + best)) / (4 * second) := by
          field_simp
          ring
        rw [← sub_nonneg, hscale, le_div_iff₀ (by positivity), zero_mul, sub_nonneg]
      rw [hclear]
      exact ⟨fun h _ => h, fun h => h ⟨hflat, not_lt.mp hflat', hsep⟩⟩
    · rw [separation, if_neg hsep]
      refine iff_of_true (mul_nonneg hnonneg (by norm_num)) ?_
      rintro ⟨_, _, h⟩
      exact absurd h hsep
  · rw [if_neg hflat]
    refine iff_of_true hmono ?_
    rintro ⟨h, _⟩
    exact absurd h hflat

theorem confidence_antitone_iff_exactMatch :
    confidence .exact 0.8 1 ≤ confidence .exact 0 1 ↔
      ((0 : ℚ) < 1e-6 ∧ (1e-6 : ℚ) ≤ 0.8 ∧ Separated 0.8 1 → 3 * (1 : ℚ) + 0 ≤ 4 * 0.8) :=
  confidence_antitone_iff le_rfl (by norm_num)

/-- An exact match has less confidence than one of half the second error. -/
theorem not_confidence_antitone_exactMatch : ¬ confidence .exact 0.5 1 ≤ confidence .exact 0 1 := by
  have hlarge : (1 : ℚ) < 10 ^ 290 := one_lt_pow₀ (by norm_num) (by norm_num)
  have hzero : Separated 0 1 := ⟨by norm_num, hlarge⟩
  have hhalf : Separated 0.5 1 := ⟨by norm_num, hlarge⟩
  have hsep : separation 0 1 = 1 - 0 / 1 := if_pos hzero
  have hsep' : separation 0.5 1 = 1 - 0.5 / 1 := if_pos hhalf
  rw [confidence_exact le_rfl, confidence_exact (by norm_num), hsep, hsep']
  norm_num

end Annotations.Motion
