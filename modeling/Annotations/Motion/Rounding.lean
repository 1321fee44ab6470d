import Mathlib.Algebra.Order.Ring.Rat
import Mathlib.Algebra.Order.Field.Power
import Mathlib.Data.Int.Log
import Mathlib.Data.Rat.Floor
import Mathlib.Tactic.Linarith
import Mathlib.Tactic.NormNum
import Mathlib.Tactic.Positivity

/-! Rounding to binary64, as a map of exact numbers: it is monotone and keeps every number
of the format. Each rounding mode has both properties, and so has no rounding at all. -/

namespace Annotations

structure DoubleRounding where
  round : ℚ → ℚ
  mono : Monotone round
  keeps : ∀ m e : ℤ, |m| ≤ 2 ^ 53 → -1074 ≤ e → e ≤ 971 → round (m * 2 ^ e) = m * 2 ^ e

namespace DoubleRounding

/-- Exact arithmetic. -/
def exact : DoubleRounding := ⟨id, monotone_id, fun _ _ _ _ _ => rfl⟩

@[simp] theorem round_exact (x : ℚ) : exact.round x = x := rfl

variable (fl : DoubleRounding)

theorem round_intCast (n : ℤ) (hn : |n| ≤ 2 ^ 53) : fl.round n = n := by
  have h := fl.keeps n 0 hn (by norm_num) (by norm_num)
  simpa only [zpow_zero, mul_one] using h

@[simp] theorem round_zero : fl.round 0 = 0 := by
  exact_mod_cast fl.round_intCast 0 (by norm_num)

theorem round_nonneg {x : ℚ} (hx : 0 ≤ x) : 0 ≤ fl.round x := by
  have h := fl.mono hx
  rwa [round_zero] at h

theorem round_pos {x : ℚ} (hx : 1 ≤ x) : 0 < fl.round x := by
  have hone := fl.round_intCast 1 (by norm_num)
  have hle := fl.mono hx
  rw [Int.cast_one] at hone
  rw [hone] at hle
  exact one_pos.trans_le hle

/-- In the range of the normal numbers, rounding loses less than the last of 53 bits. -/
theorem mul_le_round {x : ℚ} (hlow : (2 : ℚ) ^ (-1022 : ℤ) ≤ x) (hhigh : x < 2 ^ (1024 : ℤ)) :
    x * (1 - 2 ^ (-52 : ℤ)) ≤ fl.round x := by
  have hpos : 0 < x := lt_of_lt_of_le (by positivity) hlow
  -- `x` has 53 binary digits from `2 ^ e` upwards
  obtain ⟨e, he⟩ : ∃ e : ℤ, Int.log 2 x = e + 52 := ⟨Int.log 2 x - 52, by ring⟩
  have hbelow : (2 : ℚ) ^ (e + 52) ≤ x := he ▸ Int.zpow_log_le_self one_lt_two hpos
  have habove : x < (2 : ℚ) ^ (e + 53) := by
    have hlt := Int.lt_zpow_succ_log_self one_lt_two x
    rwa [he, add_assoc] at hlt
  have hlower : -1074 ≤ e := by
    have hlt := (zpow_lt_zpow_iff_right₀ one_lt_two).mp (hlow.trans_lt habove)
    omega
  have hupper : e ≤ 971 := by
    have hlt := (zpow_lt_zpow_iff_right₀ one_lt_two).mp (hbelow.trans_lt hhigh)
    omega
  have hunit : (0 : ℚ) < 2 ^ e := by positivity
  have hsplit : ∀ n : ℤ, (2 : ℚ) ^ (e + n) = 2 ^ n * 2 ^ e := by
    intro n
    rw [add_comm, zpow_add₀ two_ne_zero]
  have hdigits : |⌊x / 2 ^ e⌋| ≤ 2 ^ 53 := by
    have hlt : x / 2 ^ e < 2 ^ 53 := by
      rw [div_lt_iff₀ hunit]
      exact habove.trans_eq (hsplit 53)
    have hfloor : ((⌊x / 2 ^ e⌋ : ℤ) : ℚ) < 2 ^ 53 := (Int.floor_le _).trans_lt hlt
    rw [abs_of_nonneg (Int.floor_nonneg.mpr (by positivity))]
    exact_mod_cast hfloor.le
  have hkept := fl.keeps ⌊x / 2 ^ e⌋ e hdigits hlower hupper
  have hle : (⌊x / 2 ^ e⌋ : ℚ) * 2 ^ e ≤ x := (le_div_iff₀ hunit).mp (Int.floor_le _)
  have hlt : x < ⌊x / 2 ^ e⌋ * 2 ^ e + 2 ^ e := by
    rw [← add_one_mul]
    exact (div_lt_iff₀ hunit).mp (Int.lt_floor_add_one _)
  have hlast : (2 : ℚ) ^ e ≤ x * 2 ^ (-52 : ℤ) := by
    calc (2 : ℚ) ^ e = 2 ^ (e + 52) * 2 ^ (-52 : ℤ) := by rw [← zpow_add₀ two_ne_zero, add_neg_cancel_right]
      _ ≤ x * 2 ^ (-52 : ℤ) := mul_le_mul_of_nonneg_right hbelow (by positivity)
  calc x * (1 - 2 ^ (-52 : ℤ)) = x - x * 2 ^ (-52 : ℤ) := mul_one_sub x _
    _ ≤ (⌊x / 2 ^ e⌋ : ℚ) * 2 ^ e := (sub_le_sub_left hlast x).trans (sub_le_iff_le_add.mpr hlt.le)
    _ = fl.round (⌊x / 2 ^ e⌋ * 2 ^ e) := hkept.symm
    _ ≤ fl.round x := fl.mono hle

end DoubleRounding

end Annotations
