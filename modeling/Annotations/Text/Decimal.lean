import Mathlib

/-! Decimal numerals, as `printf` writes them. A fraction is written with a fixed number of places, and
what is written is the nearest number that has so many. -/

namespace Annotations.Text

/-- The nearest integer, and the even one when two are as near. -/
def roundHalfEven (x : ℚ) : ℤ :=
  let part := x - ⌊x⌋
  if part < 1 / 2 then ⌊x⌋ else if 1 / 2 < part ∨ ⌊x⌋ % 2 = 1 then ⌊x⌋ + 1 else ⌊x⌋

theorem roundHalfEven_mono : Monotone roundHalfEven := by
  intro x y hxy
  have hfloor : ⌊x⌋ ≤ ⌊y⌋ := Int.floor_mono hxy
  unfold roundHalfEven
  dsimp only
  rcases hfloor.lt_or_eq with hlt | heq
  · split_ifs <;> omega
  · rw [heq]
    split_ifs with hx hy hy' hx' hy hy'
    · exact le_rfl
    · omega
    · exact le_rfl
    · exact absurd (show x - ⌊y⌋ < 1 / 2 by linarith) hx
    · exact le_rfl
    · -- `y` is no further from the floor than `x` was
      rw [not_or, not_lt] at hy'
      exact absurd (hx'.resolve_right hy'.2) (not_lt.mpr (by linarith [hy'.1]))
    · exact absurd (show x - ⌊y⌋ < 1 / 2 by linarith) hx
    · omega
    · exact le_rfl

@[simp] theorem roundHalfEven_intCast (n : ℤ) : roundHalfEven n = n := by
  unfold roundHalfEven
  simp

/-- The nearest number with some decimal places. -/
def toPlaces (places : ℕ) (x : ℚ) : ℚ := roundHalfEven (x * 10 ^ places) / 10 ^ places

/-! ### Numerals -/

variable {places n : ℕ}

/-- `%d`. -/
def printInt : ℤ → List Char
  | .ofNat n => Nat.toDigits 10 n
  | .negSucc n => '-' :: Nat.toDigits 10 (n + 1)

/-- The last digits of a number. -/
def lastDigits : ℕ → ℕ → List Char
  | 0, _ => []
  | places + 1, n => lastDigits places (n / 10) ++ [Nat.digitChar (n % 10)]

/-- `%.6f` for six places, of a number that is not negative. -/
def printFixed (places : ℕ) (x : ℚ) : List Char :=
  let n := (roundHalfEven (x * 10 ^ places)).toNat
  Nat.toDigits 10 (n / 10 ^ places) ++ '.' :: lastDigits places n

@[simp] theorem length_lastDigits (places n : ℕ) : (lastDigits places n).length = places := by
  induction places generalizing n with
  | zero => rfl
  | succ places ih => simp [lastDigits, ih]

theorem isDigit_of_mem_lastDigits {c : Char} (h : c ∈ lastDigits places n) : c.isDigit := by
  induction places generalizing n with
  | zero => cases h
  | succ places ih =>
    rcases List.mem_append.mp h with h | h
    · exact ih h
    · obtain rfl := List.mem_singleton.mp h
      rw [Nat.isDigit_digitChar]
      simpa using Nat.mod_lt n (by decide)

theorem notMem_printInt {c : Char} {n : ℤ} (hdigit : c.isDigit = false) (hminus : c ≠ '-') : c ∉ printInt n := by
  have hdigits : ∀ n, c ∉ Nat.toDigits 10 n := fun n h => by
    have hc := Nat.isDigit_of_mem_toDigits (by decide) (by decide) h
    rw [hdigit] at hc
    cases hc
  cases n with
  | ofNat n => exact hdigits n
  | negSucc n => exact List.not_mem_cons_of_ne_of_not_mem hminus (hdigits _)

theorem notMem_printFixed {c : Char} {x : ℚ} (hdigit : c.isDigit = false) (hpoint : c ≠ '.') :
    c ∉ printFixed places x := by
  have hno : ¬ c.isDigit := by simp [hdigit]
  unfold printFixed
  dsimp only
  rw [List.mem_append, List.mem_cons, not_or, not_or]
  exact ⟨fun h => hno (Nat.isDigit_of_mem_toDigits (by decide) (by decide) h), hpoint,
    fun h => hno (isDigit_of_mem_lastDigits h)⟩

/-- The digits before the point and those after it make up the number. -/
theorem ofDigitChars_lastDigits (init : ℕ) :
    Nat.ofDigitChars 10 (lastDigits places n) init = 10 ^ places * init + n % 10 ^ places := by
  induction places generalizing n with
  | zero => simp [lastDigits, Nat.mod_one]
  | succ places ih =>
    rw [lastDigits, Nat.ofDigitChars_append, ih, Nat.ofDigitChars_cons_digitChar_of_lt_ten (Nat.mod_lt _ (by decide)),
      Nat.ofDigitChars_nil, pow_succ', Nat.mod_mul]
    ring

theorem ofDigitChars_digits (places n : ℕ) :
    Nat.ofDigitChars 10 (Nat.toDigits 10 (n / 10 ^ places) ++ lastDigits places n) 0 = n := by
  rw [Nat.ofDigitChars_append, Nat.ofDigitChars_ten_toDigits, ofDigitChars_lastDigits, Nat.div_add_mod]

end Annotations.Text
