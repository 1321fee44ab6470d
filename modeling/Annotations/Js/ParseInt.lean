import Mathlib

/-! `parseInt` with base ten, of a string and as an index: it reads the numerals that numbers print
as, and stops at whatever else follows. -/

namespace Annotations.Js

/-- White space and ends of lines. -/
def isStrWhiteSpace (c : Char) : Bool :=
  c.val ∈ [0x9, 0xa, 0xb, 0xc, 0xd, 0x20, 0xa0, 0x1680, 0x2028, 0x2029, 0x202f, 0x205f, 0x3000, 0xfeff] ||
    0x2000 ≤ c.val && c.val ≤ 0x200a

/-- The digits at the start of a string, if any. -/
def leadingNumeral (chars : List Char) : Option ℕ :=
  let digits := chars.takeWhile Char.isDigit
  if digits.isEmpty then none else some (Nat.ofDigitChars 10 digits 0)

/-- `parseInt(s, 10)`, and `none` for `NaN`. -/
def parseInt (chars : List Char) : Option ℤ :=
  match chars.dropWhile isStrWhiteSpace with
  | '-' :: chars => (leadingNumeral chars).map fun n => -(n : ℤ)
  | '+' :: chars => (leadingNumeral chars).map (↑)
  | chars => (leadingNumeral chars).map (↑)

/-- `array[i]` for what `parseInt` returns. -/
def itemAt {α : Type} (items : List α) : Option ℤ → Option α
  | some (.ofNat n) => items[n]?
  | _ => none

theorem isStrWhiteSpace_of_isDigit {c : Char} (h : c.isDigit) : isStrWhiteSpace c = false := by
  simp only [Char.isDigit, Bool.and_eq_true, decide_eq_true_eq] at h
  obtain ⟨hlow, hhigh⟩ := h
  rw [ge_iff_le, UInt32.le_iff_toNat_le] at hlow
  rw [UInt32.le_iff_toNat_le] at hhigh
  simp only [isStrWhiteSpace, List.mem_cons, List.not_mem_nil, or_false, Bool.or_eq_false_iff, decide_eq_false_iff_not,
    Bool.and_eq_false_iff, UInt32.le_iff_toNat_le, ← UInt32.toNat_inj]
  simp at hlow hhigh ⊢
  omega

variable {n : ℕ} {rest : List Char}

/-- A numeral is read up to its end. -/
theorem leadingNumeral_toDigits (hrest : ∀ c ∈ rest.head?, c.isDigit = false) :
    leadingNumeral (Nat.toDigits 10 n ++ rest) = some n := by
  have hdigits : ∀ c ∈ Nat.toDigits 10 n, c.isDigit := fun c => Nat.isDigit_of_mem_toDigits (by decide) (by decide)
  have htake : (Nat.toDigits 10 n ++ rest).takeWhile Char.isDigit = Nat.toDigits 10 n := by
    rw [List.takeWhile_append_of_pos hdigits]
    cases rest with
    | nil => rw [List.takeWhile_nil, List.append_nil]
    | cons c rest => rw [List.takeWhile_cons_of_neg (by simp [hrest c rfl]), List.append_nil]
  unfold leadingNumeral
  rw [htake]
  simp

/-- `parseInt` reads what numbers print as. -/
theorem parseInt_toDigits (hrest : ∀ c ∈ rest.head?, c.isDigit = false) :
    parseInt (Nat.toDigits 10 n ++ rest) = some (n : ℤ) := by
  obtain ⟨c, digits, hdigits⟩ := List.exists_cons_of_ne_nil (Nat.toDigits_ne_nil (n := n) (b := 10))
  have hc : c.isDigit := Nat.isDigit_of_mem_toDigits (b := 10) (n := n) (by decide) (by decide) (by simp [hdigits])
  have hdrop : (Nat.toDigits 10 n ++ rest).dropWhile isStrWhiteSpace = Nat.toDigits 10 n ++ rest := by
    rw [hdigits, List.cons_append, List.dropWhile_cons_of_neg (by simp [isStrWhiteSpace_of_isDigit hc])]
  have hnumeral := leadingNumeral_toDigits (n := n) hrest
  unfold parseInt
  rw [hdrop]
  rw [hdigits, List.cons_append] at hnumeral ⊢
  split
  next hminus =>
    obtain ⟨rfl, -⟩ := List.cons.inj hminus
    exact absurd hc (by decide)
  next hplus =>
    obtain ⟨rfl, -⟩ := List.cons.inj hplus
    exact absurd hc (by decide)
  · rw [hnumeral]
    rfl

end Annotations.Js
