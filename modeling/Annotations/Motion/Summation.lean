import Annotations.Motion.Rounding
import Mathlib

/-! Sums of integers in doubles, in any order. As long as the terms are not negative and their sum
fits the digits of a double, every partial sum does, and no addition rounds. -/

namespace Annotations

/-- An order to add terms in: the way the partial sums are nested. -/
inductive Summation (α : Type*) where
  | zero
  | term (a : α)
  | plus (l r : Summation α)

namespace Summation

variable {α : Type*}

/-- The terms, from left to right. -/
def terms : Summation α → List α
  | zero => []
  | term a => [a]
  | plus l r => l.terms ++ r.terms

/-- The sum of the values of the terms, with every value and every addition rounded. -/
def eval (fl : DoubleRounding) (value : α → ℚ) : Summation α → ℚ
  | zero => 0
  | term a => fl.round (value a)
  | plus l r => fl.round (l.eval fl value + r.eval fl value)

/-- The order of a loop that adds to one variable. -/
def leftToRight (l : List α) : Summation α := l.foldl (fun sum a => sum.plus (.term a)) zero

theorem leftToRight_concat (l : List α) (a : α) : leftToRight (l ++ [a]) = (leftToRight l).plus (.term a) :=
  List.foldl_concat ..

theorem terms_leftToRight (l : List α) : (leftToRight l).terms = l := by
  induction l using List.reverseRecOn with
  | nil => rfl
  | append_singleton l a ih =>
    rw [leftToRight_concat, terms, ih]
    rfl

variable (fl : DoubleRounding) {value : α → ℤ}

theorem sum_terms_nonneg (hvalue : ∀ a, 0 ≤ value a) (order : Summation α) : 0 ≤ (order.terms.map value).sum := by
  refine List.sum_nonneg fun x hx => ?_
  obtain ⟨a, _, rfl⟩ := List.mem_map.mp hx
  exact hvalue a

/-- Nothing is rounded. -/
theorem eval_eq (hvalue : ∀ a, 0 ≤ value a) (order : Summation α) (hbound : (order.terms.map value).sum ≤ 2 ^ 53) :
    order.eval fl (fun a => (value a : ℚ)) = ((order.terms.map value).sum : ℤ) := by
  induction order with
  | zero => simp [eval, terms]
  | term a =>
    have hone : ((terms (.term a)).map value).sum = value a := by simp [terms]
    rw [hone] at hbound ⊢
    exact fl.round_intCast _ (by rwa [abs_of_nonneg (hvalue a)])
  | plus l r ihl ihr =>
    have hl := sum_terms_nonneg hvalue l
    have hr := sum_terms_nonneg hvalue r
    rw [terms, List.map_append, List.sum_append] at hbound ⊢
    rw [eval, ihl (by omega), ihr (by omega), ← Int.cast_add]
    exact fl.round_intCast _ (by rw [abs_of_nonneg (by omega)]; exact hbound)

end Summation

end Annotations
