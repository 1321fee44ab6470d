import Annotations.Motion.Recovery
import Annotations.Motion.Summation

/-! The sum of squares of a shift is an integer that a double holds, so that the loops add
without rounding and the error is rounded once, by the division. -/

namespace Annotations.Motion

variable {w h : ℕ}

theorem abs_difference_le (prev cur : Grey8 w h) (sx sy : ℤ) (p : ℕ × ℕ) : |difference prev cur sx sy p| ≤ 255 := by
  have hprev := (prev.read (p.2 * w + p.1)).toNat_lt
  have hcur := (cur.read ((p.2 + sy) * w + (p.1 + sx))).toNat_lt
  unfold difference
  rw [abs_le]
  omega

/-- The squares of the differences at a list of pixels. -/
def squares (f : ℕ × ℕ → ℤ) (pixels : List (ℕ × ℕ)) : ℤ := (pixels.map fun p => f p * f p).sum

theorem squares_nonneg (f : ℕ × ℕ → ℤ) (pixels : List (ℕ × ℕ)) : 0 ≤ squares f pixels := by
  refine List.sum_nonneg ?_
  intro x hx
  obtain ⟨p, _, rfl⟩ := List.mem_map.mp hx
  exact mul_self_nonneg (f p)

theorem squares_le {f : ℕ × ℕ → ℤ} (hf : ∀ p, |f p| ≤ 255) (pixels : List (ℕ × ℕ)) :
    squares f pixels ≤ 65025 * pixels.length := by
  induction pixels with
  | nil => simp [squares]
  | cons p rest ih =>
    have hsquare : f p * f p ≤ 255 * 255 := abs_le_iff_mul_self_le.mp (by simpa using hf p)
    have hcons : squares f (p :: rest) = f p * f p + squares f rest := rfl
    rw [hcons, List.length_cons]
    push_cast
    omega

variable (fl : DoubleRounding)

/-- The loops add from left to right, and count. -/
theorem foldl_add_eq_eval (f : ℕ × ℕ → ℤ) (pixels : List (ℕ × ℕ)) :
    pixels.foldl (fun acc p => acc.add fl (f p)) ⟨0, 0⟩ =
      (⟨(Summation.leftToRight pixels).eval fl fun p => ((f p * f p : ℤ) : ℚ), pixels.length⟩ : Ssd) := by
  induction pixels using List.reverseRecOn with
  | nil => rfl
  | append_singleton pixels p ih =>
    rw [List.foldl_concat, ih, Summation.leftToRight_concat, List.length_append, List.length_singleton]
    simp only [Ssd.add, Summation.eval, Int.cast_mul, Nat.cast_add, Nat.cast_one]

/-- As long as the sum of the squares stays below `2 ^ 53`, adding them is exact in any order. -/
theorem eval_squares {f : ℕ × ℕ → ℤ} (hf : ∀ p, |f p| ≤ 255) (order : Summation (ℕ × ℕ))
    (hbound : 65025 * (order.terms.length : ℤ) ≤ 2 ^ 53) :
    order.eval fl (fun p => ((f p * f p : ℤ) : ℚ)) = (squares f order.terms : ℤ) :=
  Summation.eval_eq fl (fun p => mul_self_nonneg (f p)) order ((squares_le hf order.terms).trans hbound)

/-- The loops leave the sum of the squares. -/
theorem foldl_add_exact {f : ℕ × ℕ → ℤ} (hf : ∀ p, |f p| ≤ 255) (pixels : List (ℕ × ℕ))
    (hbound : 65025 * (pixels.length : ℤ) ≤ 2 ^ 53) :
    pixels.foldl (fun acc p => acc.add fl (f p)) ⟨0, 0⟩ = (⟨(squares f pixels : ℤ), pixels.length⟩ : Ssd) := by
  have hterms := Summation.terms_leftToRight pixels
  rw [foldl_add_eq_eval, eval_squares fl hf _ (by rwa [hterms]), hterms]

/-- The error of a shift of the search is a mean of squares, rounded once. -/
theorem ssdShift_eq_mean (hw : 8 < w) (hw' : w ≤ 4096) (hh : 8 < h) (hh' : h ≤ 4096) (prev cur : Grey8 w h) {sx sy : ℤ}
    (hsx : |sx| ≤ searchRadius w h) (hsy : |sy| ≤ searchRadius w h) :
    ssdShift fl prev cur sx sy =
      fl.round ((squares (difference prev cur sx sy) (overlap w h sx sy) : ℚ) / (overlap w h sx sy).length) := by
  have hpos := List.length_pos_of_ne_nil (overlap_ne_nil hw hh hsx hsy)
  have hle := length_overlap_le hw' hh' sx sy
  have hfold := foldl_add_exact fl (abs_difference_le prev cur sx sy) (overlap w h sx sy) (by omega)
  unfold ssdShift
  rw [foldl_row, hfold]
  dsimp only
  rw [if_neg (by omega), Int.cast_natCast]

end Annotations.Motion
