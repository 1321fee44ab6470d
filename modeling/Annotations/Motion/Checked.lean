import Annotations.Motion.Sums

/-! The matcher in the arithmetic of C, where an `int` that overflows and a read outside a buffer have
no meaning. For the dimensions and the shifts that `main` admits the loops of `ssd_shift` never come to
that, some pixels are compared, and the sum of the squares is exact whatever the order of the terms. -/

namespace Annotations.Motion

/-- A value of a 32-bit `int`. What overflows has none. -/
def int32 (n : ℤ) : Option ℤ := if -2 ^ 31 ≤ n ∧ n < 2 ^ 31 then some n else none

/-- `buf[i]`, inside the buffer. -/
def Grey8.fetch {w h : ℕ} (buf : Grey8 w h) (i : ℤ) : Option UInt8 :=
  if 0 ≤ i ∧ i < ((w * h : ℕ) : ℤ) then some (buf.read i) else none

variable (fl : DoubleRounding) {w h : ℕ}

/-- One pass of the inner loop. The count is a `long`, which has no fewer bits than an `int`. -/
def Ssd.pixelChecked (prev cur : Grey8 w h) (sx : ℤ) (y : ℕ) (yy : ℤ) (acc : Ssd) (x : ℕ) : Option Ssd := do
  let xx ← int32 (x + sx)
  if xx < 0 ∨ (w : ℤ) ≤ xx then return acc
  let row ← int32 (y * w)
  let i ← int32 (row + x)
  let rowShifted ← int32 (yy * w)
  let j ← int32 (rowShifted + xx)
  let p ← prev.fetch i
  let c ← cur.fetch j
  let d ← int32 ((p.toNat : ℤ) - (c.toNat : ℤ))
  let count ← int32 (acc.count + 1)
  return ⟨fl.round (acc.sum + fl.round ((d : ℚ) * d)), count⟩

/-- One pass of the outer loop. -/
def Ssd.rowChecked (prev cur : Grey8 w h) (sx sy : ℤ) (acc : Ssd) (y : ℕ) : Option Ssd := do
  let yy ← int32 (y + sy)
  if yy < 0 ∨ (h : ℤ) ≤ yy then return acc
  (List.range w).foldlM (Ssd.pixelChecked fl prev cur sx y yy) acc

/-- The two loops of `ssd_shift`. -/
def ssdLoopsChecked (prev cur : Grey8 w h) (sx sy : ℤ) : Option Ssd :=
  (List.range h).foldlM (Ssd.rowChecked fl prev cur sx sy) ⟨0, 0⟩

/-- `ssd_shift`. -/
def ssdShiftChecked (prev cur : Grey8 w h) (sx sy : ℤ) : Option ℚ := do
  let acc ← ssdLoopsChecked fl prev cur sx sy
  return if acc.count ≤ 0 then fl.round (10 ^ 30) else fl.round (acc.sum / acc.count)

/-! ### Loops with a budget -/

/-- A loop of checked passes does what the unchecked ones do, as long as each adds at most `k` to a size
that has the room for all of them. -/
theorem foldlM_eq_some {α β : Type} {step? : β → α → Option β} {step : β → α → β} (size : β → ℤ) {k room : ℤ}
    {l : List α} (hstep : ∀ a ∈ l, ∀ acc, 0 ≤ size acc → size acc + k ≤ room →
      step? acc a = some (step acc a) ∧ size acc ≤ size (step acc a) ∧ size (step acc a) ≤ size acc + k)
    (hk : 0 ≤ k) (acc : β) (hpos : 0 ≤ size acc) (hroom : size acc + k * l.length ≤ room) :
    l.foldlM step? acc = some (l.foldl step acc) ∧ size acc ≤ size (l.foldl step acc) ∧
      size (l.foldl step acc) ≤ size acc + k * l.length := by
  induction l generalizing acc with
  | nil => exact ⟨rfl, le_rfl, by simp⟩
  | cons a rest ih =>
    rw [List.length_cons] at hroom ⊢
    push_cast at hroom ⊢
    rw [mul_add, mul_one] at hroom ⊢
    have hrest : 0 ≤ k * rest.length := by positivity
    obtain ⟨hsome, hlow, hhigh⟩ := hstep a (List.mem_cons_self ..) acc hpos (by omega)
    obtain ⟨hfold, hlow', hhigh'⟩ := ih (fun b hb => hstep b (List.mem_cons_of_mem _ hb)) (step acc a) (by omega)
      (by omega)
    rw [List.foldlM_cons, hsome, List.foldl_cons]
    exact ⟨hfold, by omega, by omega⟩

/-! ### The indices -/

theorem int32_eq_some {n : ℤ} (hlow : -2 ^ 31 ≤ n) (hhigh : n < 2 ^ 31) : int32 n = some n := if_pos ⟨hlow, hhigh⟩

/-- Row by row, the pixels of the image are the places of the buffer. -/
theorem index_mem {x y : ℤ} (hx0 : 0 ≤ x) (hx : x < w) (hy0 : 0 ≤ y) (hy : y < h) :
    0 ≤ y * w + x ∧ y * w + x < ((w * h : ℕ) : ℤ) := by
  have hrow : 0 ≤ y * w := mul_nonneg hy0 (Int.natCast_nonneg w)
  have hlast : (y + 1) * w ≤ h * w := mul_le_mul_of_nonneg_right (by omega) (Int.natCast_nonneg w)
  push_cast
  constructor
  · omega
  · linarith

theorem fetch_of_mem {buf : Grey8 w h} {i : ℤ} (hi : 0 ≤ i ∧ i < ((w * h : ℕ) : ℤ)) : buf.fetch i = some (buf.read i) :=
  if_pos hi

section Admitted

variable (hw : w ≤ 4096) (hh : h ≤ 4096) {sx sy : ℤ} (hsx : |sx| ≤ 4096) (hsy : |sy| ≤ 4096) (prev cur : Grey8 w h)
include hw hh hsx

/-- A pass of the inner loop. -/
theorem pixelChecked_eq_some {x y : ℕ} (hx : x < w) (hy : y < h) (hyy : 0 ≤ (y : ℤ) + sy ∧ (y : ℤ) + sy < h) (acc : Ssd)
    (hcount : 0 ≤ acc.count) (hroom : acc.count + 1 ≤ 2 ^ 31 - 1) :
    Ssd.pixelChecked fl prev cur sx y (y + sy) acc x = some (Ssd.pixel fl prev cur sx sy y acc x) := by
  have harea : ((w * h : ℕ) : ℤ) ≤ 2 ^ 24 := by
    have hle : w * h ≤ 4096 * 4096 := Nat.mul_le_mul hw hh
    omega
  rw [abs_le] at hsx
  have hxx : int32 (x + sx) = some (x + sx) := int32_eq_some (by omega) (by omega)
  unfold Ssd.pixelChecked Ssd.pixel
  simp only [hxx, Option.bind_eq_bind, Option.bind_some]
  split_ifs with hout
  · rfl
  -- both pixels are in the image
  rw [not_or, not_lt, not_le] at hout
  obtain ⟨hlow, hhigh⟩ : 0 ≤ (y : ℤ) * w + x ∧ (y : ℤ) * w + x < ((w * h : ℕ) : ℤ) :=
    index_mem (by omega) (by omega) (by omega) (by omega)
  obtain ⟨hlow', hhigh'⟩ := index_mem hout.1 hout.2 hyy.1 hyy.2
  have hrow : (0 : ℤ) ≤ y * w := by positivity
  have hrow' : 0 ≤ ((y : ℤ) + sy) * w := mul_nonneg hyy.1 (Int.natCast_nonneg w)
  have hbytes := (prev.read (y * w + x)).toNat_lt
  have hbytes' := (cur.read ((y + sy) * w + (x + sx))).toNat_lt
  have hfst := int32_eq_some (n := (y : ℤ) * w) (by omega) (by omega)
  have hfst' := int32_eq_some (n := (y : ℤ) * w + x) (by omega) (by omega)
  have hsnd := int32_eq_some (n := ((y : ℤ) + sy) * w) (by omega) (by omega)
  have hsnd' := int32_eq_some (n := ((y : ℤ) + sy) * w + (x + sx)) (by omega) (by omega)
  have hdiff := int32_eq_some (n := ((prev.read (y * w + x)).toNat : ℤ) - (cur.read ((y + sy) * w + (x + sx))).toNat)
    (by omega) (by omega)
  have hnext := int32_eq_some (n := acc.count + 1) (by omega) (by omega)
  rw [hfst, Option.bind_some, hfst', Option.bind_some, hsnd, Option.bind_some, hsnd', Option.bind_some]
  rw [fetch_of_mem ⟨hlow, hhigh⟩, Option.bind_some, fetch_of_mem ⟨hlow', hhigh'⟩, Option.bind_some]
  rw [hdiff, Option.bind_some, hnext, Option.bind_some]
  rfl

omit hw hh hsx in
theorem pixel_count (sx sy : ℤ) (x y : ℕ) (acc : Ssd) : acc.count ≤ (Ssd.pixel fl prev cur sx sy y acc x).count ∧
    (Ssd.pixel fl prev cur sx sy y acc x).count ≤ acc.count + 1 := by
  unfold Ssd.pixel
  dsimp only
  split_ifs
  · exact ⟨le_rfl, by omega⟩
  · exact ⟨by dsimp only; omega, le_rfl⟩

include hsy

/-- A pass of the outer loop. -/
theorem rowChecked_eq_some {y : ℕ} (hy : y < h) (acc : Ssd) (hcount : 0 ≤ acc.count)
    (hroom : acc.count + w ≤ 2 ^ 31 - 1) :
    Ssd.rowChecked fl prev cur sx sy acc y = some (Ssd.row fl prev cur sx sy acc y) ∧
      acc.count ≤ (Ssd.row fl prev cur sx sy acc y).count ∧
      (Ssd.row fl prev cur sx sy acc y).count ≤ acc.count + w := by
  have hshift := abs_le.mp hsy
  have hyy : int32 (y + sy) = some (y + sy) := int32_eq_some (by omega) (by omega)
  unfold Ssd.rowChecked Ssd.row
  rw [hyy, Option.bind_eq_bind, Option.bind_some]
  dsimp only
  split_ifs with hout
  · exact ⟨rfl, le_rfl, by omega⟩
  · rw [not_or, not_lt, not_le] at hout
    have hinner := foldlM_eq_some (k := 1) (l := List.range w) Ssd.count (fun x hx acc hcount hroom =>
      ⟨pixelChecked_eq_some fl hw hh hsx prev cur (List.mem_range.mp hx) hy hout acc hcount hroom,
        pixel_count fl prev cur sx sy x y acc⟩) zero_le_one acc hcount (by rw [List.length_range]; omega)
    rwa [List.length_range, one_mul] at hinner

/-- The loops never overflow and never read outside the buffers. -/
theorem ssdLoopsChecked_eq_some : ssdLoopsChecked fl prev cur sx sy =
    some ((overlap w h sx sy).foldl (fun acc p => acc.add fl (difference prev cur sx sy p)) ⟨0, 0⟩) := by
  have harea : (w : ℤ) * h ≤ 2 ^ 24 := by
    have hle : w * h ≤ 4096 * 4096 := Nat.mul_le_mul hw hh
    exact_mod_cast hle
  have hloops := foldlM_eq_some (k := w) (l := List.range h) Ssd.count (fun y hy acc hcount hroom =>
    rowChecked_eq_some fl hw hh hsx hsy prev cur (List.mem_range.mp hy) acc hcount hroom)
    (Int.natCast_nonneg w) ⟨0, 0⟩ le_rfl (by rw [List.length_range]; dsimp only; omega)
  rw [foldl_row] at hloops
  exact hloops.1

end Admitted

/-! ### The matcher on what `main` admits -/

theorem squares_perm {f : ℕ × ℕ → ℤ} {pixels pixels' : List (ℕ × ℕ)} (h : pixels.Perm pixels') :
    squares f pixels = squares f pixels' := (h.map _).sum_eq

/-- No index of `ssd_shift` leaves the buffers and no `int` overflows. Some pixels are compared, the sum
of the squares is an integer below `2 ^ 53`, and every sum of squares of the pixels compared, of all or
of some of them and in whatever order, is exact. -/
theorem ssdShift_safe (hw : 8 < w) (hw' : w ≤ 4096) (hh : 8 < h) (hh' : h ≤ 4096) (prev cur : Grey8 w h) {sx sy : ℤ}
    (hsx : |sx| ≤ searchRadius w h) (hsy : |sy| ≤ searchRadius w h) :
    let square (p : ℕ × ℕ) : ℤ := difference prev cur sx sy p * difference prev cur sx sy p
    ∃ sum count : ℕ, ssdLoopsChecked fl prev cur sx sy = some ⟨sum, count⟩ ∧ 1 ≤ count ∧ sum < 2 ^ 53 ∧
      ssdShiftChecked fl prev cur sx sy = some (fl.round (sum / count)) ∧
      ssdShift fl prev cur sx sy = fl.round (sum / count) ∧
      (∀ order : Summation (ℕ × ℕ), order.terms.Perm (overlap w h sx sy) →
        order.eval fl (fun p => (square p : ℚ)) = sum) ∧
      ∀ order : Summation (ℕ × ℕ), order.terms.Subperm (overlap w h sx sy) →
        order.eval fl (fun p => (square p : ℚ)) = ((order.terms.map square).sum : ℤ) ∧
          0 ≤ (order.terms.map square).sum ∧ (order.terms.map square).sum < 2 ^ 53 := by
  intro square
  obtain ⟨hrw, hrh⟩ := searchRadius_lt hw hh
  have hpos := List.length_pos_of_ne_nil (overlap_ne_nil hw hh hsx hsy)
  have hlength := length_overlap_le hw' hh' sx sy
  have hdiff := abs_difference_le prev cur sx sy
  -- the sum of the squares, and what is left of it when terms are left out
  obtain ⟨sum, hsum⟩ := Int.eq_ofNat_of_zero_le (squares_nonneg (difference prev cur sx sy) (overlap w h sx sy))
  have hpart : ∀ order : Summation (ℕ × ℕ), order.terms.Subperm (overlap w h sx sy) →
      order.eval fl (fun p => (square p : ℚ)) = (squares (difference prev cur sx sy) order.terms : ℤ) ∧
        squares (difference prev cur sx sy) order.terms < 2 ^ 53 := by
    intro order hterms
    have hshorter := hterms.length_le
    have hle := squares_le hdiff order.terms
    exact ⟨eval_squares fl hdiff order (by omega), by omega⟩
  have hloops := ssdLoopsChecked_eq_some fl hw' hh' (hsx.trans (by omega)) (hsy.trans (by omega)) prev cur
  rw [foldl_add_exact fl hdiff _ (by omega), hsum] at hloops
  have hmean := ssdShift_eq_mean fl hw hw' hh hh' prev cur hsx hsy
  rw [hsum] at hmean
  have hchecked : ssdShiftChecked fl prev cur sx sy = some (fl.round (sum / (overlap w h sx sy).length)) := by
    unfold ssdShiftChecked
    rw [hloops, Option.bind_eq_bind, Option.bind_some]
    dsimp only
    rw [if_neg (by omega)]
    rfl
  refine ⟨sum, (overlap w h sx sy).length, hloops, hpos, ?_, hchecked, hmean, fun order hterms => ?_,
    fun order hterms => ?_⟩
  · have hle := squares_le hdiff (overlap w h sx sy)
    omega
  · rw [(hpart order hterms.subperm).1, squares_perm hterms, hsum]
    rfl
  · exact ⟨(hpart order hterms).1, squares_nonneg _ _, (hpart order hterms).2⟩

/-- A black image and a white one of the least size, at a corner of the search. -/
theorem ssdShift_safe_corner :
    let prev : Grey8 9 9 := .replicate _ 0
    let cur : Grey8 9 9 := .replicate _ 255
    let square (p : ℕ × ℕ) : ℤ := difference prev cur (-4) 4 p * difference prev cur (-4) 4 p
    ∃ sum count : ℕ, ssdLoopsChecked .exact prev cur (-4) 4 = some ⟨sum, count⟩ ∧ 1 ≤ count ∧ sum < 2 ^ 53 ∧
      ssdShiftChecked .exact prev cur (-4) 4 = some (DoubleRounding.exact.round (sum / count)) ∧
      ssdShift .exact prev cur (-4) 4 = DoubleRounding.exact.round (sum / count) ∧
      (∀ order : Summation (ℕ × ℕ), order.terms.Perm (overlap 9 9 (-4) 4) →
        order.eval .exact (fun p => (square p : ℚ)) = sum) ∧
      ∀ order : Summation (ℕ × ℕ), order.terms.Subperm (overlap 9 9 (-4) 4) →
        order.eval .exact (fun p => (square p : ℚ)) = ((order.terms.map square).sum : ℤ) ∧
          0 ≤ (order.terms.map square).sum ∧ (order.terms.map square).sum < 2 ^ 53 :=
  ssdShift_safe .exact (by decide) (by decide) (by decide) (by decide) (.replicate _ 0) (.replicate _ 255) (by decide)
    (by decide)

end Annotations.Motion
