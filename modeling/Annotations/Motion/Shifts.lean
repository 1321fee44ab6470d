import Annotations.Motion.Matcher
import Mathlib.Data.List.Flatten
import Mathlib.Tactic.Ring
import Mathlib.Tactic.Positivity

/-! The search over the shifts. It keeps the first shift of least error, and the loops visit
every shift of the square, in increasing order of `sy` and then of `sx`. -/

namespace Annotations.Motion

namespace Search

variable {err : ℤ × ℤ → ℚ} {s : Search}

theorem consider_best_le (shift : ℤ × ℤ) (e : ℚ) : (s.consider shift e).best ≤ s.best := by
  unfold consider
  split_ifs with hlt
  · exact hlt.le
  · exact le_rfl
  · exact le_rfl

theorem consider_best_le_error (shift : ℤ × ℤ) (e : ℚ) : (s.consider shift e).best ≤ e := by
  unfold consider
  split_ifs with hlt
  · exact le_rfl
  · exact not_lt.mp hlt
  · exact not_lt.mp hlt

theorem visit_cons (shift : ℤ × ℤ) (rest : List (ℤ × ℤ)) :
    s.visit err (shift :: rest) = (s.consider shift (err shift)).visit err rest := rfl

theorem visit_best_le (visited : List (ℤ × ℤ)) : (s.visit err visited).best ≤ s.best := by
  induction visited generalizing s with
  | nil => exact le_rfl
  | cons shift rest ih =>
    rw [visit_cons]
    exact ih.trans (consider_best_le shift (err shift))

theorem visit_best_le_error {visited : List (ℤ × ℤ)} {shift : ℤ × ℤ} (h : shift ∈ visited) :
    (s.visit err visited).best ≤ err shift := by
  induction visited generalizing s with
  | nil => cases h
  | cons first rest ih =>
    rw [visit_cons]
    rcases List.mem_cons.mp h with rfl | hrest
    · exact (visit_best_le rest).trans (consider_best_le_error shift (err shift))
    · exact ih hrest

/-- While no error is below the best, the shift kept stays. -/
theorem visit_kept (visited : List (ℤ × ℤ)) (h : s.best ≤ (s.visit err visited).best) :
    (s.visit err visited).best = s.best ∧ (s.visit err visited).bestSx = s.bestSx ∧
      (s.visit err visited).bestSy = s.bestSy := by
  induction visited generalizing s with
  | nil => exact ⟨rfl, rfl, rfl⟩
  | cons first rest ih =>
    rw [visit_cons] at h ⊢
    have hnot : ¬ err first < s.best := by
      intro hlt
      have hle := h.trans ((visit_best_le rest).trans (consider_best_le_error first (err first)))
      exact absurd hlt (not_lt.mpr hle)
    have hsame : (s.consider first (err first)).best = s.best ∧
        (s.consider first (err first)).bestSx = s.bestSx ∧
        (s.consider first (err first)).bestSy = s.bestSy := by
      unfold consider
      rw [if_neg hnot]
      split_ifs <;> exact ⟨rfl, rfl, rfl⟩
    obtain ⟨hbest, hsx, hsy⟩ := ih (hsame.1.trans_le h)
    exact ⟨hbest.trans hsame.1, hsx.trans hsame.2.1, hsy.trans hsame.2.2⟩

/-- Once an error below the starting one is seen, the shift kept is the first of its error,
and that error is the best. -/
theorem visit_first {visited : List (ℤ × ℤ)} (h : (s.visit err visited).best < s.best) :
    ∃ before shift after, visited = before ++ shift :: after ∧
      (s.visit err visited).bestSx = shift.1 ∧ (s.visit err visited).bestSy = shift.2 ∧
      (s.visit err visited).best = err shift ∧ ∀ earlier ∈ before, err shift < err earlier := by
  induction visited generalizing s with
  | nil => exact absurd h (lt_irrefl _)
  | cons first rest ih =>
    rw [visit_cons] at h ⊢
    rcases lt_or_ge ((s.consider first (err first)).visit err rest).best
      (s.consider first (err first)).best with hlater | hlater
    · -- a later shift is better still
      obtain ⟨before, shift, after, hsplit, hsx, hsy, hbest, hbefore⟩ := ih hlater
      refine ⟨first :: before, shift, after, by rw [hsplit]; rfl, hsx, hsy, hbest, ?_⟩
      intro earlier hearlier
      rcases List.mem_cons.mp hearlier with rfl | hmem
      · rw [← hbest]
        exact hlater.trans_le (consider_best_le_error earlier (err earlier))
      · exact hbefore earlier hmem
    · -- no later shift is better, so the state keeps this one
      have hkept := visit_kept rest hlater
      have htaken : err first < s.best := by
        by_contra hnot
        have hsame : (s.consider first (err first)).best = s.best := by
          unfold consider
          rw [if_neg hnot]
          split_ifs <;> rfl
        rw [hkept.1, hsame] at h
        exact lt_irrefl _ h
      have hconsider : s.consider first (err first) = ⟨err first, s.best, first.1, first.2⟩ := by
        unfold consider
        rw [if_pos htaken]
      rw [hconsider] at hkept ⊢
      exact ⟨[], first, rest, rfl, hkept.2.1, hkept.2.2, hkept.1, by simp⟩

end Search

/-! ### The order of the loops -/

/-- The first shift is visited before the second. -/
def ScanBefore (s t : ℤ × ℤ) : Prop := s.2 < t.2 ∨ s.2 = t.2 ∧ s.1 < t.1

theorem mem_span {m : ℕ} {i : ℤ} : i ∈ span m ↔ |i| ≤ m := by
  simp only [span, List.mem_map, List.mem_range, abs_le]
  constructor
  · rintro ⟨k, hk, rfl⟩
    omega
  · intro hi
    exact ⟨(i + m).toNat, by omega, by omega⟩

theorem mem_shifts {m : ℕ} {shift : ℤ × ℤ} : shift ∈ shifts m ↔ |shift.1| ≤ m ∧ |shift.2| ≤ m := by
  obtain ⟨sx, sy⟩ := shift
  simp only [shifts, List.mem_flatMap, List.mem_map, mem_span, Prod.mk.injEq]
  constructor
  · rintro ⟨y, hy, x, hx, rfl, rfl⟩
    exact ⟨hx, hy⟩
  · rintro ⟨hx, hy⟩
    exact ⟨sy, hy, sx, hx, rfl, rfl⟩

theorem span_pairwise (m : ℕ) : (span m).Pairwise (· < ·) := by
  unfold span
  refine List.pairwise_map.mpr (List.pairwise_lt_range.imp ?_)
  intro i j hij
  omega

theorem shifts_pairwise (m : ℕ) : (shifts m).Pairwise ScanBefore := by
  unfold shifts
  refine List.pairwise_flatMap.mpr ⟨?_, ?_⟩
  · intro sy _
    refine List.pairwise_map.mpr ((span_pairwise m).imp ?_)
    intro sx tx hlt
    exact .inr ⟨rfl, hlt⟩
  · refine (span_pairwise m).imp ?_
    intro sy ty hlt s hs t ht
    obtain ⟨_, _, rfl⟩ := List.mem_map.mp hs
    obtain ⟨_, _, rfl⟩ := List.mem_map.mp ht
    exact .inl hlt

/-! ### The pixels compared -/

variable (fl : DoubleRounding) {w h : ℕ} {prev cur : Grey8 w h} {sx sy : ℤ}

/-- The columns, or rows, of an axis of length `n` that stay on it when shifted. -/
def kept (n : ℕ) (s : ℤ) : List ℕ := (List.range n).filter fun i => 0 ≤ (i : ℤ) + s ∧ (i : ℤ) + s < n

theorem mem_kept {n : ℕ} {s : ℤ} {i : ℕ} : i ∈ kept n s ↔ i < n ∧ 0 ≤ (i : ℤ) + s ∧ (i : ℤ) + s < n := by
  simp [kept]

/-- The pixels of `prev` that a shift compares, in the order of the loops. -/
def overlap (w h : ℕ) (sx sy : ℤ) : List (ℕ × ℕ) :=
  (kept h sy).flatMap fun y => (kept w sx).map fun x => (x, y)

theorem mem_overlap {p : ℕ × ℕ} : p ∈ overlap w h sx sy ↔
    (p.1 < w ∧ 0 ≤ (p.1 : ℤ) + sx ∧ (p.1 : ℤ) + sx < w) ∧ p.2 < h ∧ 0 ≤ (p.2 : ℤ) + sy ∧ (p.2 : ℤ) + sy < h := by
  obtain ⟨x, y⟩ := p
  simp only [overlap, List.mem_flatMap, List.mem_map, mem_kept, Prod.mk.injEq]
  constructor
  · rintro ⟨y', hy, x', hx, rfl, rfl⟩
    exact ⟨hx, hy⟩
  · rintro ⟨hx, hy⟩
    exact ⟨y, hy, x, hx, rfl, rfl⟩

/-- The difference of the grey levels compared at a pixel. -/
def difference (prev cur : Grey8 w h) (sx sy : ℤ) (p : ℕ × ℕ) : ℤ :=
  ((prev.read (p.2 * w + p.1)).toNat : ℤ) - ((cur.read ((p.2 + sy) * w + (p.1 + sx))).toNat : ℤ)

/-- Adding the square of one difference. -/
def Ssd.add (acc : Ssd) (d : ℤ) : Ssd := ⟨fl.round (acc.sum + fl.round ((d : ℚ) * d)), acc.count + 1⟩

/-- The loops with their `continue`s run over the pixels of the overlap. -/
theorem foldl_row : (List.range h).foldl (Ssd.row fl prev cur sx sy) ⟨0, 0⟩ =
    (overlap w h sx sy).foldl (fun acc p => acc.add fl (difference prev cur sx sy p)) ⟨0, 0⟩ := by
  unfold overlap kept
  rw [List.foldl_flatMap, List.foldl_filter]
  congr 1
  funext acc y
  simp only [Ssd.row, List.foldl_map, List.foldl_filter, decide_eq_true_eq]
  split_ifs with hout hin hin
  · omega
  · rfl
  · congr 1
    funext acc x
    simp only [Ssd.pixel]
    split_ifs with hout hin hin
    · omega
    · rfl
    · rfl
    · omega
  · omega

theorem sum_foldl_add_nonneg (pixels : List (ℕ × ℕ)) (f : ℕ × ℕ → ℤ) (acc : Ssd) (hacc : 0 ≤ acc.sum) :
    0 ≤ (pixels.foldl (fun acc p => acc.add fl (f p)) acc).sum := by
  induction pixels generalizing acc with
  | nil => exact hacc
  | cons p rest ih =>
    refine ih _ (fl.round_nonneg ?_)
    have hsquare : (0 : ℚ) ≤ (f p : ℚ) * f p := mul_self_nonneg _
    exact add_nonneg hacc (fl.round_nonneg hsquare)

theorem ssdShift_nonneg (prev cur : Grey8 w h) (sx sy : ℤ) : 0 ≤ ssdShift fl prev cur sx sy := by
  unfold ssdShift
  rw [foldl_row]
  have hsum := sum_foldl_add_nonneg fl (overlap w h sx sy) (difference prev cur sx sy) ⟨0, 0⟩ le_rfl
  dsimp only
  split_ifs with hcount
  · exact fl.round_nonneg (by positivity)
  · refine fl.round_nonneg (div_nonneg hsum ?_)
    exact_mod_cast (not_le.mp hcount).le

end Annotations.Motion
