import Annotations.Plane.Shapes

/-! Distances in the plane over an ordered field, by their squares: how far a point may be
from a disc, and where two segments cross. -/

namespace Annotations.Plane

variable {K : Type*} [Field K] [LinearOrder K] [IsStrictOrderedRing K]

/-- The square of the distance. -/
def distSq (p q : K × K) : K := (p.1 - q.1) * (p.1 - q.1) + (p.2 - q.2) * (p.2 - q.2)

variable {a b c d e p q z : K × K} {r h : K}

theorem distSq_nonneg : 0 ≤ distSq p q := add_nonneg (mul_self_nonneg _) (mul_self_nonneg _)

omit [LinearOrder K] [IsStrictOrderedRing K] in
theorem distSq_comm : distSq p q = distSq q p := by
  simp only [distSq]
  ring

omit [LinearOrder K] [IsStrictOrderedRing K] in
theorem distSq_self : distSq p p = 0 := by
  simp [distSq]

/-! ### Discs -/

/-- The triangle inequality. -/
theorem distSq_lt_add (hr : 0 ≤ r) (hh : 0 < h) (hpq : distSq p q ≤ r * r) (hqc : distSq q c < h * h) :
    distSq p c < (r + h) * (r + h) := by
  simp only [distSq] at hpq hqc ⊢
  set u := p.1 - q.1 with hu
  set v := p.2 - q.2 with hv
  set x := q.1 - c.1 with hx
  set y := q.2 - c.2 with hy
  have hpx : p.1 - c.1 = u + x := by rw [hu, hx]; ring
  have hpy : p.2 - c.2 = v + y := by rw [hv, hy]; ring
  have hcauchy : (u * x + v * y) * (u * x + v * y) ≤ (u * u + v * v) * (x * x + y * y) := by
    have hlagrange : (u * u + v * v) * (x * x + y * y) =
        (u * x + v * y) * (u * x + v * y) + (u * y - v * x) * (u * y - v * x) := by ring
    rw [hlagrange]
    exact le_add_of_nonneg_right (mul_self_nonneg _)
  have hproduct : (u * u + v * v) * (x * x + y * y) ≤ r * r * (h * h) :=
    mul_le_mul hpq hqc.le (add_nonneg (mul_self_nonneg x) (mul_self_nonneg y)) (mul_self_nonneg r)
  have hdot : u * x + v * y ≤ r * h := by
    refine abs_le_of_sq_le_sq' ?_ (by positivity) |>.2
    calc (u * x + v * y) ^ 2 = (u * x + v * y) * (u * x + v * y) := by ring
      _ ≤ r * r * (h * h) := hcauchy.trans hproduct
      _ = (r * h) ^ 2 := by ring
  rw [hpx, hpy]
  calc (u + x) * (u + x) + (v + y) * (v + y) = u * u + v * v + (x * x + y * y) + 2 * (u * x + v * y) := by ring
    _ < r * r + h * h + 2 * (r * h) := by linarith
    _ = (r + h) * (r + h) := by ring

omit [LinearOrder K] [IsStrictOrderedRing K] in
/-- The distances to a point on the way from `c` to `p`. -/
theorem distSq_along (t : K) :
    distSq (c.1 + t * (p.1 - c.1), c.2 + t * (p.2 - c.2)) c = t * t * distSq p c ∧
      distSq p (c.1 + t * (p.1 - c.1), c.2 + t * (p.2 - c.2)) = (1 - t) * (1 - t) * distSq p c := by
  simp only [distSq]
  constructor <;> ring

/-- A point that is near enough to a disc is near to a point in it. -/
theorem exists_mem_disc (hr : 0 < r) (hh : 0 < h) (hpc : distSq p c < (r + h) * (r + h)) :
    ∃ q ∈ disc c h, distSq p q ≤ r * r := by
  -- the way from the centre is divided like the two lengths
  have hsum : 0 < r + h := add_pos hr hh
  have hne : r + h ≠ 0 := hsum.ne'
  have hscale : ∀ l : K, l / (r + h) * (l / (r + h)) * ((r + h) * (r + h)) = l * l := by
    intro l
    field_simp
  have hrest : 1 - h / (r + h) = r / (r + h) := by
    field_simp
    ring
  obtain ⟨hcentre, hpoint⟩ := distSq_along (c := c) (p := p) (h / (r + h))
  refine ⟨_, mem_disc.mpr (hcentre.trans_lt ?_), hpoint.trans_le ?_⟩
  · rw [← hscale h]
    exact mul_lt_mul_of_pos_left hpc (mul_self_pos.mpr (div_pos hh hsum).ne')
  · rw [hrest, ← hscale r]
    exact mul_le_mul_of_nonneg_left hpc.le (mul_self_nonneg _)

/-- All of a disc is farther than `r` if the centre is farther than that and the radius. -/
theorem disc_far_iff (hr : 0 < r) (hh : 0 < h) :
    (∀ q ∈ disc c h, r * r < distSq p q) ↔ (r + h) * (r + h) ≤ distSq p c := by
  constructor
  · intro hfar
    by_contra hnear
    obtain ⟨q, hq, hpq⟩ := exists_mem_disc hr hh (not_le.mp hnear)
    exact absurd (hfar q hq) (not_lt.mpr hpq)
  · intro hfar q hq
    by_contra hnear
    exact absurd (distSq_lt_add hr.le hh (not_lt.mp hnear) hq) (not_lt.mpr hfar)

/-! ### Segments -/

/-- The coordinates of a point of a segment lie between those of its ends. -/
theorem fst_mem_segment (hz : z ∈ segment K a b) : min a.1 b.1 ≤ z.1 ∧ z.1 ≤ max a.1 b.1 := by
  obtain ⟨s, t, hs, ht, hst, rfl⟩ := hz
  have hmem : s • a.1 + t • b.1 ∈ segment K a.1 b.1 := ⟨s, t, hs, ht, hst, rfl⟩
  rw [segment_eq_uIcc] at hmem
  exact hmem

theorem snd_mem_segment (hz : z ∈ segment K a b) : min a.2 b.2 ≤ z.2 ∧ z.2 ≤ max a.2 b.2 := by
  obtain ⟨s, t, hs, ht, hst, rfl⟩ := hz
  have hmem : s • a.2 + t • b.2 ∈ segment K a.2 b.2 := ⟨s, t, hs, ht, hst, rfl⟩
  rw [segment_eq_uIcc] at hmem
  exact hmem

/-- The point a part `t` of the way along a segment. -/
theorem along_mem_segment {t : K} (h0 : 0 ≤ t) (h1 : t ≤ 1) :
    (a.1 + t * (b.1 - a.1), a.2 + t * (b.2 - a.2)) ∈ segment K a b := by
  refine ⟨1 - t, t, sub_nonneg.mpr h1, h0, sub_add_cancel 1 t, Prod.ext ?_ ?_⟩ <;>
    simp only [Prod.fst_add, Prod.snd_add, Prod.smul_fst, Prod.smul_snd, smul_eq_mul] <;> ring

/-- A segment crosses a line where the two sides balance. -/
theorem balance_mem {x y : K} (h : (0 < x ∧ y < 0) ∨ (x < 0 ∧ 0 < y)) :
    x - y ≠ 0 ∧ 0 ≤ x / (x - y) ∧ x / (x - y) ≤ 1 := by
  rcases h with ⟨hx, hy⟩ | ⟨hx, hy⟩
  · have hxy : 0 < x - y := by linarith
    exact ⟨hxy.ne', (div_pos hx hxy).le, (div_le_one hxy).mpr (by linarith)⟩
  · have hxy : x - y < 0 := by linarith
    exact ⟨hxy.ne, (div_pos_of_neg_of_neg hx hxy).le, (div_le_one_of_neg hxy).mpr (by linarith)⟩

/-- Two segments whose ends lie on different sides of each other have a point in common. -/
theorem exists_mem_of_cross
    (hab : (0 < cross c d a ∧ cross c d b < 0) ∨ (cross c d a < 0 ∧ 0 < cross c d b))
    (hcd : (0 < cross a b c ∧ cross a b d < 0) ∨ (cross a b c < 0 ∧ 0 < cross a b d)) :
    ∃ z, z ∈ segment K a b ∧ z ∈ segment K c d := by
  obtain ⟨hne, h0, h1⟩ := balance_mem hab
  obtain ⟨hne', h0', h1'⟩ := balance_mem hcd
  refine ⟨_, along_mem_segment h0 h1, ?_⟩
  convert along_mem_segment h0' h1' using 1
  have hopposite : cross c d a - cross c d b = -(cross a b c - cross a b d) := by
    simp only [cross]
    ring
  rw [hopposite, div_neg]
  refine Prod.ext ?_ ?_ <;> simp only <;> field_simp <;> simp only [cross] <;> ring

/-- Two points are as near in each coordinate as they are in the plane. -/
theorem abs_sub_le_of_distSq (hr : 0 ≤ r) (h : distSq p q ≤ r * r) : |p.1 - q.1| ≤ r ∧ |p.2 - q.2| ≤ r := by
  simp only [distSq] at h
  constructor <;> refine abs_le_of_sq_le_sq ?_ hr <;> rw [sq, sq]
  · exact (le_add_of_nonneg_right (mul_self_nonneg _)).trans h
  · exact (le_add_of_nonneg_left (mul_self_nonneg _)).trans h

end Annotations.Plane
