import Annotations.Tracing.Erasing

/-! The distance of two segments is exact. Segments that cross have it zero, all others are nearest
at an end of one of them, so the four distances to the ends leave out no configuration. Segments
shorter than a thousandth of a pixel, but not points, are excepted. -/

namespace Annotations

open Plane MetaAnnotationLayer

variable {K : Type} [Scalar K] {aX aY bX bY cX cY dX dY : K}

/-- No points of plain segments are nearer than the distance. -/
theorem segmentToSegmentDist_mul_self_le (hsqrt : ExactSqrt K) (hab : Plain (aX, aY) (bX, bY))
    (hcd : Plain (cX, cY) (dX, dY)) {x : K} (hx : x ∈ gaps (aX, aY) (bX, bY) (cX, cY) (dX, dY)) :
    segmentToSegmentDist aX aY bX bY cX cY dX dY * segmentToSegmentDist aX aY bX bY cX cY dX dY ≤ x := by
  obtain ⟨e, he, z, hz, rfl⟩ := hx
  obtain ⟨hr, hsq⟩ := hsqrt (distSq e z) distSq_nonneg
  obtain ⟨-, -, -, -, -, hnonneg⟩ := exists_segmentToSegmentDist hsqrt aX aY bX bY cX cY dX dY
  have hle : segmentToSegmentDist aX aY bX bY cX cY dX dY ≤ Scalar.sqrtf (distSq e z) :=
    segmentToSegmentDist_le hsqrt hr hr (.inl ⟨hab, le_rfl⟩) (.inl ⟨hcd, le_rfl⟩) he hz hsq.ge
  calc segmentToSegmentDist aX aY bX bY cX cY dX dY * segmentToSegmentDist aX aY bX bY cX cY dX dY
      ≤ Scalar.sqrtf (distSq e z) * Scalar.sqrtf (distSq e z) := mul_self_le_mul_self hnonneg hle
    _ = distSq e z := hsq

/-- The two segments play the same part. -/
theorem segmentToSegmentDist_comm :
    segmentToSegmentDist aX aY bX bY cX cY dX dY = segmentToSegmentDist cX cY dX dY aX aY bX bY := by
  by_cases hcross : ProperCross (aX, aY) (bX, bY) (cX, cY) (dX, dY)
  · rw [segmentToSegmentDist_of_cross hcross, segmentToSegmentDist_of_cross hcross.swap]
  · have hcross' : ¬ ProperCross (cX, cY) (dX, dY) (aX, aY) (bX, bY) := fun h => hcross h.swap
    rw [segmentToSegmentDist_of_not_cross hcross, segmentToSegmentDist_of_not_cross hcross']
    congr 1
    -- the least of the same four, in another order
    refine le_antisymm ?_ ?_ <;> simp only [le_min_iff, min_le_iff, le_refl, true_or, or_true, and_self]

/-- The square of the distance is the least of the squared distances between a point of the one
segment and a point of the other, and the order of the segments does not matter. -/
theorem segmentToSegmentDist_exact (hsqrt : ExactSqrt K) (hab : Plain (aX, aY) (bX, bY))
    (hcd : Plain (cX, cY) (dX, dY)) :
    let dist := segmentToSegmentDist aX aY bX bY cX cY dX dY
    IsLeast (gaps (aX, aY) (bX, bY) (cX, cY) (dX, dY)) (dist * dist) ∧ 0 ≤ dist ∧
      segmentToSegmentDist cX cY dX dY aX aY bX bY = dist := by
  intro dist
  obtain ⟨e, he, z, hz, hdist, hnonneg⟩ := exists_segmentToSegmentDist hsqrt aX aY bX bY cX cY dX dY
  have hattained : dist * dist ∈ gaps (aX, aY) (bX, bY) (cX, cY) (dX, dY) := ⟨e, he, z, hz, hdist⟩
  have hlower : dist * dist ∈ lowerBounds (gaps (aX, aY) (bX, bY) (cX, cY) (dX, dY)) := fun _ hx =>
    segmentToSegmentDist_mul_self_le hsqrt hab hcd hx
  exact ⟨⟨hattained, hlower⟩, hnonneg, segmentToSegmentDist_comm.symm⟩

/-- A segment that ends within another, and a point. -/
theorem segmentToSegmentDist_exact_touching :
    let dist := segmentToSegmentDist (0 : ℝ) 0 10 0 5 0 5 7
    let dist' := segmentToSegmentDist (0 : ℝ) 0 10 0 5 7 5 7
    (IsLeast (gaps ((0 : ℝ), (0 : ℝ)) (10, 0) (5, 0) (5, 7)) (dist * dist) ∧ 0 ≤ dist ∧
        segmentToSegmentDist (5 : ℝ) 0 5 7 0 0 10 0 = dist) ∧
      IsLeast (gaps ((0 : ℝ), (0 : ℝ)) (10, 0) (5, 7) (5, 7)) (dist' * dist') ∧ 0 ≤ dist' ∧
        segmentToSegmentDist (5 : ℝ) 7 5 7 0 0 10 0 = dist' := by
  have hlong : Plain ((0 : ℝ), (0 : ℝ)) (10, 0) := .inr (by norm_num [distSq])
  have hlong' : Plain ((5 : ℝ), (0 : ℝ)) (5, 7) := .inr (by norm_num [distSq])
  exact ⟨segmentToSegmentDist_exact exactSqrt_real hlong hlong',
    segmentToSegmentDist_exact exactSqrt_real hlong (.inl rfl)⟩

end Annotations
