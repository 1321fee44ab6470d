import Annotations.Plane.Polylines
import Annotations.Tracing.Footprint

/-! The broad phase of the hit test. The box of a stroke starts out empty, from the largest `float`
down to its negative, and grows by every point; it covers all that the stroke paints, and an eraser
segment that keeps the radius from the box keeps it from the centre line. -/

namespace Annotations

open Plane MetaAnnotationLayer

variable {K : Type} [Scalar K]

/-- `G_MAXFLOAT`. -/
def gMaxFloat : K := (2 ^ 24 - 1) * 2 ^ 104

/-- `stroke_new`, with the box that it writes. -/
def strokeNewWithBox (addr : ℕ) (rgba : Rgba K) : Stroke K :=
  { strokeNew addr rgba with bbox := some ⟨gMaxFloat, gMaxFloat, -gMaxFloat, -gMaxFloat⟩ }

/-- `stroke_hit_by_eraser` without the test of the boxes. -/
def strokeHitByEraserNarrow (s : Stroke K) (aX aY bX bY r : K) : Bool :=
  match s.points with
  | [] => false
  | [p] => pointToSegmentDistSq p.x p.y aX aY bX bY ≤ r * r
  | points => (points.zip points.tail).any fun seg =>
      segmentToSegmentDist aX aY bX bY seg.1.x seg.1.y seg.2.x seg.2.y ≤ r

variable {s : Stroke K} {b : StrokeBbox K} {p q : InkPoint K} {aX aY bX bY r : K}

theorem strokeHitByEraserNarrow_iff :
    strokeHitByEraserNarrow s aX aY bX bY r ↔ centreLineWithin s.points aX aY bX bY r := by
  unfold strokeHitByEraserNarrow
  rcases s.points with _ | ⟨p, _ | ⟨q, points⟩⟩
  · exact iff_of_false Bool.noConfusion id
  · exact decide_eq_true_iff
  · simp only [centreLineWithin, List.any_eq_true, decide_eq_true_eq]

/-! ### The two empty boxes -/

/-- The coordinates around a point are those of a `float`. -/
def InkPoint.Finite (p : InkPoint K) : Prop :=
  (p.x - inkPointMaxHalfWidth p ≤ gMaxFloat ∧ -gMaxFloat ≤ p.x + inkPointMaxHalfWidth p) ∧
    p.y - inkPointMaxHalfWidth p ≤ gMaxFloat ∧ -gMaxFloat ≤ p.y + inkPointMaxHalfWidth p

theorem extend_gMaxFloat (hp : p.Finite) :
    (⟨gMaxFloat, gMaxFloat, -gMaxFloat, -gMaxFloat⟩ : StrokeBbox K).extend p = .around p := by
  have hmin : ∀ x : K, x ≤ gMaxFloat → (if x < gMaxFloat then x else gMaxFloat) = x := by
    intro x hx
    split_ifs with hlt
    · rfl
    · exact le_antisymm (not_lt.mp hlt) hx
  have hmax : ∀ x : K, -gMaxFloat ≤ x → (if -gMaxFloat < x then x else -gMaxFloat) = x := by
    intro x hx
    split_ifs with hlt
    · rfl
    · exact le_antisymm hx (not_lt.mp hlt)
  unfold StrokeBbox.extend StrokeBbox.around
  dsimp only
  rw [hmin _ hp.1.1, hmax _ hp.1.2, hmin _ hp.2.1, hmax _ hp.2.2]

/-- A stroke that begins with a point of finite coordinates has the same box, whether the box was
empty or missing before. -/
theorem foldl_strokeNewWithBox (addr : ℕ) (rgba : Rgba K) (hp : p.Finite) (points : List (InkPoint K)) :
    (p :: points).foldl strokeAppendPoint (strokeNewWithBox addr rgba) =
      (p :: points).foldl strokeAppendPoint (strokeNew addr rgba) := by
  have hfirst : strokeAppendPoint (strokeNewWithBox addr rgba) p = strokeAppendPoint (strokeNew addr rgba) p := by
    have hbox : (strokeAppendPoint (strokeNewWithBox addr rgba) p).bbox =
        (strokeAppendPoint (strokeNew addr rgba) p).bbox := by
      rw [strokeAppendPoint_bbox, strokeAppendPoint_bbox]
      exact congrArg some (extend_gMaxFloat hp)
    exact Stroke.mk.injEq .. |>.mpr ⟨rfl, rfl, rfl, hbox, rfl⟩
  rw [List.foldl_cons, List.foldl_cons, hfirst]

/-! ### What the box covers -/

theorem abs_div_sqrtf_le_one (hsqrt : ExactSqrt K) {x l : K} (hl : 0 < l) (hx : x * x ≤ l) :
    |x / Scalar.sqrtf l| ≤ 1 := by
  obtain ⟨hnonneg, hsq⟩ := hsqrt l hl.le
  have hle : |x| ≤ Scalar.sqrtf l := by
    refine abs_le_of_sq_le_sq ?_ hnonneg
    rwa [sq, sq, hsq]
  rw [abs_div, abs_of_nonneg hnonneg]
  exact div_le_one_of_le₀ hle hnonneg

/-- A box that covers two points holds what the segment between them fills. -/
theorem fill_subset_region (hsqrt : ExactSqrt K) (hp : b.Covers p) (hq : b.Covers q) (hp0 : 0 ≤ p.tiltFactor)
    (hq0 : 0 ≤ q.tiltFactor) (cr : CairoContext K) (rgba : Rgba K) : (drawInkSegment cr rgba p q).fill ⊆ b.region := by
  have hh := inkPointMaxHalfWidth_nonneg hsqrt hp0
  have hh' := inkPointMaxHalfWidth_nonneg hsqrt hq0
  have hfill : (drawInkSegment cr rgba p q).fill =
      brushFill p.x p.y q.x q.y (brushWidth p.pressure p.tiltFactor) (brushWidth q.pressure q.tiltFactor) := rfl
  rw [hfill]
  unfold brushFill
  simp only [mul_assoc _ (brushWidth _ _), brushWidth_half]
  split_ifs with hshort
  · exact disc_subset_region hp hh
  have hpos : 0 < (q.x - p.x) * (q.x - p.x) + (q.y - p.y) * (q.y - p.y) :=
    lt_of_lt_of_le (by norm_num) (not_lt.mp hshort)
  set len := Scalar.sqrtf ((q.x - p.x) * (q.x - p.x) + (q.y - p.y) * (q.y - p.y))
  -- the normal of the segment is a unit vector
  have hn : |-(q.y - p.y) / len| ≤ 1 := by
    rw [neg_div, abs_neg]
    exact abs_div_sqrtf_le_one hsqrt hpos (le_add_of_nonneg_left (mul_self_nonneg _))
  have hn' : |(q.x - p.x) / len| ≤ 1 := abs_div_sqrtf_le_one hsqrt hpos (le_add_of_nonneg_right (mul_self_nonneg _))
  obtain ⟨hleft, hright⟩ := mem_region_of_beside hp hh hn hn'
  obtain ⟨hleft', hright'⟩ := mem_region_of_beside hq hh' hn hn'
  refine Set.union_subset (Set.union_subset ?_ (disc_subset_region hp hh)) (disc_subset_region hq hh')
  refine convexPolygon_subset_Icc (List.cons_ne_nil _ _) ?_
  simp only [List.forall_mem_cons, List.not_mem_nil, false_implies, implies_true, and_true]
  exact ⟨hleft, hleft', hright', hright⟩

omit [Scalar K] in
/-- Both ends of a segment that is painted are points of the stroke. -/
theorem mem_rasterizeStrokeOnCr {cr : CairoContext K} {op : PaintOp K} (h : op ∈ rasterizeStrokeOnCr cr s) :
    ∃ p ∈ s.points, ∃ q ∈ s.points, op = drawInkSegment cr s.rgba p q := by
  unfold rasterizeStrokeOnCr at h
  split at h
  · cases h
  · next p hpoints =>
    exact ⟨p, by simp [hpoints], p, by simp [hpoints], List.mem_singleton.mp h⟩
  · obtain ⟨seg, hseg, rfl⟩ := mem_zipWith_drawInkSegment.mp h
    obtain ⟨hfst, hsnd⟩ := List.of_mem_zip hseg
    exact ⟨seg.1, hfst, seg.2, List.mem_of_mem_tail hsnd, rfl⟩

/-! ### What the reject leaves out -/

/-- What lies between points of the stroke is farther than the radius from an eraser segment whose box
misses that of the stroke. -/
theorem far_of_eraserMissesBbox (hsqrt : ExactSqrt K) (hs : s.Covered) (htilt : ∀ p ∈ s.points, 0 ≤ p.tiltFactor)
    (hr : 0 ≤ r) (hmiss : eraserMissesBbox s aX aY bX bY r) {e z : K × K} (he : e ∈ segment K (aX, aY) (bX, bY))
    (hz : z ∈ polyline (s.points.map InkPoint.xy)) : r * r < distSq e z := by
  obtain ⟨p, hp, q, hq, hz⟩ : ∃ p ∈ s.points, ∃ q ∈ s.points, z ∈ segment K (p.x, p.y) (q.x, q.y) := by
    rcases hz with hvertex | ⟨seg, hseg, hz⟩
    · obtain ⟨p, hp, rfl⟩ := List.mem_map.mp hvertex
      exact ⟨p, hp, p, hp, left_mem_segment K _ _⟩
    · obtain ⟨hfst, hsnd⟩ := mem_of_mem_segments hseg
      obtain ⟨p, hp, hpx⟩ := List.mem_map.mp hfst
      obtain ⟨q, hq, hqx⟩ := List.mem_map.mp hsnd
      rw [← hpx, ← hqx] at hz
      exact ⟨p, hp, q, hq, hz⟩
  obtain ⟨b, hb, hcovers⟩ := hs.exists_box (List.ne_nil_of_mem hp)
  by_contra hnear
  have hpass := eraserMissesBbox_eq_false hr hb ((hcovers p hp).holds hsqrt (htilt p hp))
    ((hcovers q hq).holds hsqrt (htilt q hq)) he hz (not_lt.mp hnear)
  rw [hpass] at hmiss
  exact Bool.noConfusion hmiss

/-- The test of the boxes does not change what is hit. The box covers the discs of the points and all
that painting the stroke fills, and where it misses the box of the eraser, every point of the centre
line is farther than the radius from every point of the eraser segment. -/
theorem strokeHitByEraser_eq_narrow (hsqrt : ExactSqrt K) (addr : ℕ) (rgba : Rgba K) (followScroll : Bool)
    (points : List (InkPoint K)) (htilt : ∀ p ∈ points, 1 ≤ p.tiltFactor) (aX aY bX bY r : K) (hr : 0 ≤ r) :
    let s := points.foldl strokeAppendPoint { strokeNewWithBox addr rgba with followScroll := followScroll }
    strokeHitByEraser s aX aY bX bY r = strokeHitByEraserNarrow s aX aY bX bY r ∧
      (∃ b, s.bbox = some b ∧ (∀ p ∈ points, disc p.xy (inkPointMaxHalfWidth p) ⊆ b.region) ∧
        ∀ cr, ∀ op ∈ rasterizeStrokeOnCr cr s, op.fill ⊆ b.region) ∧
      (eraserMissesBbox s aX aY bX bY r → ∀ e ∈ segment K (aX, aY) (bX, bY),
        ∀ z ∈ polyline (points.map InkPoint.xy), r * r < distSq e z) := by
  intro s
  have hpoints : s.points = points :=
    (foldl_strokeAppendPoint points { strokeNewWithBox addr rgba with followScroll := followScroll }).1
  have hcovered : s.Covered := covered_foldl rfl points
  have htilt' : ∀ p ∈ s.points, 0 ≤ p.tiltFactor := by
    intro p hp
    rw [hpoints] at hp
    exact zero_le_one.trans (htilt p hp)
  refine ⟨?_, ?_, fun hmiss e he z hz => ?_⟩
  · rw [Bool.eq_iff_iff, strokeHitByEraser_iff_of_covered hsqrt hcovered htilt' hr, strokeHitByEraserNarrow_iff]
  · by_cases hne : s.points = []
    · -- nothing is painted
      have hnil : points = [] := hpoints.symm.trans hne
      have hstart : s = { strokeNewWithBox addr rgba with followScroll := followScroll } := by simp [s, hnil]
      refine ⟨_, congrArg Stroke.bbox hstart, by simp [hnil], fun cr op hop => ?_⟩
      obtain ⟨p, hp, -⟩ := mem_rasterizeStrokeOnCr hop
      rw [hne] at hp
      cases hp
    · obtain ⟨b, hb, hcovers⟩ := hcovered.exists_box hne
      refine ⟨b, hb, fun p hp => ?_, fun cr op hop => ?_⟩
      · rw [← hpoints] at hp
        exact disc_subset_region (hcovers p hp) (inkPointMaxHalfWidth_nonneg hsqrt (htilt' p hp))
      · obtain ⟨p, hp, q, hq, rfl⟩ := mem_rasterizeStrokeOnCr hop
        exact fill_subset_region hsqrt (hcovers p hp) (hcovers q hq) (htilt' p hp) (htilt' q hq) cr s.rgba
  · rw [← hpoints] at hz
    exact far_of_eraserMissesBbox hsqrt hcovered htilt' hr hmiss he hz

/-- A line that is drawn with the pen tilted at its end, and an eraser segment along it. -/
theorem strokeHitByEraser_eq_narrow_line :
    let points : List (InkPoint ℝ) := [⟨0, 0, 1, 1, 0⟩, ⟨10, 0, 0.25, 2, 1⟩]
    let s := points.foldl strokeAppendPoint { strokeNewWithBox 0 ⟨0, 0, 0, 1⟩ with followScroll := true }
    strokeHitByEraser s 0 5 10 5 1 = strokeHitByEraserNarrow s 0 5 10 5 1 ∧
      (∃ b, s.bbox = some b ∧ (∀ p ∈ points, disc p.xy (inkPointMaxHalfWidth p) ⊆ b.region) ∧
        ∀ cr, ∀ op ∈ rasterizeStrokeOnCr cr s, op.fill ⊆ b.region) ∧
      (eraserMissesBbox s 0 5 10 5 1 → ∀ e ∈ segment ℝ (0, 5) (10, 5),
        ∀ z ∈ polyline (points.map InkPoint.xy), (1 : ℝ) * 1 < distSq e z) := by
  intro points
  have htilt : ∀ p ∈ points, 1 ≤ p.tiltFactor := by
    simp [points]
  exact strokeHitByEraser_eq_narrow exactSqrt_real 0 ⟨0, 0, 0, 1⟩ true points htilt 0 5 10 5 1 zero_le_one

end Annotations
