import Annotations.Plane.Polylines
import Annotations.Tracing.Boxes
import Annotations.Tracing.Scrolling

/-! What the eraser removes of the ink under its footprint. The hit test measures the
distance to the centre line of a stroke: the true one, except that a segment shorter than a
thousandth of a pixel counts as its first end. The brush paints around that line, and the radius
does not contain the half width of the stroke: ink can lie under the eraser and stay. -/

namespace Annotations

open Plane Runs

variable {K : Type} [Scalar K]

/-- The square root of the C library, on exact numbers. -/
def ExactSqrt (K : Type) [Scalar K] : Prop :=
  ∀ x : K, 0 ≤ x → 0 ≤ Scalar.sqrtf x ∧ Scalar.sqrtf x * Scalar.sqrtf x = x

/-- The hit test sees all of the segment: it is a point or no shorter than a thousandth. -/
def Plain (a b : K × K) : Prop := a = b ∨ 1e-6 ≤ distSq b a

/-- What the distance to a segment is measured to: all of it, or its first end when it is shorter than
a thousandth of a pixel. -/
def measuredTo (a b : K × K) : Set (K × K) := if distSq b a < 1e-6 then {a} else segment K a b

/-- Where a point is. -/
def InkPoint.xy (p : InkPoint K) : K × K := (p.x, p.y)

variable {s : Stroke K} {aX aY bX bY cX cY dX dY px py r : K} {a b p : K × K}

/-! ### The distances of the hit test -/

/-- The distance to a segment is the distance to a point of it. -/
theorem exists_pointToSegmentDistSq (px py aX aY bX bY : K) :
    ∃ z ∈ segment K (aX, aY) (bX, bY), distSq (px, py) z = pointToSegmentDistSq px py aX aY bX bY := by
  unfold pointToSegmentDistSq
  dsimp only
  split_ifs with hshort hlow hhigh
  · exact ⟨_, left_mem_segment K _ _, rfl⟩
  · exact ⟨_, along_mem_segment le_rfl zero_le_one, rfl⟩
  · exact ⟨_, along_mem_segment zero_le_one le_rfl, rfl⟩
  · exact ⟨_, along_mem_segment (not_lt.mp hlow) (not_lt.mp hhigh), rfl⟩

theorem pointToSegmentDistSq_of_short (h : distSq (bX, bY) (aX, aY) < 1e-6) :
    pointToSegmentDistSq px py aX aY bX bY = distSq (px, py) (aX, aY) := by
  unfold pointToSegmentDistSq
  exact if_pos h

theorem pointToSegmentDistSq_of_long (h : 1e-6 ≤ distSq (bX, bY) (aX, aY)) :
    pointToSegmentDistSq px py aX aY bX bY =
      distSq (px, py) (along (aX, aY) (bX, bY) (foot (aX, aY) (bX, bY) (px, py))) := by
  unfold pointToSegmentDistSq
  exact if_neg (not_lt.mpr h)

theorem pointToSegmentDistSq_nonneg : 0 ≤ pointToSegmentDistSq px py aX aY bX bY := by
  obtain ⟨z, _, hz⟩ := exists_pointToSegmentDistSq px py aX aY bX bY
  rw [← hz]
  exact distSq_nonneg

theorem measuredTo_subset : measuredTo a b ⊆ segment K a b := by
  unfold measuredTo
  split_ifs
  · exact Set.singleton_subset_iff.mpr (left_mem_segment K a b)
  · exact subset_rfl

theorem measuredTo_of_plain (h : Plain a b) : measuredTo a b = segment K a b := by
  unfold measuredTo
  split_ifs with hshort
  · rcases h with rfl | hlong
    · exact (segment_same K a).symm
    · exact absurd hshort (not_lt.mpr hlong)
  · rfl

theorem pointToSegmentDistSq_le_iff :
    pointToSegmentDistSq p.1 p.2 a.1 a.2 b.1 b.2 ≤ r ↔ ∃ z ∈ measuredTo a b, distSq p z ≤ r := by
  unfold measuredTo
  split_ifs with hshort
  · rw [pointToSegmentDistSq_of_short hshort]
    simp
  · have hlong : 1e-6 ≤ distSq b a := not_lt.mp hshort
    have hpos : 0 < distSq b a := lt_of_lt_of_le (by norm_num) hlong
    rw [pointToSegmentDistSq_of_long hlong]
    constructor
    · intro hle
      exact ⟨_, mem_segment_iff_along.mpr ⟨_, foot_mem.1, foot_mem.2, rfl⟩, hle⟩
    · rintro ⟨z, hz, hle⟩
      obtain ⟨t, ht0, ht1, rfl⟩ := mem_segment_iff_along.mp hz
      exact (distSq_foot_le hpos ht0 ht1).trans hle

theorem segmentToSegmentDist_of_cross (h : ProperCross (aX, aY) (bX, bY) (cX, cY) (dX, dY)) :
    segmentToSegmentDist aX aY bX bY cX cY dX dY = 0 := if_pos h

theorem segmentToSegmentDist_of_not_cross (h : ¬ ProperCross (aX, aY) (bX, bY) (cX, cY) (dX, dY)) :
    segmentToSegmentDist aX aY bX bY cX cY dX dY =
      Scalar.sqrtf (min (pointToSegmentDistSq dX dY aX aY bX bY) (min (pointToSegmentDistSq cX cY aX aY bX bY)
        (min (pointToSegmentDistSq bX bY cX cY dX dY) (pointToSegmentDistSq aX aY cX cY dX dY)))) := by
  unfold segmentToSegmentDist
  refine (if_neg h).trans ?_
  dsimp only
  simp only [← min_def_lt]

/-- Segments are near that cross, or with an end of the one near the other. -/
theorem segmentToSegmentDist_le_iff (hsqrt : ExactSqrt K) (hr : 0 ≤ r) :
    segmentToSegmentDist aX aY bX bY cX cY dX dY ≤ r ↔
      ProperCross (aX, aY) (bX, bY) (cX, cY) (dX, dY) ∨
        (pointToSegmentDistSq aX aY cX cY dX dY ≤ r * r ∨ pointToSegmentDistSq bX bY cX cY dX dY ≤ r * r) ∨
          pointToSegmentDistSq cX cY aX aY bX bY ≤ r * r ∨ pointToSegmentDistSq dX dY aX aY bX bY ≤ r * r := by
  have hroot : ∀ x : K, 0 ≤ x → (Scalar.sqrtf x ≤ r ↔ x ≤ r * r) := by
    intro x hx
    obtain ⟨hnonneg, hsq⟩ := hsqrt x hx
    conv_rhs => rw [← hsq]
    exact mul_self_le_mul_self_iff hnonneg hr
  by_cases hcross : ProperCross (aX, aY) (bX, bY) (cX, cY) (dX, dY)
  · rw [segmentToSegmentDist_of_cross hcross]
    exact iff_of_true hr (.inl hcross)
  · rw [segmentToSegmentDist_of_not_cross hcross, hroot]
    · simp only [min_le_iff, hcross, false_or]
      tauto
    · simp only [le_min_iff, pointToSegmentDistSq_nonneg, and_self]

/-- The distance of two segments is the distance of two points of them. -/
theorem exists_segmentToSegmentDist (hsqrt : ExactSqrt K) (aX aY bX bY cX cY dX dY : K) :
    ∃ e ∈ segment K (aX, aY) (bX, bY), ∃ z ∈ segment K (cX, cY) (dX, dY),
      distSq e z = segmentToSegmentDist aX aY bX bY cX cY dX dY * segmentToSegmentDist aX aY bX bY cX cY dX dY ∧
        0 ≤ segmentToSegmentDist aX aY bX bY cX cY dX dY := by
  by_cases hcross : ProperCross (aX, aY) (bX, bY) (cX, cY) (dX, dY)
  · obtain ⟨z, hz, hz'⟩ := exists_mem_of_cross hcross.1 hcross.2
    rw [segmentToSegmentDist_of_cross hcross]
    exact ⟨z, hz, z, hz', by simp [distSq_self], le_rfl⟩
  let Attained (x : K) : Prop := ∃ e ∈ segment K (aX, aY) (bX, bY), ∃ z ∈ segment K (cX, cY) (dX, dY), distSq e z = x
  have hmin : ∀ x y, Attained x → Attained y → Attained (min x y) := by
    intro x y hx hy
    rcases min_choice x y with h | h <;> rw [h]
    · exact hx
    · exact hy
  have hfirst : ∀ p ∈ segment K (aX, aY) (bX, bY), Attained (pointToSegmentDistSq p.1 p.2 cX cY dX dY) := by
    intro p hp
    obtain ⟨z, hz, hdist⟩ := exists_pointToSegmentDistSq p.1 p.2 cX cY dX dY
    exact ⟨p, hp, z, hz, hdist⟩
  have hsecond : ∀ p ∈ segment K (cX, cY) (dX, dY), Attained (pointToSegmentDistSq p.1 p.2 aX aY bX bY) := by
    intro p hp
    obtain ⟨e, he, hdist⟩ := exists_pointToSegmentDistSq p.1 p.2 aX aY bX bY
    exact ⟨e, he, p, hp, distSq_comm.trans hdist⟩
  obtain ⟨e, he, z, hz, hdist⟩ := hmin _ _ (hsecond _ (right_mem_segment K _ _)) (hmin _ _ (hsecond _ (left_mem_segment K _ _))
    (hmin _ _ (hfirst _ (right_mem_segment K _ _)) (hfirst _ (left_mem_segment K _ _))))
  have hroot := hsqrt (distSq e z) distSq_nonneg
  refine ⟨e, he, z, hz, ?_⟩
  rw [segmentToSegmentDist_of_not_cross hcross, ← hdist]
  exact ⟨hroot.2.symm, hroot.1⟩

/-! ### The box -/

/-- The point lies in the box. -/
def StrokeBbox.Holds (b : StrokeBbox K) (p : InkPoint K) : Prop :=
  (b.minX ≤ p.x ∧ p.x ≤ b.maxX) ∧ b.minY ≤ p.y ∧ p.y ≤ b.maxY

theorem pressureToWidthMultiplier_pos (hsqrt : ExactSqrt K) (pressure : K) :
    0 < pressureToWidthMultiplier pressure := by
  have hroot : ∀ x : K, 0 < x → 0 < Scalar.sqrtf x := by
    intro x hx
    obtain ⟨hnonneg, hsq⟩ := hsqrt x hx.le
    rcases hnonneg.lt_or_eq with hpos | hzero
    · exact hpos
    · rw [← hzero, mul_zero] at hsq
      exact absurd hsq hx.ne
  have hmin : (0 : K) < annotMinPressure := by norm_num [annotMinPressure]
  unfold pressureToWidthMultiplier
  dsimp only
  refine hroot _ ?_
  split_ifs with hlow hhigh hhigh
  · exact one_pos
  · exact hmin
  · exact one_pos
  · exact hmin.trans_le (not_lt.mp hlow)

theorem inkPointMaxHalfWidth_nonneg (hsqrt : ExactSqrt K) {p : InkPoint K} (hp : 0 ≤ p.tiltFactor) :
    0 ≤ inkPointMaxHalfWidth p := by
  have hwidth := (pressureToWidthMultiplier_pos hsqrt p.pressure).le
  have hbase : (0 : K) ≤ 0.5 * annotBaseWidth := by norm_num [annotBaseWidth]
  exact mul_nonneg (mul_nonneg hbase hwidth) hp

theorem StrokeBbox.Covers.holds {b : StrokeBbox K} {p : InkPoint K} (hsqrt : ExactSqrt K) (hp : 0 ≤ p.tiltFactor)
    (h : b.Covers p) : b.Holds p := by
  have hh := inkPointMaxHalfWidth_nonneg hsqrt hp
  have hwide : p.x - inkPointMaxHalfWidth p ≤ p.x ∧ p.x ≤ p.x + inkPointMaxHalfWidth p :=
    ⟨sub_le_self _ hh, le_add_of_nonneg_right hh⟩
  have hhigh : p.y - inkPointMaxHalfWidth p ≤ p.y ∧ p.y ≤ p.y + inkPointMaxHalfWidth p :=
    ⟨sub_le_self _ hh, le_add_of_nonneg_right hh⟩
  exact ⟨⟨h.left.trans hwide.1, hwide.2.trans h.right⟩, h.top.trans hhigh.1, hhigh.2.trans h.bottom⟩

/-- An eraser segment that comes within `r` of a point between points in the box is not
rejected. -/
theorem eraserMissesBbox_eq_false {b : StrokeBbox K} {p q : InkPoint K} {e z : K × K} (hr : 0 ≤ r)
    (hbox : s.bbox = some b) (hp : b.Holds p) (hq : b.Holds q) (he : e ∈ segment K (aX, aY) (bX, bY))
    (hz : z ∈ segment K (p.x, p.y) (q.x, q.y)) (hnear : distSq e z ≤ r * r) :
    eraserMissesBbox s aX aY bX bY r = false := by
  obtain ⟨hx, hy⟩ := abs_sub_le_of_distSq hr hnear
  rw [abs_le] at hx hy
  obtain ⟨hex, hex'⟩ := fst_mem_segment he
  obtain ⟨hey, hey'⟩ := snd_mem_segment he
  obtain ⟨hzx, hzx'⟩ := fst_mem_segment hz
  obtain ⟨hzy, hzy'⟩ := snd_mem_segment hz
  have hboxX : b.minX ≤ z.1 ∧ z.1 ≤ b.maxX := ⟨(le_min hp.1.1 hq.1.1).trans hzx, hzx'.trans (max_le hp.1.2 hq.1.2)⟩
  have hboxY : b.minY ≤ z.2 ∧ z.2 ≤ b.maxY := ⟨(le_min hp.2.1 hq.2.1).trans hzy, hzy'.trans (max_le hp.2.2 hq.2.2)⟩
  have hmin : ∀ x y : K, (if x < y then x else y) = min x y := fun x y => by
    rw [min_def_lt]
  have hmax : ∀ x y : K, (if y < x then x else y) = max x y := fun x y => by
    rw [max_comm, max_def_lt]
  simp only [eraserMissesBbox, hbox, hmin, hmax, Bool.or_eq_false_iff, decide_eq_false_iff_not, not_lt]
  exact ⟨⟨⟨by linarith, by linarith⟩, by linarith⟩, by linarith⟩

/-! ### The hit test -/

/-- The centre line of a stroke through the points comes within `r` of the eraser segment,
as the distances of the hit test go. -/
def centreLineWithin (points : List (InkPoint K)) (aX aY bX bY r : K) : Prop :=
  match points with
  | [] => False
  | [p] => pointToSegmentDistSq p.x p.y aX aY bX bY ≤ r * r
  | points => ∃ seg ∈ points.zip points.tail,
      segmentToSegmentDist aX aY bX bY seg.1.x seg.1.y seg.2.x seg.2.y ≤ r

/-- The box never decides: a stroke whose centre line is near is not rejected. -/
theorem strokeHitByEraser_iff_of_covered (hsqrt : ExactSqrt K) (hs : s.Covered)
    (htilt : ∀ p ∈ s.points, 0 ≤ p.tiltFactor) (hr : 0 ≤ r) :
    strokeHitByEraser s aX aY bX bY r ↔ centreLineWithin s.points aX aY bX bY r := by
  have hbox : s.points ≠ [] → ∃ b, s.bbox = some b ∧ ∀ p ∈ s.points, b.Holds p := by
    intro hne
    obtain ⟨b, hb, hcovers⟩ := hs.exists_box hne
    exact ⟨b, hb, fun p hp => (hcovers p hp).holds hsqrt (htilt p hp)⟩
  rcases hpoints : s.points with _ | ⟨p, _ | ⟨q, points⟩⟩
  · simp [strokeHitByEraser, centreLineWithin, hpoints]
  · obtain ⟨b, hb, hall⟩ := hbox (by simp [hpoints])
    have hp := hall p (by simp [hpoints])
    have hpass : pointToSegmentDistSq p.x p.y aX aY bX bY ≤ r * r →
        eraserMissesBbox s aX aY bX bY r = false := by
      intro hnear
      obtain ⟨e, he, hdist⟩ := exists_pointToSegmentDistSq p.x p.y aX aY bX bY
      rw [← hdist, distSq_comm] at hnear
      exact eraserMissesBbox_eq_false hr hb hp hp he (left_mem_segment K _ _) hnear
    simp only [strokeHitByEraser, centreLineWithin, hpoints]
    split_ifs with hmiss
    · rw [false_iff]
      exact fun hnear => by simp [hpass hnear] at hmiss
    · exact decide_eq_true_iff
  · obtain ⟨b, hb, hall⟩ := hbox (by simp [hpoints])
    rw [hpoints] at hall
    have hpass : ∀ seg ∈ (p :: q :: points).zip (q :: points),
        segmentToSegmentDist aX aY bX bY seg.1.x seg.1.y seg.2.x seg.2.y ≤ r →
        eraserMissesBbox s aX aY bX bY r = false := by
      intro seg hseg hnear
      obtain ⟨e, he, z, hz, hdist, hnonneg⟩ := exists_segmentToSegmentDist hsqrt aX aY bX bY seg.1.x seg.1.y
        seg.2.x seg.2.y
      obtain ⟨hfst, hsnd⟩ := List.of_mem_zip hseg
      refine eraserMissesBbox_eq_false hr hb (hall _ hfst) (hall _ (List.mem_cons_of_mem _ hsnd)) he hz ?_
      rw [hdist]
      exact mul_self_le_mul_self hnonneg hnear
    simp only [strokeHitByEraser, centreLineWithin, hpoints, List.tail_cons]
    split_ifs with hmiss
    · rw [false_iff]
      rintro ⟨seg, hseg, hnear⟩
      simp [hpass seg hseg hnear] at hmiss
    · simp only [List.any_eq_true, decide_eq_true_eq]

/-- The eraser segment comes within `r` of the centre line: the two cross, or an end of a segment of the
one is within `r` of what is measured of the other. -/
def CentreLineNear (pts : List (K × K)) (a b : K × K) (r : K) : Prop :=
  Crosses [a, b] pts ∨
    (∃ seg ∈ segments pts, ∃ z ∈ measuredTo seg.1 seg.2, distSq a z ≤ r * r ∨ distSq b z ≤ r * r) ∨
      ∃ v ∈ pts, ∃ z ∈ measuredTo a b, distSq v z ≤ r * r

theorem centreLineWithin_iff (hsqrt : ExactSqrt K) (hr : 0 ≤ r) (points : List (InkPoint K)) :
    centreLineWithin points a.1 a.2 b.1 b.2 r ↔ CentreLineNear (points.map InkPoint.xy) a b r := by
  unfold CentreLineNear
  match points with
  | [] => simp [centreLineWithin, Crosses, segments]
  | [q] =>
    have hdot : centreLineWithin [q] a.1 a.2 b.1 b.2 r ↔ ∃ z ∈ measuredTo a b, distSq q.xy z ≤ r * r :=
      pointToSegmentDistSq_le_iff (p := q.xy)
    rw [hdot]
    simp [Crosses, segments]
  | q :: q' :: rest =>
    have hsegments : segments ((q :: q' :: rest).map InkPoint.xy) =
        ((q :: q' :: rest).zip (q' :: rest)).map fun seg => (seg.1.xy, seg.2.xy) := by
      rw [segments, ← List.map_tail, List.zip_map]
      rfl
    have hsegment : ∀ seg : InkPoint K × InkPoint K,
        segmentToSegmentDist a.1 a.2 b.1 b.2 seg.1.x seg.1.y seg.2.x seg.2.y ≤ r ↔
          ProperCross a b seg.1.xy seg.2.xy ∨
            (∃ z ∈ measuredTo seg.1.xy seg.2.xy, distSq a z ≤ r * r ∨ distSq b z ≤ r * r) ∨
              (∃ z ∈ measuredTo a b, distSq seg.1.xy z ≤ r * r) ∨ ∃ z ∈ measuredTo a b, distSq seg.2.xy z ≤ r * r := by
      intro seg
      refine (segmentToSegmentDist_le_iff hsqrt hr).trans ?_
      have hend : ∀ u v w : K × K, pointToSegmentDistSq u.1 u.2 v.1 v.2 w.1 w.2 ≤ r * r ↔
          ∃ z ∈ measuredTo v w, distSq u z ≤ r * r := fun _ _ _ => pointToSegmentDistSq_le_iff
      have ha := hend a seg.1.xy seg.2.xy
      have hb := hend b seg.1.xy seg.2.xy
      have hc := hend seg.1.xy a b
      have hd := hend seg.2.xy a b
      simp only [InkPoint.xy] at ha hb hc hd ⊢
      rw [ha, hb, hc, hd]
      simp only [and_or_left, exists_or]
    -- every vertex is an end of a segment
    have hvertex : ∀ v ∈ (q :: q' :: rest).map InkPoint.xy,
        ∃ seg ∈ segments ((q :: q' :: rest).map InkPoint.xy), v = seg.1 ∨ v = seg.2 :=
      fun v hv => exists_segment_of_mem (by simp) hv
    simp only [centreLineWithin, List.tail_cons, hsegment]
    constructor
    · rintro ⟨seg, hseg, h⟩
      have hmem : (seg.1.xy, seg.2.xy) ∈ segments ((q :: q' :: rest).map InkPoint.xy) := by
        rw [hsegments]
        exact List.mem_map_of_mem hseg
      have hends := mem_of_mem_segments hmem
      rcases h with hcross | hend | hfst | hsnd
      · exact .inl ⟨(a, b), List.mem_singleton_self _, _, hmem, hcross⟩
      · exact .inr (.inl ⟨_, hmem, hend⟩)
      · exact .inr (.inr ⟨_, hends.1, hfst⟩)
      · exact .inr (.inr ⟨_, hends.2, hsnd⟩)
    · have hof : ∀ seg ∈ segments ((q :: q' :: rest).map InkPoint.xy),
          ∃ seg₀ ∈ (q :: q' :: rest).zip (q' :: rest), (seg₀.1.xy, seg₀.2.xy) = seg := by
        intro seg hseg
        rw [hsegments] at hseg
        exact List.mem_map.mp hseg
      rintro (⟨ab, hab, seg, hseg, hcross⟩ | ⟨seg, hseg, hend⟩ | ⟨v, hv, hnear⟩)
      · obtain rfl : ab = (a, b) := List.mem_singleton.mp hab
        obtain ⟨seg₀, hseg₀, rfl⟩ := hof seg hseg
        exact ⟨seg₀, hseg₀, .inl hcross⟩
      · obtain ⟨seg₀, hseg₀, rfl⟩ := hof seg hseg
        exact ⟨seg₀, hseg₀, .inr (.inl hend)⟩
      · obtain ⟨seg, hseg, hv⟩ := hvertex v hv
        obtain ⟨seg₀, hseg₀, rfl⟩ := hof seg hseg
        rcases hv with rfl | rfl
        · exact ⟨seg₀, hseg₀, .inr (.inr (.inl hnear))⟩
        · exact ⟨seg₀, hseg₀, .inr (.inr (.inr hnear))⟩

/-- Where no segment is shorter than a thousandth, that is the true distance of the two polylines. -/
theorem centreLineNear_iff_within {pts : List (K × K)} (hab : Plain a b) (hpts : ∀ seg ∈ segments pts, Plain seg.1 seg.2) :
    CentreLineNear pts a b r ↔ Within r [a, b] pts := by
  have hsegment : ∀ {z}, z ∈ segment K a b → z ∈ polyline [a, b] := fun hz =>
    .inr ⟨(a, b), List.mem_singleton_self _, hz⟩
  constructor
  · rintro (hcross | ⟨seg, hseg, z, hz, hend⟩ | ⟨v, hv, z, hz, hnear⟩)
    · exact hcross.within r
    · have hz' : z ∈ polyline pts := .inr ⟨seg, hseg, measuredTo_subset hz⟩
      rcases hend with hnear | hnear
      · exact ⟨a, hsegment (left_mem_segment K a b), z, hz', hnear⟩
      · exact ⟨b, hsegment (right_mem_segment K a b), z, hz', hnear⟩
    · exact ⟨z, hsegment (measuredTo_subset hz), v, .inl hv, distSq_comm.trans_le hnear⟩
  · rintro ⟨e, he, z, hz, hnear⟩
    by_cases hcross : Crosses [a, b] pts
    · exact .inl hcross
    have hvertex : ∀ v ∈ pts, ∀ w ∈ segment K a b, distSq v w ≤ r * r → CentreLineNear pts a b r := by
      intro v hv w hw hle
      exact .inr (.inr ⟨v, hv, w, by rwa [measuredTo_of_plain hab], hle⟩)
    rcases exists_vertex_near hcross he hz with ⟨v, hv, w, hw, hle⟩ | ⟨v, hv, w, hw, hle⟩
    · have hends : v = a ∨ v = b := by simpa using hv
      rcases hw with hw | ⟨seg, hseg, hw⟩
      · refine hvertex w hw v ?_ (distSq_comm.trans_le (hle.trans hnear))
        rcases hends with rfl | rfl
        · exact left_mem_segment K _ _
        · exact right_mem_segment K _ _
      · refine .inr (.inl ⟨seg, hseg, w, by rwa [measuredTo_of_plain (hpts seg hseg)], ?_⟩)
        rcases hends with rfl | rfl
        · exact .inl (hle.trans hnear)
        · exact .inr (hle.trans hnear)
    · refine hvertex v hv w ?_ (hle.trans hnear)
      rcases hw with hw | ⟨seg, hseg, hw⟩
      · rcases (by simpa using hw : w = a ∨ w = b) with rfl | rfl
        · exact left_mem_segment K _ _
        · exact right_mem_segment K _ _
      · obtain rfl : seg = (a, b) := List.mem_singleton.mp hseg
        exact hw

theorem strokeHitByEraser_iff (hsqrt : ExactSqrt K) (hs : s = s.through s.points)
    (htilt : ∀ p ∈ s.points, 0 ≤ p.tiltFactor) (hr : 0 ≤ r) :
    strokeHitByEraser s aX aY bX bY r ↔ centreLineWithin s.points aX aY bX bY r := by
  have hcovered : s.Covered := by
    rw [hs]
    exact covered_foldl rfl s.points
  exact strokeHitByEraser_iff_of_covered hsqrt hcovered htilt hr

/-! ### The ink -/

/-- Everything a segment fills is farther than `r` from `e`. For the discs this is a matter
of the distance to their centres. -/
def brushClear (x1 y1 x2 y2 w1 w2 r : K) (e : K × K) : Prop :=
  let dx := x2 - x1
  let dy := y2 - y1
  let len2 := dx * dx + dy * dy
  let len := Scalar.sqrtf len2
  let nx := -dy / len
  let ny := dx / len
  let hx1 := nx * w1 * 0.5
  let hy1 := ny * w1 * 0.5
  let hx2 := nx * w2 * 0.5
  let hy2 := ny * w2 * 0.5
  (r + w1 * 0.5) * (r + w1 * 0.5) ≤ distSq e (x1, y1) ∧
    (0.25 ≤ len2 → (r + w2 * 0.5) * (r + w2 * 0.5) ≤ distSq e (x2, y2) ∧
      ∀ q ∈ convexPolygon [(x1 + hx1, y1 + hy1), (x2 + hx2, y2 + hy2), (x2 - hx2, y2 - hy2),
        (x1 - hx1, y1 - hy1)], r * r < distSq e q)

def PaintOp.clear (op : PaintOp K) (r : K) (e : K × K) : Prop :=
  brushClear op.x1 op.y1 op.x2 op.y2 (brushWidth op.p1 op.tilt1) (brushWidth op.p2 op.tilt2) r e

theorem brushClear_iff {x1 y1 x2 y2 w1 w2 : K} {e : K × K} (hr : 0 < r) (hw1 : 0 < w1) (hw2 : 0 < w2) :
    brushClear x1 y1 x2 y2 w1 w2 r e ↔ ∀ q ∈ brushFill x1 y1 x2 y2 w1 w2, r * r < distSq e q := by
  have hdisc : ∀ w : K, 0 < w → ∀ c : K × K,
      (r + w * 0.5) * (r + w * 0.5) ≤ distSq e c ↔ ∀ q ∈ disc c (w * 0.5), r * r < distSq e q := fun w hw c =>
    (disc_far_iff hr (mul_pos hw (by norm_num))).symm
  unfold brushClear brushFill
  dsimp only
  rw [hdisc w1 hw1, hdisc w2 hw2]
  split_ifs with hshort
  · simp [not_le.mpr hshort]
  · simp only [not_lt.mp hshort, forall_const, Set.mem_union, or_imp, forall_and]
    tauto

/-! ### The tilt of the points of a run -/

/-- Tilt only widens: all points, and the tip of the pen, have a tilt factor of one or
more. -/
structure Tilted (d : Drawing K) : Prop where
  points : d.Every fun _ s => ∀ p ∈ s.points, 1 ≤ p.tiltFactor
  tip : 1 ≤ d.tip.tiltFactor

section Tilt

variable {L : Permit K} {d e : Drawing K}

theorem Move.tilted (hm : Move L d e) (hpress : ∀ c follow tip, L.press c follow tip → 1 ≤ tip.tiltFactor)
    (htrace : ∀ c tip, L.trace c tip → 1 ≤ tip.tiltFactor) (h : Tilted d) : Tilted e where
  points := by
    have hstored : ∀ tip, (d.stored tip).tiltFactor = tip.tiltFactor := fun tip => (Drawing.Stores.rest_eq (.inr rfl)).2.1
    have hpressed : ∀ tip, (d.pressed tip).tiltFactor = tip.tiltFactor := fun tip => (Drawing.Stores.rest_eq (.inl rfl)).2.1
    refine hm.every h.points (fun _ _ _ _ => ?_) (fun tip _ htip _ _ _ => ?_) fun before s tip _ htip _ _ _ _ _ hs => ?_
    · simpa [hpressed] using h.tip
    · simpa [hstored] using And.intro h.tip (htrace _ _ htip)
    · intro p hp
      rcases List.mem_append.mp hp with hp | hp
      · exact hs p hp
      · rw [List.mem_singleton.mp hp, hstored]
        exact htrace _ _ htip
  tip := by
    have hlift : ∀ (e : Drawing K) (C : Canvas → Bool), (e.liftFrom C).tip = e.tip := by
      intro e C
      unfold Drawing.liftFrom
      split_ifs <;> rfl
    cases hm with
    | press c follow tip htip hstamp hc hfollow hstrand => exact hpress _ _ _ htip
    | resume strokes surface tip hink htip hstamp hdown hcur hstrokes hsurface hleak => exact htrace _ _ htip
    | extend before s surface tip hink htip hstamp hdown hcur hstrokes hsurface hleak htint => exact htrace _ _ htip
    | hover tip htip hstamp hdown hcur => exact htrace _ _ htip
    | detach win =>
      rw [hlift]
      exact h.tip
    | wipe C =>
      rw [hlift]
      exact h.tip
    | _ => exact h.tip

end Tilt

namespace MetaAnnotationLayer

variable {layer : MetaAnnotationLayer K} {display : MetaDisplay} {input : AnnotationInput K} {width height : ℤ}
  {ops : List (LayerOp K)}

theorem one_le_getTiltFactor {event : ClutterEvent K} {t : K} (h : event.getTiltFactor = some t) : 1 ≤ t := by
  have hboost : (0 : K) ≤ annotTiltWidthBoost := by norm_num [annotTiltWidthBoost]
  unfold ClutterEvent.getTiltFactor at h
  split at h
  · cases h
  · obtain ⟨axes, _, h⟩ := Option.bind_eq_some_iff.mp h
    split at h
    · obtain rfl := Option.some.inj h
      refine le_add_of_nonneg_right (mul_nonneg hboost ?_)
      split_ifs with h0 h1 h1
      · exact zero_le_one
      · exact le_rfl
      · exact zero_le_one
      · exact not_lt.mp h0
    · cases h

theorem one_le_getD {event : ClutterEvent K} {last : K} (hlast : 1 ≤ last) : 1 ≤ event.getTiltFactor.getD last := by
  cases htilt : event.getTiltFactor with
  | none => exact hlast
  | some t => exact one_le_getTiltFactor htilt

theorem placedTip_tiltFactor (x y : K) (pressure tiltFactor : Option K) :
    (layer.placedTip x y pressure tiltFactor).tiltFactor = tiltFactor.getD 1 := rfl

theorem tilted_step (hkept : Kept layer) (op : LayerOp K) (h : Tilted layer.drawing) :
    Tilted (layer.step op).drawing := by
  have htilted : Tilted (layer.exec op).drawing := by
    refine (traces_exec hkept.wellFormed hkept.sound hkept.surfaced op).invariant
      (fun _ _ hm => hm.tilted (fun c follow tip hL => ?_) fun c tip hL => ?_) h
    · cases op with
      | handleEvent event nowUs =>
        obtain ⟨_, _, _, rfl⟩ := hL
        rw [placedTip_tiltFactor]
        exact one_le_getD le_rfl
      | call call => exact absurd hL id
      | setChromePressActive id => exact absurd hL fun h => h
      | clearChromePress => exact absurd hL id
    · cases op with
      | handleEvent event nowUs =>
        obtain ⟨_, _, rfl⟩ := hL
        exact one_le_getD h.tip
      | call call => exact absurd hL id
      | setChromePressActive id => exact absurd hL fun h => h
      | clearChromePress => exact absurd hL id
  exact ⟨htilted.points, htilted.tip⟩

theorem tilted_after : Tilted (after display input width height ops).drawing := by
  have hnew : Tilted (metaAnnotationLayerNew display input width height).drawing :=
    traces_new.invariant (fun _ _ hm => hm.tilted (fun _ _ _ h => absurd h id) fun _ _ h => absurd h id)
      ⟨every_zero _, le_rfl⟩
  have hinv : Kept (after display input width height ops) ∧ Tilted (after display input width height ops).drawing :=
    run_invariant (P := fun layer : MetaAnnotationLayer K => Kept layer ∧ Tilted layer.drawing)
      (fun _ op h => ⟨kept_step h.1 op, tilted_step h.1 op h.2⟩) ⟨kept_new, hnew⟩
  exact hinv.2

/-- Every stroke of a run is what its points, none of them narrowed by the tilt, are drawn through. -/
theorem built_after {c : Canvas} {strokes : List (Stroke K)}
    (hstrokes : (after display input width height ops).canvasStrokes c = some strokes) (hs : s ∈ strokes) :
    s = s.through s.points ∧ ∀ p ∈ s.points, 1 ≤ p.tiltFactor := by
  refine ⟨?_, tilted_after.points c strokes hstrokes s hs⟩
  rw [after, ← stateAt_length] at hstrokes
  exact boxed_stateAt ops.length c strokes hstrokes s hs

/-! ### The footprint -/

/-- Some ink of a stroke that does not follow the scroll is within `r` of the eraser
segment. -/
def InkWithin (s : Stroke K) (aX aY bX bY r : K) : Prop :=
  ∃ e ∈ segment K (aX, aY) (bX, bY), ∃ q ∈ inkOf (rasterizeStrokeOnCr cairoCreate s), distSq e q ≤ r * r

/-- All ink of the stroke keeps clear of the eraser segment. -/
def InkClear (s : Stroke K) (aX aY bX bY r : K) : Prop :=
  ∀ op ∈ rasterizeStrokeOnCr cairoCreate s, ∀ e ∈ segment K (aX, aY) (bX, bY), op.clear r e

theorem mem_rasterizeStrokeOnCr {op : PaintOp K} (h : op ∈ rasterizeStrokeOnCr cairoCreate s) :
    ∃ p ∈ s.points, ∃ q ∈ s.points, op = drawInkSegment cairoCreate s.rgba p q := by
  have hzip : ∀ l l' : List (InkPoint K), op ∈ List.zipWith (drawInkSegment cairoCreate s.rgba) l l' →
      ∃ p ∈ l, ∃ q ∈ l', op = drawInkSegment cairoCreate s.rgba p q := by
    intro l l' hop
    rw [← List.map_uncurry_zip_eq_zipWith] at hop
    obtain ⟨⟨p, q⟩, hpq, rfl⟩ := List.mem_map.mp hop
    exact ⟨p, (List.of_mem_zip hpq).1, q, (List.of_mem_zip hpq).2, rfl⟩
  unfold rasterizeStrokeOnCr at h
  split at h
  · cases h
  · next p hpoints =>
    rw [List.mem_singleton.mp h, hpoints]
    exact ⟨p, List.mem_cons_self, p, List.mem_cons_self, rfl⟩
  · obtain ⟨p, hp, q, hq, hop⟩ := hzip _ _ h
    exact ⟨p, hp, q, List.mem_of_mem_tail hq, hop⟩

theorem inkClear_iff (hsqrt : ExactSqrt K) (htilt : ∀ p ∈ s.points, 1 ≤ p.tiltFactor) (hr : 0 < r) :
    InkClear s aX aY bX bY r ↔ ¬ InkWithin s aX aY bX bY r := by
  have hwidth : ∀ p ∈ s.points, 0 < brushWidth p.pressure p.tiltFactor := by
    intro p hp
    have hbase : (0 : K) < annotBaseWidth := by norm_num [annotBaseWidth]
    exact mul_pos (mul_pos hbase (pressureToWidthMultiplier_pos hsqrt _)) (one_pos.trans_le (htilt p hp))
  have hclear : ∀ op ∈ rasterizeStrokeOnCr cairoCreate s, ∀ e,
      op.clear r e ↔ ∀ q ∈ op.inked, r * r < distSq e q := by
    intro op hop e
    obtain ⟨p, hp, q, hq, rfl⟩ := mem_rasterizeStrokeOnCr hop
    have hfill : ∀ x, x ∈ (drawInkSegment cairoCreate s.rgba p q).inked ↔
        x ∈ (drawInkSegment cairoCreate s.rgba p q).fill := fun _ => mem_inked_cairoCreate rfl
    simp only [hfill]
    exact brushClear_iff hr (hwidth p hp) (hwidth q hq)
  constructor
  · rintro h ⟨e, he, q, ⟨op, hop, hq⟩, hnear⟩
    exact absurd ((hclear op hop e).mp (h op hop e he) q hq) (not_lt.mpr hnear)
  · intro h op hop e he
    refine (hclear op hop e).mpr fun q hq => ?_
    by_contra hnear
    exact h ⟨e, he, q, ⟨op, hop, hq⟩, not_lt.mp hnear⟩

theorem eraserRadius_pos (pEnd tEnd : K) : 0 < eraserRadius pEnd tEnd := by
  have hmin : (0 : K) < annotEraseMinRadius := by norm_num [annotEraseMinRadius]
  unfold eraserRadius
  dsimp only
  split_ifs with h
  · exact hmin
  · exact hmin.trans_le (not_lt.mp h)

/-- The eraser removes a stroke whose ink it touches exactly when it comes within the radius of the
centre line, or not within the radius of the ink. Where no segment is shorter than a thousandth of a
pixel, the first is the true distance of the eraser segment from the centre line. -/
theorem erases_touched_iff (hsqrt : ExactSqrt K) (display : MetaDisplay) (input : AnnotationInput K)
    (width height : ℤ) (ops : List (LayerOp K)) (c : Canvas) (strokes : List (Stroke K))
    (hstrokes : (after display input width height ops).canvasStrokes c = some strokes) (s : Stroke K)
    (hs : s ∈ strokes) (hfollow : s.followScroll = false) (aX aY bX bY pEnd tEnd : K) (ink : Option (WindowInk K)) :
    let r := eraserRadius pEnd tEnd
    let line := s.points.map InkPoint.xy
    let near := CentreLineNear line (aX, aY) (bX, bY) r
    ((InkWithin s aX aY bX bY r → s ∉ (eraseStrokesHitBySegment strokes aX aY bX bY r ink).1) ↔
        near ∨ InkClear s aX aY bX bY r) ∧
      (Plain (aX, aY) (bX, bY) → (∀ seg ∈ segments line, Plain seg.1 seg.2) →
        (near ↔ Within r [(aX, aY), (bX, bY)] line)) := by
  intro r line near
  obtain ⟨hboxed, htilt⟩ := built_after hstrokes hs
  have hr : 0 < r := eraserRadius_pos pEnd tEnd
  have hremoved : s ∉ (eraseStrokesHitBySegment strokes aX aY bX bY r ink).1 ↔ near := by
    refine Iff.trans ?_ (centreLineWithin_iff hsqrt hr.le s.points)
    rw [← strokeHitByEraser_iff hsqrt hboxed (fun p hp => zero_le_one.trans (htilt p hp)) hr.le,
      eraseStrokesHitBySegment_fst]
    simp [hs, strokeHitBySegment, hfollow]
  refine ⟨?_, centreLineNear_iff_within⟩
  rw [hremoved, inkClear_iff hsqrt htilt hr]
  tauto

/-- The real numbers, without rounding and with the closed hit test of graphene. -/
noncomputable instance : Scalar ℝ where
  __ := (inferInstance : Field ℝ)
  __ := (inferInstance : LinearOrder ℝ)
  __ := (inferInstance : IsStrictOrderedRing ℝ)
  sqrtf := Real.sqrt
  grapheneRectContainsPoint x y width height px py :=
    x ≤ px && px ≤ x + width && y ≤ py && py ≤ y + height
  toFloat := id
  toFloat_mono := monotone_id
  toFloat_keeps := id_keeps

instance : ExactFloats ℝ := ⟨fun _ => rfl⟩

theorem exactSqrt_real : ExactSqrt ℝ := fun x hx => ⟨Real.sqrt_nonneg x, Real.mul_self_sqrt hx⟩

/-- A press with a pen at the corner of an empty stage, over the real numbers. -/
theorem erases_touched_iff_press :
    let input : AnnotationInput ℝ := ⟨false, false, 0, 0, 0⟩
    let press : ClutterEvent ℝ :=
      ⟨.buttonPress, some ⟨1, .tablet, false, true, none, none⟩, some .pen, 0, 0, 1, true, none, 0⟩
    ∃ strokes s, (after .bare input 10 10 [.call (.setActive true), .handleEvent press 0]).canvasStrokes none =
        some strokes ∧ s ∈ strokes ∧
      ((InkWithin s 0 0 0 0 (eraserRadius 1 1) →
          s ∉ (eraseStrokesHitBySegment strokes 0 0 0 0 (eraserRadius 1 1) none).1) ↔
        Within (eraserRadius 1 1) [(0, 0), (0, 0)] (s.points.map InkPoint.xy) ∨ InkClear s 0 0 0 0 (eraserRadius 1 1)) := by
  intro input press
  have hstrokes : (after .bare input 10 10 [.call (.setActive true), .handleEvent press 0]).canvasStrokes none =
      some [strokeAppendPoint (strokeNew 0 ⟨0.15, 0.15, 0.15, 1⟩) ⟨0, 0, 1, 1, 1⟩] := rfl
  obtain ⟨hexact, htrue⟩ :=
    erases_touched_iff exactSqrt_real _ _ _ _ _ _ _ hstrokes _ (List.mem_singleton_self _) rfl 0 0 0 0 1 1 none
  refine ⟨_, _, hstrokes, List.mem_singleton_self _, ?_⟩
  rw [← htrue (.inl rfl) (by simp [segments, strokeNew])]
  exact hexact

/-- A dot of radius three at the corner, and an eraser of radius eight that moves on the spot
ten pixels away: the dot stays, though some of its ink is within eight pixels. -/
theorem not_erases_touched :
    let dot : Stroke ℚ := [⟨0, 0, 1, 1, 1⟩, ⟨0, 0, 1, 1, 2⟩].foldl strokeAppendPoint (strokeNew 0 ⟨0.15, 0.15, 0.15, 1⟩)
    let draw : List (LayerOp ℚ) := [.call (.setActive true), .handleEvent (.pen .buttonPress 0 0 1 true) 0,
      .handleEvent (.pen .buttonRelease 0 0 1 false) 0]
    let erase : List (LayerOp ℚ) :=
      [.handleEvent { ClutterEvent.pen .buttonPress 10 0 1 true with tool := some .eraser } 0,
        .handleEvent { ClutterEvent.pen .motion 10 0 1 true with tool := some .eraser } 0]
    (after .bare .initial 100 100 draw).canvasStrokes none = some [dot] ∧
      (after .bare .initial 100 100 (draw ++ erase)).canvasStrokes none = some [dot] ∧
      dot.followScroll = false ∧ eraserRadius (1 : ℚ) 1 = 8 ∧ InkWithin dot 10 0 10 0 8 := by
  intro dot draw erase
  have hroot : brushWidth (1 : ℚ) 1 * 0.5 = 3 := by decide +kernel
  refine ⟨by decide +kernel, by decide +kernel, rfl, by decide +kernel, (10, 0), left_mem_segment ℚ _ _, (5 / 2, 0), ?_, ?_⟩
  · refine mem_inkOf.mpr ⟨_, List.mem_singleton_self _, (mem_inked_cairoCreate rfl).mpr ?_⟩
    rw [PaintOp.fill, drawInkSegment, drawSegmentOnCr, brushFill_self, hroot, mem_disc]
    norm_num
  · norm_num [distSq]

end MetaAnnotationLayer

end Annotations
