import Annotations.History.Undo
import Annotations.Plane.Polylines

/-! The eraser's hit test against the true distance of two polylines. The test measures from the
vertices of each to the other, so that it is right as long as the nearest points include a vertex;
it misses a stroke that the eraser crosses far from every vertex. -/

namespace Annotations.History

open Plane

variable {K : Type} [Scalar K] {a b e z : K × K} {r : K} {pts path : List (Pt K)}

/-- Where a point is. -/
def Pt.xy (q : Pt K) : K × K := (q.x, q.y)

/-! ### What the test takes for the other polyline -/

/-- What the test measures the distance to: all of a segment, or its first end when it is shorter than
`1e-9`. -/
def measured (a b : K × K) : Set (K × K) := if distSq b a < 1e-18 then {a} else segment K a b

theorem measured_subset : measured a b ⊆ segment K a b := by
  unfold measured
  split_ifs
  · exact Set.singleton_subset_iff.mpr (left_mem_segment K a b)
  · exact subset_rfl

theorem pointSegmentDistSq_le_iff :
    pointSegmentDistSq e.1 e.2 a.1 a.2 b.1 b.2 ≤ r ↔ ∃ z ∈ measured a b, distSq e z ≤ r := by
  unfold measured
  split_ifs with hshort
  · have hd : pointSegmentDistSq e.1 e.2 a.1 a.2 b.1 b.2 = distSq e a := if_pos hshort
    rw [hd]
    simp
  · have hd : pointSegmentDistSq e.1 e.2 a.1 a.2 b.1 b.2 = distSq e (along a b (foot a b e)) := if_neg hshort
    have hpos : 0 < distSq b a := lt_of_lt_of_le (by norm_num) (not_lt.mp hshort)
    rw [hd]
    constructor
    · intro hle
      exact ⟨_, mem_segment_iff_along.mpr ⟨_, foot_mem.1, foot_mem.2, rfl⟩, hle⟩
    · rintro ⟨z, hz, hle⟩
      obtain ⟨t, ht0, ht1, rfl⟩ := mem_segment_iff_along.mp hz
      exact (distSq_foot_le hpos ht0 ht1).trans hle

/-- The part of a polyline that the test measures to. -/
def measuredPart (pts : List (Pt K)) : Set (K × K) :=
  {z | pts.length = 1 ∧ z ∈ pts.map Pt.xy ∨ ∃ seg ∈ segments (pts.map Pt.xy), z ∈ measured seg.1 seg.2}

theorem measuredPart_subset : measuredPart pts ⊆ polyline (pts.map Pt.xy) := by
  rintro z (⟨-, hz⟩ | ⟨seg, hseg, hz⟩)
  · exact .inl hz
  · exact .inr ⟨seg, hseg, measured_subset hz⟩

omit [Scalar K] in
theorem segments_map_xy : segments (pts.map Pt.xy) = (pts.zip pts.tail).map fun seg => (seg.1.xy, seg.2.xy) := by
  rw [segments, ← List.map_tail, List.zip_map]
  rfl

theorem pointToPolylineDistSq_le_iff_measured (hne : pts ≠ []) :
    pointToPolylineDistSq e.1 e.2 pts ≤ ((r : K) : WithTop K) ↔ ∃ z ∈ measuredPart pts, distSq e z ≤ r := by
  match pts, hne with
  | [q], _ =>
    have hd : pointToPolylineDistSq e.1 e.2 [q] = ((distSq e q.xy : K) : WithTop K) := rfl
    rw [hd, WithTop.coe_le_coe]
    simp [measuredPart, segments]
  | p :: q :: rest, _ =>
    rw [pointToPolylineDistSq_le_iff (by simp)]
    unfold measuredPart
    rw [segments_map_xy]
    constructor
    · rintro ⟨seg, hseg, hle⟩
      obtain ⟨z, hz, hle'⟩ := pointSegmentDistSq_le_iff.mp (show pointSegmentDistSq e.1 e.2 seg.1.xy.1 seg.1.xy.2
        seg.2.xy.1 seg.2.xy.2 ≤ r from hle)
      exact ⟨z, .inr ⟨_, List.mem_map_of_mem hseg, hz⟩, hle'⟩
    · rintro ⟨z, ⟨hlength, -⟩ | ⟨seg, hseg, hz⟩, hle⟩
      · simp at hlength
      · obtain ⟨ends, hends, rfl⟩ := List.mem_map.mp hseg
        exact ⟨ends, hends, pointSegmentDistSq_le_iff.mpr ⟨z, hz, hle⟩⟩

/-! ### When the test is right -/

/-- A vertex of one of the polylines is within the radius of the measured part of the other. -/
def NearVertex (pts path : List (Pt K)) : Prop :=
  (∃ v ∈ pts, ∃ z ∈ measuredPart path, distSq v.xy z ≤ eraseRadiusSq) ∨
    ∃ v ∈ path, ∃ z ∈ measuredPart pts, distSq v.xy z ≤ eraseRadiusSq

/-- A vertex of one of the polylines is within the radius of a segment of the other that is shorter
than `1e-9`. -/
def NearShort (pts path : List (Pt K)) : Prop :=
  ∃ as bs, (as = pts ∧ bs = path ∨ as = path ∧ bs = pts) ∧ ∃ v ∈ as, ∃ seg ∈ segments (bs.map Pt.xy),
    distSq seg.2 seg.1 < 1e-18 ∧ ∃ z ∈ segment K seg.1 seg.2, distSq v.xy z ≤ eraseRadiusSq

theorem strokeHitByEraser_iff_nearVertex {s : Stroke K} (hs : s.pts ≠ []) (hpath : path ≠ []) :
    strokeHitByEraser s path ↔ NearVertex s.pts path := by
  rw [strokeHitByEraser_iff]
  unfold NearVertex
  constructor
  · rintro ⟨-, -, ⟨v, hv, hle⟩ | ⟨v, hv, hle⟩⟩
    · exact .inl ⟨v, hv, (pointToPolylineDistSq_le_iff_measured (e := v.xy) hpath).mp hle⟩
    · exact .inr ⟨v, hv, (pointToPolylineDistSq_le_iff_measured (e := v.xy) hs).mp hle⟩
  · rintro (⟨v, hv, hle⟩ | ⟨v, hv, hle⟩)
    · exact ⟨hs, hpath, .inl ⟨v, hv, (pointToPolylineDistSq_le_iff_measured (e := v.xy) hpath).mpr hle⟩⟩
    · exact ⟨hs, hpath, .inr ⟨v, hv, (pointToPolylineDistSq_le_iff_measured (e := v.xy) hs).mpr hle⟩⟩

/-- What the test does not measure of a polyline lies in its short segments. -/
theorem measuredPart_or_short (hz : z ∈ polyline (pts.map Pt.xy)) :
    z ∈ measuredPart pts ∨
      ∃ seg ∈ segments (pts.map Pt.xy), distSq seg.2 seg.1 < 1e-18 ∧ z ∈ segment K seg.1 seg.2 := by
  have hsegment : ∀ seg ∈ segments (pts.map Pt.xy), z ∈ segment K seg.1 seg.2 → z ∈ measuredPart pts ∨
      ∃ seg ∈ segments (pts.map Pt.xy), distSq seg.2 seg.1 < 1e-18 ∧ z ∈ segment K seg.1 seg.2 := by
    intro seg hseg hz
    rcases lt_or_ge (distSq seg.2 seg.1) 1e-18 with hshort | hlong
    · exact .inr ⟨seg, hseg, hshort, hz⟩
    · refine .inl (.inr ⟨seg, hseg, ?_⟩)
      rwa [measured, if_neg (not_lt.mpr hlong)]
  rcases hz with hvertex | ⟨seg, hseg, hz⟩
  · rcases Nat.lt_or_ge (pts.map Pt.xy).length 2 with hone | hlength
    · refine .inl (.inl ⟨?_, hvertex⟩)
      have hpos := List.length_pos_of_mem hvertex
      rw [List.length_map] at hone hpos
      omega
    · obtain ⟨seg, hseg, rfl | rfl⟩ := exists_segment_of_mem hlength hvertex
      · exact hsegment seg hseg (left_mem_segment K _ _)
      · exact hsegment seg hseg (right_mem_segment K _ _)
  · exact hsegment seg hseg hz

theorem NearVertex.within (h : NearVertex pts path) : Within (eraseRadius : K) (pts.map Pt.xy) (path.map Pt.xy) := by
  rcases h with ⟨v, hv, z, hz, hle⟩ | ⟨v, hv, z, hz, hle⟩
  · exact ⟨v.xy, .inl (List.mem_map_of_mem hv), z, measuredPart_subset hz, hle⟩
  · exact ⟨z, measuredPart_subset hz, v.xy, .inl (List.mem_map_of_mem hv), distSq_comm.trans_le hle⟩

theorem NearShort.within (h : NearShort pts path) : Within (eraseRadius : K) (pts.map Pt.xy) (path.map Pt.xy) := by
  obtain ⟨as, bs, horder, v, hv, seg, hseg, -, z, hz, hle⟩ := h
  rcases horder with ⟨rfl, rfl⟩ | ⟨rfl, rfl⟩
  · exact ⟨v.xy, .inl (List.mem_map_of_mem hv), z, .inr ⟨seg, hseg, hz⟩, hle⟩
  · exact ⟨z, .inr ⟨seg, hseg, hz⟩, v.xy, .inl (List.mem_map_of_mem hv), distSq_comm.trans_le hle⟩

/-- Polylines within the radius cross, or a vertex is within the radius. -/
theorem nearVertex_or_of_within (h : Within (eraseRadius : K) (pts.map Pt.xy) (path.map Pt.xy)) :
    NearVertex pts path ∨ Crosses (pts.map Pt.xy) (path.map Pt.xy) ∨ NearShort pts path := by
  obtain ⟨e, he, z, hz, hle⟩ := h
  by_cases hcross : Crosses (pts.map Pt.xy) (path.map Pt.xy)
  · exact .inr (.inl hcross)
  rcases exists_vertex_near hcross he hz with ⟨u, hu, w, hw, hnear⟩ | ⟨u, hu, w, hw, hnear⟩
  · obtain ⟨v, hv, rfl⟩ := List.mem_map.mp hu
    rcases measuredPart_or_short hw with hw | ⟨seg, hseg, hshort, hw⟩
    · exact .inl (.inl ⟨v, hv, w, hw, hnear.trans hle⟩)
    · exact .inr (.inr ⟨pts, path, .inl ⟨rfl, rfl⟩, v, hv, seg, hseg, hshort, w, hw, hnear.trans hle⟩)
  · obtain ⟨v, hv, rfl⟩ := List.mem_map.mp hu
    rcases measuredPart_or_short hw with hw | ⟨seg, hseg, hshort, hw⟩
    · exact .inl (.inr ⟨v, hv, w, hw, hnear.trans hle⟩)
    · exact .inr (.inr ⟨path, pts, .inr ⟨rfl, rfl⟩, v, hv, seg, hseg, hshort, w, hw, hnear.trans hle⟩)

/-- The test tells whether the polylines are within the radius, unless they cross or one has a short
segment there and every vertex is farther than the radius from what is measured of the other. -/
theorem strokeHitByEraser_exact_iff {s : Stroke K} (hs : s.pts ≠ []) (hpath : path ≠ []) :
    (strokeHitByEraser s path = true ↔ Within (eraseRadius : K) (s.pts.map Pt.xy) (path.map Pt.xy)) ↔
      (Crosses (s.pts.map Pt.xy) (path.map Pt.xy) ∨ NearShort s.pts path → NearVertex s.pts path) := by
  rw [strokeHitByEraser_iff_nearVertex hs hpath]
  constructor
  · rintro hexact (hcross | hshort)
    · exact hexact.mpr (hcross.within _)
    · exact hexact.mpr hshort.within
  · intro hnear
    refine ⟨NearVertex.within, fun hwithin => ?_⟩
    rcases nearVertex_or_of_within hwithin with hvertex | hcross | hshort
    · exact hvertex
    · exact hnear (.inl hcross)
    · exact hnear (.inr hshort)

/-- A stroke around a corner, and an eraser path that comes past its first point and turns away. -/
def samplePassed : Stroke ℚ × List (Pt ℚ) :=
  (⟨[], [⟨0, 0, 1⟩, ⟨100, 0, 1⟩, ⟨100, 80, 1⟩], -1⟩, [⟨-40, 5, 0⟩, ⟨-10, 5, 0⟩, ⟨30, 5, 0⟩, ⟨30, 90, 0⟩])

theorem strokeHitByEraser_exact_iff_passed :
    strokeHitByEraser samplePassed.1 samplePassed.2 = true ∧
      Within (eraseRadius : ℚ) (samplePassed.1.pts.map Pt.xy) (samplePassed.2.map Pt.xy) := by
  have hhit : strokeHitByEraser samplePassed.1 samplePassed.2 = true := by decide +kernel
  have hnear : NearVertex samplePassed.1.pts samplePassed.2 :=
    (strokeHitByEraser_iff_nearVertex (by simp [samplePassed]) (by simp [samplePassed])).mp hhit
  have hexact : strokeHitByEraser samplePassed.1 samplePassed.2 = true ↔ Within _ _ _ :=
    (strokeHitByEraser_exact_iff (by simp [samplePassed]) (by simp [samplePassed])).mpr fun _ => hnear
  exact ⟨hhit, hexact.mp hhit⟩

/-- A stroke of 100 pixels, and an eraser path across its middle. -/
def sampleCrossed : Stroke ℚ × List (Pt ℚ) := (⟨[], [⟨0, 0, 1⟩, ⟨100, 0, 1⟩], -1⟩, [⟨50, -50, 0⟩, ⟨50, 50, 0⟩])

theorem sampleCrossed_crosses : Crosses (sampleCrossed.1.pts.map Pt.xy) (sampleCrossed.2.map Pt.xy) := by
  refine ⟨((0, 0), (100, 0)), by simp [sampleCrossed, segments, Pt.xy], ((50, -50), (50, 50)), ?_, ?_⟩
  · simp [sampleCrossed, segments, Pt.xy]
  · unfold ProperCross cross
    norm_num

/-- The stroke that the eraser crosses is not removed. -/
theorem not_strokeHitByEraser_crossed :
    ¬ ∀ (s : Stroke ℚ) (path : List (Pt ℚ)), s.pts ≠ [] → path ≠ [] →
      (strokeHitByEraser s path = true ↔ Within (eraseRadius : ℚ) (s.pts.map Pt.xy) (path.map Pt.xy)) := by
  intro h
  have hhit := (h sampleCrossed.1 sampleCrossed.2 (by simp [sampleCrossed]) (by simp [sampleCrossed])).mpr
    (sampleCrossed_crosses.within _)
  exact absurd hhit (by decide +kernel)

end Annotations.History
