import Annotations.Layer.Recompose

/-! Erase hit-testing: distances between points and segments, the hit test of one
stroke, and the loop that removes the strokes a segment of the eraser touches. -/

namespace Annotations

open Scalar (toFloat)

variable {K : Type} [Scalar K]

/-- `point_to_segment_dist_sq`. -/
def pointToSegmentDistSq (px py aX aY bX bY : K) : K :=
  let dx := bX - aX
  let dy := bY - aY
  let len2 := dx * dx + dy * dy
  if len2 < 1e-6 then
    let ddx := px - aX
    let ddy := py - aY
    ddx * ddx + ddy * ddy
  else
    let t := ((px - aX) * dx + (py - aY) * dy) / len2
    let t := if t < 0 then 0 else if 1 < t then 1 else t
    let qx := aX + t * dx
    let qy := aY + t * dy
    let ex := px - qx
    let ey := py - qy
    ex * ex + ey * ey

/-- `segment_to_segment_dist`: zero for a proper crossing, else the least of the four
distances from an end of one segment to the other. -/
def segmentToSegmentDist (aX aY bX bY cX cY dX dY : K) : K :=
  let r1 := (dX - cX) * (aY - cY) - (dY - cY) * (aX - cX)
  let r2 := (dX - cX) * (bY - cY) - (dY - cY) * (bX - cX)
  let r3 := (bX - aX) * (cY - aY) - (bY - aY) * (cX - aX)
  let r4 := (bX - aX) * (dY - aY) - (bY - aY) * (dX - aX)
  if ((0 < r1 ∧ r2 < 0) ∨ (r1 < 0 ∧ 0 < r2)) ∧ ((0 < r3 ∧ r4 < 0) ∨ (r3 < 0 ∧ 0 < r4)) then 0
  else
    let d1 := pointToSegmentDistSq aX aY cX cY dX dY
    let d2 := pointToSegmentDistSq bX bY cX cY dX dY
    let d3 := pointToSegmentDistSq cX cY aX aY bX bY
    let d4 := pointToSegmentDistSq dX dY aX aY bX bY
    let d1 := if d2 < d1 then d2 else d1
    let d1 := if d3 < d1 then d3 else d1
    let d1 := if d4 < d1 then d4 else d1
    Scalar.sqrtf d1

/-- The broad phase of `stroke_hit_by_eraser`. A stroke with points has a box. -/
def eraserMissesBbox (s : Stroke K) (aX aY bX bY r : K) : Bool :=
  match s.bbox with
  | none => true
  | some b =>
    let exMin := (if aX < bX then aX else bX) - r
    let exMax := (if bX < aX then aX else bX) + r
    let eyMin := (if aY < bY then aY else bY) - r
    let eyMax := (if bY < aY then aY else bY) + r
    exMax < b.minX || b.maxX < exMin || eyMax < b.minY || b.maxY < eyMin

/-- `stroke_hit_by_eraser`. -/
def strokeHitByEraser (s : Stroke K) (aX aY bX bY r : K) : Bool :=
  match s.points with
  | [] => false
  | [p] =>
    if eraserMissesBbox s aX aY bX bY r then false
    else pointToSegmentDistSq p.x p.y aX aY bX bY ≤ r * r
  | points =>
    if eraserMissesBbox s aX aY bX bY r then false
    else (points.zip points.tail).any fun seg =>
      segmentToSegmentDist aX aY bX bY seg.1.x seg.1.y seg.2.x seg.2.y ≤ r

/-- The point lies in the editor region of the record. -/
def WindowInk.editorContains (ink : WindowInk K) (x y : K) : Bool :=
  ink.editorX ≤ x && x < toFloat (ink.editorX + ink.editorW) && ink.editorY ≤ y &&
    y < toFloat (ink.editorY + ink.editorH)

/-- The point in the content space of the editor. -/
def WindowInk.toContent (ink : WindowInk K) (x y : K) : K × K :=
  (toFloat (toFloat (x - ink.editorX) + ink.scrollX), toFloat (toFloat (y - ink.editorY) + ink.scrollY))

/-- The test the erase loop makes of one stroke. Follow-scroll strokes are tested in
content space, and only while an end of the eraser segment is in the editor region. -/
def strokeHitBySegment (ink : Option (WindowInk K)) (aX aY bX bY eraserRadius : K)
    (s : Stroke K) : Bool :=
  if s.followScroll then
    match ink with
    | none => false
    | some i =>
      if !hasRegion ink || !(i.editorContains aX aY || i.editorContains bX bY) then false
      else
        let a := i.toContent aX aY
        let b := i.toContent bX bY
        strokeHitByEraser s a.1 a.2 b.1 b.2 eraserRadius
  else strokeHitByEraser s aX aY bX bY eraserRadius

/-- `erase_strokes_hit_by_segment`: the loop runs from the last stroke to the first,
and returns what is left with the number removed. -/
def eraseStrokesHitBySegment (strokes : List (Stroke K)) (aX aY bX bY eraserRadius : K)
    (ink : Option (WindowInk K)) : List (Stroke K) × ℕ :=
  match strokes with
  | [] => ([], 0)
  | s :: rest =>
    let later := eraseStrokesHitBySegment rest aX aY bX bY eraserRadius ink
    if strokeHitBySegment ink aX aY bX bY eraserRadius s then (later.1, later.2 + 1)
    else (s :: later.1, later.2)

/-- Erasing keeps what the segment does not hit. -/
theorem eraseStrokesHitBySegment_fst (strokes : List (Stroke K)) (aX aY bX bY r : K)
    (ink : Option (WindowInk K)) :
    (eraseStrokesHitBySegment strokes aX aY bX bY r ink).1 =
      strokes.filter fun s => !strokeHitBySegment ink aX aY bX bY r s := by
  induction strokes with
  | nil => rfl
  | cons s rest ih =>
    rw [eraseStrokesHitBySegment]
    cases hs : strokeHitBySegment ink aX aY bX bY r s <;> simp [hs, ih]

theorem eraseStrokesHitBySegment_sublist (strokes : List (Stroke K)) (aX aY bX bY r : K)
    (ink : Option (WindowInk K)) :
    (eraseStrokesHitBySegment strokes aX aY bX bY r ink).1.Sublist strokes := by
  rw [eraseStrokesHitBySegment_fst]
  exact List.filter_sublist

theorem eraseStrokesHitBySegment_snd_pos (strokes : List (Stroke K)) (aX aY bX bY r : K)
    (ink : Option (WindowInk K)) :
    0 < (eraseStrokesHitBySegment strokes aX aY bX bY r ink).2 ↔
      strokes.any (strokeHitBySegment ink aX aY bX bY r) := by
  induction strokes with
  | nil => simp [eraseStrokesHitBySegment]
  | cons s rest ih =>
    rw [eraseStrokesHitBySegment]
    cases hs : strokeHitBySegment ink aX aY bX bY r s <;> simp [hs, ih]

end Annotations
