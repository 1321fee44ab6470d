import Annotations.Plane.Segments
import Annotations.Tracing.Following
import Annotations.Tracing.Footprint

/-! Where the eraser meets the centre line of a stroke. The distances of the hit test are the true
ones, except that a segment shorter than a thousandth of a pixel counts as its first end. A stroke
that follows the scroll is met where it is rendered, inside the editor region or clipped away, and
only by an eraser segment with an end in the region; coordinates are not rounded here. -/

namespace Annotations

open Plane Runs
open Scalar (toFloat)

variable {K : Type} [Scalar K]

/-- What comes within `r'` of the segment is within `r` for the hit test. -/
def Seen (a b : K × K) (r' r : K) : Prop := (Plain a b ∧ r' ≤ r) ∨ r' + 1e-3 ≤ r

variable {s : Stroke K} {aX aY bX bY cX cY dX dY px py r' r : K} {e z : K × K}

/-! ### The distances of the hit test -/

/-- No point of a plain segment is nearer than the distance that is measured. -/
theorem pointToSegmentDistSq_le (h : Plain (aX, aY) (bX, bY)) {z : K × K} (hz : z ∈ segment K (aX, aY) (bX, bY)) :
    pointToSegmentDistSq px py aX aY bX bY ≤ distSq (px, py) z := by
  rcases h with heq | hlong
  · rw [← heq, segment_same] at hz
    obtain rfl : z = (aX, aY) := hz
    refine (pointToSegmentDistSq_of_short ?_).le
    rw [← heq, distSq_self]
    norm_num
  · obtain ⟨t, ht0, ht1, rfl⟩ := mem_segment_iff_along.mp hz
    have hpos : 0 < distSq (bX, bY) (aX, aY) := lt_of_lt_of_le (by norm_num) hlong
    rw [pointToSegmentDistSq_of_long hlong]
    exact distSq_foot_le hpos ht0 ht1

theorem pointToSegmentDistSq_le_of_near (hseen : Seen (aX, aY) (bX, bY) r' r) (h0 : 0 ≤ r')
    (hz : z ∈ segment K (aX, aY) (bX, bY)) (hnear : distSq (px, py) z ≤ r' * r') :
    pointToSegmentDistSq px py aX aY bX bY ≤ r * r := by
  rcases hseen with ⟨hplain, hle⟩ | hle
  · calc pointToSegmentDistSq px py aX aY bX bY ≤ distSq (px, py) z := pointToSegmentDistSq_le hplain hz
      _ ≤ r' * r' := hnear
      _ ≤ r * r := mul_self_le_mul_self h0 hle
  have hslack : (0 : K) ≤ 1e-3 := by norm_num
  have hgrow : r' * r' ≤ r * r := mul_self_le_mul_self h0 ((le_add_of_nonneg_right hslack).trans hle)
  rcases lt_or_ge (distSq (bX, bY) (aX, aY)) 1e-6 with hshort | hlong
  · -- the first end is not far from `z`
    obtain ⟨t, ht0, ht1, rfl⟩ := mem_segment_iff_along.mp hz
    have hfirst : distSq (along (aX, aY) (bX, bY) t) (aX, aY) < 1e-3 * 1e-3 := by
      calc distSq (along (aX, aY) (bX, bY) t) (aX, aY) = t * t * distSq (bX, bY) (aX, aY) := (distSq_along t).1
        _ ≤ distSq (bX, bY) (aX, aY) := mul_le_of_le_one_left distSq_nonneg (mul_le_one₀ ht1 ht0 ht1)
        _ < 1e-3 * 1e-3 := hshort.trans_eq (by norm_num)
    rw [pointToSegmentDistSq_of_short hshort]
    exact (distSq_lt_add h0 (by norm_num) hnear hfirst).le.trans (mul_self_le_mul_self (add_nonneg h0 hslack) hle)
  · exact (pointToSegmentDistSq_le (.inr hlong) hz).trans (hnear.trans hgrow)

theorem segmentToSegmentDist_le (hsqrt : ExactSqrt K) (hr : 0 ≤ r) (h0 : 0 ≤ r')
    (hab : Seen (aX, aY) (bX, bY) r' r) (hcd : Seen (cX, cY) (dX, dY) r' r) (he : e ∈ segment K (aX, aY) (bX, bY))
    (hz : z ∈ segment K (cX, cY) (dX, dY)) (hnear : distSq e z ≤ r' * r') :
    segmentToSegmentDist aX aY bX bY cX cY dX dY ≤ r := by
  refine (segmentToSegmentDist_le_iff hsqrt hr).mpr (or_iff_not_imp_left.mpr fun hcross => ?_)
  rcases exists_end_near hcross he hz with ⟨w, hw, h⟩ | ⟨w, hw, h⟩
  · exact .inl (h.imp (fun h => pointToSegmentDistSq_le_of_near hcd h0 hw (h.trans hnear)) fun h =>
      pointToSegmentDistSq_le_of_near hcd h0 hw (h.trans hnear))
  · exact .inr (h.imp (fun h => pointToSegmentDistSq_le_of_near hab h0 hw (h.trans hnear)) fun h =>
      pointToSegmentDistSq_le_of_near hab h0 hw (h.trans hnear))

/-! ### The centre line -/

/-- Where the brush is put down. -/
def PaintOp.start (op : PaintOp K) : K × K := (op.x1, op.y1) + op.cr.translation

/-- Where the brush is lifted. -/
def PaintOp.stop (op : PaintOp K) : K × K := (op.x2, op.y2) + op.cr.translation

/-- The way of the middle of the brush, also where the clip lets no ink through. -/
def centreLineOf (ops : List (PaintOp K)) : Set (K × K) := {z | ∃ op ∈ ops, z ∈ segment K op.start op.stop}

/-- Some point of the line is within `r` of the segment from `a` to `b`. -/
def Near (line : Set (K × K)) (a b : K × K) (r : K) : Prop := ∃ z ∈ line, ∃ e ∈ segment K a b, distSq e z ≤ r * r

/-- The segments between points that were moved. -/
theorem mem_zip_tail_shift {v : K × K} {l : List (InkPoint K)} {seg : InkPoint K × InkPoint K} :
    seg ∈ (l.map (·.shift v)).zip (l.map (·.shift v)).tail ↔
      ∃ seg₀ ∈ l.zip l.tail, (seg₀.1.shift v, seg₀.2.shift v) = seg := by
  rw [← List.map_tail, List.zip_map, List.mem_map]
  simp only [Prod.map_apply']

variable {cr : CairoContext K}

theorem near_of_centreLineWithin (hsqrt : ExactSqrt K)
    (h : centreLineWithin (s.shift cr.translation).points aX aY bX bY r) :
    Near (centreLineOf (rasterizeStrokeOnCr cr s)) (aX, aY) (bX, bY) r := by
  have hshift : (s.shift cr.translation).points = s.points.map (·.shift cr.translation) := rfl
  rw [hshift] at h
  unfold rasterizeStrokeOnCr
  rcases hpoints : s.points with _ | ⟨p, _ | ⟨q, points⟩⟩ <;> rw [hpoints] at h
  · exact absurd h id
  · obtain ⟨e, he, hdist⟩ :=
      exists_pointToSegmentDistSq (p.shift cr.translation).x (p.shift cr.translation).y aX aY bX bY
    refine ⟨_, ⟨_, List.mem_singleton_self _, left_mem_segment K _ _⟩, e, he, ?_⟩
    rw [distSq_comm]
    exact hdist.trans_le h
  · obtain ⟨_, hseg, hle⟩ := h
    obtain ⟨seg, hseg₀, rfl⟩ := (mem_zip_tail_shift (l := p :: q :: points)).mp hseg
    obtain ⟨e, he, z, hz, hdist, hnonneg⟩ := exists_segmentToSegmentDist hsqrt aX aY bX bY _ _ _ _
    refine ⟨z, ⟨_, mem_zipWith_drawInkSegment.mpr ⟨seg, hseg₀, rfl⟩, hz⟩, e, he, ?_⟩
    rw [hdist]
    exact mul_self_le_mul_self hnonneg hle

theorem centreLineWithin_of_near (hsqrt : ExactSqrt K) (hr : 0 ≤ r) (h0 : 0 ≤ r') (hab : Seen (aX, aY) (bX, bY) r' r)
    (hline : ∀ op ∈ rasterizeStrokeOnCr cr s, Seen op.start op.stop r' r)
    (h : Near (centreLineOf (rasterizeStrokeOnCr cr s)) (aX, aY) (bX, bY) r') :
    centreLineWithin (s.shift cr.translation).points aX aY bX bY r := by
  have hshift : (s.shift cr.translation).points = s.points.map (·.shift cr.translation) := rfl
  rw [hshift]
  obtain ⟨z, ⟨op, hop, hz⟩, e, he, hnear⟩ := h
  have hseen := hline op hop
  unfold rasterizeStrokeOnCr at hop
  rcases hpoints : s.points with _ | ⟨p, _ | ⟨q, points⟩⟩ <;> rw [hpoints] at hop
  · cases hop
  · obtain rfl := List.mem_singleton.mp hop
    -- a dot is put down and lifted at one point
    obtain rfl : z = (drawInkSegment cr s.rgba p p).start := by
      rwa [show (drawInkSegment cr s.rgba p p).stop = (drawInkSegment cr s.rgba p p).start from rfl, segment_same] at hz
    rw [distSq_comm] at hnear
    exact pointToSegmentDistSq_le_of_near hab h0 he hnear
  · obtain ⟨seg, hseg, rfl⟩ := mem_zipWith_drawInkSegment.mp hop
    exact ⟨_, mem_zip_tail_shift.mpr ⟨seg, hseg, rfl⟩, segmentToSegmentDist_le hsqrt hr h0 hab hseen he hz hnear⟩

namespace MetaAnnotationLayer

/-- A stroke that follows the scroll, painted alone. -/
theorem ops_rasterizeAllStrokesWithInk_follow {ink : WindowInk K} (hfollow : s.followScroll)
    (hregion : hasRegion (some ink)) (target : Surface K) :
    (rasterizeAllStrokesWithInk target [s] (some ink)).ops = rasterizeStrokeOnCr ink.frame.followContext s := by
  have hframe : ink.frame.hasRegion = true := hregion
  simp [rasterizeAllStrokesWithInk_eq, printed, printStroke, hfollow, hframe]

/-- The eraser removes a stroke that follows the scroll only with an end in the editor region, and
within `r` of the centre line of the stroke where that is rendered, clipped away or not. With an end
in the region it does remove what it comes near to, up to a thousandth of a pixel, and exactly if no
segment is shorter than that. -/
theorem erases_rendered [ExactFloats K] (hsqrt : ExactSqrt K) (display : MetaDisplay) (input : AnnotationInput K)
    (width height : ℤ) (ops : List (LayerOp K)) (c : Canvas) (strokes : List (Stroke K))
    (hstrokes : (after display input width height ops).canvasStrokes c = some strokes) (s : Stroke K)
    (hs : s ∈ strokes) (hfollow : s.followScroll) (ink : WindowInk K) (target : Surface K)
    (aX aY bX bY r : K) (hr : 0 ≤ r) :
    let inRegion := hasRegion (some ink) ∧ (ink.editorContains aX aY ∨ ink.editorContains bX bY)
    let painted := (rasterizeAllStrokesWithInk target [s] (some ink)).ops
    let removed := s ∉ (eraseStrokesHitBySegment strokes aX aY bX bY r (some ink)).1
    (removed → inRegion ∧ Near (centreLineOf painted) (aX, aY) (bX, bY) r) ∧
      ∀ r', 0 ≤ r' → Seen (aX, aY) (bX, bY) r' r → (∀ op ∈ painted, Seen op.start op.stop r' r) →
        inRegion → Near (centreLineOf painted) (aX, aY) (bX, bY) r' → removed := by
  intro inRegion painted removed
  obtain ⟨hboxed, htilt⟩ := built_after hstrokes hs
  have hremoved : removed ↔ inRegion ∧
      centreLineWithin (s.shift ink.frame.followContext.translation).points aX aY bX bY r := by
    have hrendered : s.shift ink.frame.followContext.translation =
        (s.shift ink.frame.followContext.translation).through (s.shift ink.frame.followContext.translation).points := by
      conv_lhs => rw [hboxed, ← Stroke.through_shift]
      rfl
    have htilt' : ∀ p ∈ (s.shift ink.frame.followContext.translation).points, 0 ≤ p.tiltFactor := by
      intro p hp
      obtain ⟨q, hq, rfl⟩ := List.mem_map.mp hp
      exact zero_le_one.trans (htilt q hq)
    rw [← strokeHitByEraser_iff hsqrt hrendered htilt' hr, ← strokeHitBySegment_follow hfollow]
    simp [removed, eraseStrokesHitBySegment_fst, hs]
  have hpainted : inRegion → painted = rasterizeStrokeOnCr ink.frame.followContext s := fun h =>
    ops_rasterizeAllStrokesWithInk_follow hfollow h.1 target
  constructor
  · intro h
    obtain ⟨hin, hnear⟩ := hremoved.mp h
    rw [hpainted hin]
    exact ⟨hin, near_of_centreLineWithin hsqrt hnear⟩
  · intro r' h0 hseen hline hin hnear
    rw [hpainted hin] at hline hnear
    exact hremoved.mpr ⟨hin, centreLineWithin_of_near hsqrt hr h0 hseen hline hnear⟩

/-! ### A stroke to erase -/

theorem canvasStrokes_appendInkPoint {layer : MetaAnnotationLayer K} {win : WindowId} {ink : WindowInk K}
    (pt : InkPoint K) (followScroll : Bool) (hcurrent : layer.currentStroke = none)
    (hink : layer.perWindow win = some ink) (hempty : ink.strokes = []) :
    (layer.appendInkPoint (some win) pt followScroll).canvasStrokes (some win) =
      some [strokeAppendPoint { strokeNew layer.nextStroke layer.rgba with followScroll := followScroll } pt] := by
  simp [appendInkPoint, canvasStrokes, hink, hcurrent, openStroke, setCanvasStrokes, modifyInk, writeStroke, hempty,
    strokeNew]

/-- A press of a pen inside the editor region, over any numbers. -/
theorem exists_follow_press [ExactFloats K] :
    let input : AnnotationInput K := ⟨false, false, 0, 0, 0⟩
    let press : ClutterEvent K :=
      ⟨.buttonPress, some ⟨1, .tablet, false, true, none, none⟩, some .pen, 2, 2, 1, true, none, 0⟩
    ∃ strokes s, (after .oneWindow input 10 10 [.call (.setActive true), .call (.setWindowEditorRegion 1 1 1 2 2),
      .handleEvent press 0]).canvasStrokes (some 0) = some strokes ∧ s ∈ strokes ∧ s.followScroll := by
  intro input press
  rw [after, run_cons, run_cons]
  generalize hlayer : step (step (metaAnnotationLayerNew .oneWindow input 10 10) _) _ = layer
  rw [run_cons, run_nil]
  have hdisplay : layer.display = .oneWindow := by
    rw [← hlayer]
    rfl
  have htakes : layer.takesEvents = true := by
    rw [← hlayer]
    rfl
  have herase : layer.eraseIsActive press = false := by
    rw [← hlayer]
    rfl
  have hink : layer.perWindow 0 = some ⟨⟨5, 5, []⟩, [], 5, 5, true, toFloat (1 : ℤ), toFloat (1 : ℤ), toFloat (2 : ℤ),
      toFloat (2 : ℤ), 0, 0⟩ := by
    rw [← hlayer]
    rfl
  generalize hcell : (⟨⟨5, 5, []⟩, [], 5, 5, true, toFloat (1 : ℤ), toFloat (1 : ℤ), toFloat (2 : ℤ), toFloat (2 : ℤ), 0, 0⟩ :
    WindowInk K) = ink at hink
  -- the press is in the frame of the window and in its region
  have hsorted : MetaDisplay.oneWindow.sortedWindows = [0] := by decide
  have hpick : layer.pickAnchorWindow press.x press.y = some 0 := by
    have hin : (layer.frameRect 0).containsPointf press.x press.y = true := by
      norm_num [frameRect, hdisplay, MetaDisplay.oneWindow, MtkRectangle.containsPointf, press]
    unfold pickAnchorWindow
    rw [hdisplay, hsorted, List.reverse_singleton]
    exact List.find?_cons_of_pos (Bool.and_eq_true_iff.mpr ⟨rfl, hin⟩)
  have hfollow : layer.pressFollows press.x press.y press.getPressure press.getTiltFactor false = true := by
    rw [pressFollows_eq]
    unfold pressInRegion
    simp only [hpick, hink]
    norm_num [frameRect, hdisplay, MetaDisplay.oneWindow, ← hcell, hasRegion, WindowInk.editorContains,
      MtkRectangle.toLocal, press]
  have hpress : layer.handleEvent press 0 = (layer.pressAt press 0, true) := by
    unfold handleEvent
    rw [htakes]
    rfl
  have hbegin : (layer.step (.handleEvent press 0)).canvasStrokes (some 0) =
      (layer.beginStroke press.x press.y press.getPressure press.getTiltFactor false).canvasStrokes (some 0) := by
    rw [step, exec, hpress, pressAt, herase]
    rfl
  obtain ⟨hrecords, -, -⟩ := placeStroke_picked hpick press.getPressure press.getTiltFactor
  have hensure : layer.ensureWindowInk 0 = layer := by
    unfold ensureWindowInk
    rw [hink]
  have hanchor : (layer.placeStroke press.x press.y press.getPressure press.getTiltFactor).strokeAnchor =
      layer.pickAnchorWindow press.x press.y := placeStroke_strokeAnchor ..
  have hcurrent : (layer.placeStroke press.x press.y press.getPressure press.getTiltFactor).currentStroke = none :=
    placeStroke_currentStroke ..
  rw [hbegin]
  unfold beginStroke
  rw [pressFollows] at hfollow
  generalize layer.placeStroke press.x press.y press.getPressure press.getTiltFactor = placed at *
  rw [hpick] at hanchor
  simp only [hfollow, hanchor, Bool.false_eq_true, if_false]
  have hstored : placed.perWindow 0 = some ink := by rw [hrecords, hensure, hink]
  have hempty : ink.strokes = [] := by rw [← hcell]
  exact ⟨_, _, canvasStrokes_appendInkPoint _ _ hcurrent hstored hempty, List.mem_singleton_self _, rfl⟩

/-- An eraser of radius eight on the spot, in the region: what it removes has the centre line within eight
pixels, and it removes all that has it within seven. -/
theorem erases_rendered_press :
    let input : AnnotationInput ℝ := ⟨false, false, 0, 0, 0⟩
    let press : ClutterEvent ℝ :=
      ⟨.buttonPress, some ⟨1, .tablet, false, true, none, none⟩, some .pen, 2, 2, 1, true, none, 0⟩
    ∃ strokes s, (after .oneWindow input 10 10 [.call (.setActive true), .call (.setWindowEditorRegion 1 1 1 2 2),
        .handleEvent press 0]).canvasStrokes (some 0) = some strokes ∧ s ∈ strokes ∧ s.followScroll ∧
      ∀ (ink : WindowInk ℝ) (target : Surface ℝ), hasRegion (some ink) → ink.editorContains 2 2 →
        let painted := (rasterizeAllStrokesWithInk target [s] (some ink)).ops
        let removed := s ∉ (eraseStrokesHitBySegment strokes 2 2 2 2 8 (some ink)).1
        (removed → Near (centreLineOf painted) (2, 2) (2, 2) 8) ∧
          (Near (centreLineOf painted) (2, 2) (2, 2) 7 → removed) := by
  intro input press
  obtain ⟨strokes, s, hstrokes, hs, hfollow⟩ := exists_follow_press (K := ℝ)
  refine ⟨strokes, s, hstrokes, hs, hfollow, fun ink target hregion hin => ?_⟩
  have hslack : ∀ a b : ℝ × ℝ, Seen a b 7 8 := fun _ _ => .inr (by norm_num)
  obtain ⟨hnear, hremoves⟩ := erases_rendered exactSqrt_real .oneWindow input 10 10 _ _ strokes hstrokes s hs hfollow ink
    target 2 2 2 2 8 (by norm_num)
  exact ⟨fun h => (hnear h).2, hremoves 7 (by norm_num) (hslack _ _) (fun _ _ => hslack _ _) ⟨hregion, .inl hin⟩⟩

omit [Scalar K] in
theorem exists_stroke_of_data {α β : Type} {o : Option (WindowInk K)} {f : WindowInk K → α}
    {g : WindowInk K → Stroke K → β} {x : α} {y : β}
    (h : o.map (fun ink => (f ink, ink.strokes.map (g ink))) = some (x, [y])) :
    ∃ ink s, o = some ink ∧ ink.strokes = [s] ∧ f ink = x ∧ g ink s = y := by
  obtain ⟨ink, hink, hdata⟩ := Option.map_eq_some_iff.mp h
  obtain ⟨hf, hstrokes⟩ := Prod.mk.inj hdata
  obtain ⟨s, hs, hg⟩ := List.map_eq_singleton_iff.mp hstrokes
  exact ⟨ink, s, hink, hs, hf, hg⟩

/-- A dot in the region stays when the eraser crosses it from outside to outside, and when the near end of
the eraser is the second one and the first is less than a thousandth of a pixel away. Scrolled out of the
region it is removed by an eraser in the region. -/
theorem not_erases_visible :
    let ops : List (LayerOp ℚ) := [.call (.setActive true), .call (.setWindowEditorRegion 1 1 1 20 20),
      .handleEvent (.pen .buttonPress 2 2 1 true) 0]
    let line (ink : WindowInk ℚ) (s : Stroke ℚ) : Set (ℚ × ℚ) :=
      centreLineOf (rasterizeAllStrokesWithInk ⟨5, 5, []⟩ [s] (some ink)).ops
    (∃ ink s, (after .oneWindow .initial 10 10 ops).perWindow 0 = some ink ∧ s ∈ ink.strokes ∧ s.followScroll ∧
      (2, 2) ∈ line ink s ∩ ink.frame.region ∧
      (Near {(2, 2)} ((0, 2) : ℚ × ℚ) (30, 2) 8 ∧
        s ∈ (eraseStrokesHitBySegment ink.strokes 0 2 30 2 8 (some ink)).1) ∧
      Near {(2, 2)} ((10.0005, 2) : ℚ × ℚ) (9.9996, 2) 8 ∧
        s ∈ (eraseStrokesHitBySegment ink.strokes 10.0005 2 9.9996 2 8 (some ink)).1) ∧
    ∃ ink s, (after .oneWindow .initial 10 10 (ops ++ [.call (.setWindowScroll 1 0 3)])).perWindow 0 = some ink ∧
      s ∈ ink.strokes ∧ s.followScroll ∧ line ink s ∩ ink.frame.region = ∅ ∧
      s ∉ (eraseStrokesHitBySegment ink.strokes 2 2 2 2 8 (some ink)).1 := by
  intro ops line
  let ends (ink : WindowInk ℚ) (s : Stroke ℚ) : List ((ℚ × ℚ) × ℚ × ℚ) :=
    (rasterizeAllStrokesWithInk ⟨5, 5, []⟩ [s] (some ink)).ops.map fun op => (op.start, op.stop)
  have hline : ∀ ink s z, ends ink s = [(z, z)] → line ink s = {z} := by
    intro ink s z h
    obtain ⟨op, hop, hends⟩ := List.map_eq_singleton_iff.mp h
    obtain ⟨hstart, hstop⟩ := Prod.mk.inj hends
    ext x
    simp [line, centreLineOf, hop, hstart, hstop]
  have hmissed : ∀ (ink : WindowInk ℚ) (s : Stroke ℚ) (aX aY bX bY : ℚ), ink.strokes = [s] →
      (s ∈ (eraseStrokesHitBySegment ink.strokes aX aY bX bY 8 (some ink)).1 ↔
        strokeHitBySegment (some ink) aX aY bX bY 8 s = false) := by
    intro ink s aX aY bX bY hstrokes
    rw [eraseStrokesHitBySegment_fst, hstrokes]
    simp
  constructor
  · generalize hlayer : after .oneWindow .initial 10 10 ops = layer
    have hone : (layer.perWindow 0).map (fun ink => ((ink.editorX, ink.editorY, ink.editorW, ink.editorH),
        ink.strokes.map fun s => (s.followScroll, decide (ends ink s = [((2, 2), (2, 2))]),
          strokeHitBySegment (some ink) 0 2 30 2 8 s, strokeHitBySegment (some ink) 10.0005 2 9.9996 2 8 s))) =
        some ((1, 1, 20, 20), [(true, true, false, false)]) := by
      rw [← hlayer]
      decide +kernel
    obtain ⟨ink, s, hink, hstrokes, hframe, hdata⟩ := exists_stroke_of_data hone
    simp only [Prod.mk.injEq, decide_eq_true_eq] at hframe hdata
    obtain ⟨hX, hY, hW, hH⟩ := hframe
    obtain ⟨hfollow, hpainted, hcross, hshort⟩ := hdata
    refine ⟨ink, s, hink, by simp [hstrokes], hfollow, ⟨?_, ?_⟩, ⟨?_, (hmissed _ _ _ _ _ _ hstrokes).mpr hcross⟩, ?_,
      (hmissed _ _ _ _ _ _ hstrokes).mpr hshort⟩
    · rw [hline ink s (2, 2) hpainted]
      rfl
    · norm_num [Frame.region, WindowInk.frame, hX, hY, hW, hH]
    · exact ⟨_, rfl, _, along_mem_segment (t := 1 / 15) (by norm_num) (by norm_num), by norm_num [distSq]⟩
    · exact ⟨_, rfl, _, right_mem_segment ℚ _ _, by norm_num [distSq]⟩
  · generalize hlayer : after .oneWindow .initial 10 10 (ops ++ [.call (.setWindowScroll 1 0 3)]) = layer
    have hone : (layer.perWindow 0).map (fun ink => (ink.editorY, ink.strokes.map fun s => (s.followScroll,
        decide (ends ink s = [((2, -1), (2, -1))]), strokeHitBySegment (some ink) 2 2 2 2 8 s))) =
        some (1, [(true, true, true)]) := by
      rw [← hlayer]
      decide +kernel
    obtain ⟨ink, s, hink, hstrokes, hframe, hdata⟩ := exists_stroke_of_data hone
    simp only [Prod.mk.injEq, decide_eq_true_eq] at hdata
    obtain ⟨hfollow, hpainted, hhit⟩ := hdata
    refine ⟨ink, s, hink, by simp [hstrokes], hfollow, ?_, ?_⟩
    · rw [hline ink s (2, -1) hpainted]
      ext z
      simp only [Set.mem_inter_iff, Set.mem_singleton_iff, Set.mem_empty_iff_false, iff_false, not_and]
      rintro rfl hin
      norm_num [Frame.region, WindowInk.frame, hframe] at hin
    · rw [hmissed _ _ _ _ _ _ hstrokes, hhit]
      exact Bool.noConfusion

end MetaAnnotationLayer

end Annotations
