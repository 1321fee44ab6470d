import Annotations.Layer.State

/-! Strokes and how they are painted: stroke widths, the incremental bounding box,
and the replay of stored strokes onto a canvas surface. -/

namespace Annotations

open Scalar (toFloat)

variable {K : Type} [Scalar K]

def annotBaseWidth : K := 6
def annotMinPressure : K := 0.1
def annotTiltDegFull : K := 60
def annotTiltWidthBoost : K := 1.875
def annotEraseWidthFactor : K := 2
def annotEraseMinRadius : K := 8

/-- `pressure_to_width_multiplier`. -/
def pressureToWidthMultiplier (pressure : K) : K :=
  let pressure := if pressure < annotMinPressure then annotMinPressure else pressure
  let pressure := if 1 < pressure then 1 else pressure
  Scalar.sqrtf pressure

/-- `ink_point_max_half_width`. -/
def inkPointMaxHalfWidth (p : InkPoint K) : K :=
  0.5 * annotBaseWidth * pressureToWidthMultiplier p.pressure * p.tiltFactor

/-! ### Strokes -/

/-- `stroke_new`, at the address the allocator returned. -/
def strokeNew (addr : ℕ) (rgba : Rgba K) : Stroke K :=
  { addr := addr, points := [], rgba := rgba, bbox := none, followScroll := false }

/-- `stroke_append_point`. -/
def strokeAppendPoint (s : Stroke K) (p : InkPoint K) : Stroke K :=
  let r := inkPointMaxHalfWidth p
  { s with
    points := s.points ++ [p]
    bbox := some (match s.bbox with
      | none => ⟨p.x - r, p.y - r, p.x + r, p.y + r⟩
      | some b =>
        { minX := if p.x - r < b.minX then p.x - r else b.minX
          minY := if p.y - r < b.minY then p.y - r else b.minY
          maxX := if b.maxX < p.x + r then p.x + r else b.maxX
          maxY := if b.maxY < p.y + r then p.y + r else b.maxY }) }

@[simp] theorem strokeAppendPoint_addr (s : Stroke K) (p : InkPoint K) :
    (strokeAppendPoint s p).addr = s.addr := rfl

@[simp] theorem strokeAppendPoint_points (s : Stroke K) (p : InkPoint K) :
    (strokeAppendPoint s p).points = s.points ++ [p] := rfl

@[simp] theorem strokeAppendPoint_followScroll (s : Stroke K) (p : InkPoint K) :
    (strokeAppendPoint s p).followScroll = s.followScroll := rfl

/-! ### Surfaces -/

def cairoSurfaceNewCleared (width height : ℤ) : Surface K := ⟨width, height, []⟩

def surfaceClear (s : Surface K) : Surface K := { s with ops := [] }

/-- A fresh `cairo_t`: no clip, identity transform. -/
def cairoCreate : CairoContext K := ⟨none, 0, 0⟩

/-- `draw_segment_on_cr`. Every caller passes FALSE for `erase`. -/
def drawSegmentOnCr (cr : CairoContext K) (rgba : Rgba K) (x1 y1 x2 y2 p1 p2 tilt1 tilt2 : K) :
    PaintOp K :=
  ⟨cr, rgba, x1, y1, x2, y2, p1, p2, tilt1, tilt2⟩

/-- The segment between two stored points. -/
def drawInkSegment (cr : CairoContext K) (rgba : Rgba K) (a b : InkPoint K) : PaintOp K :=
  drawSegmentOnCr cr rgba a.x a.y b.x b.y a.pressure b.pressure a.tiltFactor b.tiltFactor

/-- `rasterize_stroke_on_cr`: a dot for a single point, else one segment for every two
consecutive points. -/
def rasterizeStrokeOnCr (cr : CairoContext K) (s : Stroke K) : List (PaintOp K) :=
  match s.points with
  | [] => []
  | [p] => [drawInkSegment cr s.rgba p p]
  | points => List.zipWith (drawInkSegment cr s.rgba) points points.tail

/-- The test `has_region` of the rasterizer and of the eraser. -/
def hasRegion : Option (WindowInk K) → Bool
  | none => false
  | some ink => ink.hasEditorRegion && 0 < ink.editorW && 0 < ink.editorH

/-- The shared context of follow-scroll strokes; NULL when there is no region to
render into or no such stroke. -/
def crFollow (strokes : List (Stroke K)) : Option (WindowInk K) → Option (CairoContext K)
  | none => none
  | some ink =>
    if hasRegion (some ink) && strokes.any (·.followScroll) then
      some ⟨some (ink.editorX, ink.editorY, ink.editorW, ink.editorH),
        toFloat (ink.editorX - ink.scrollX), toFloat (ink.editorY - ink.scrollY)⟩
    else none

/-- `rasterize_all_strokes_with_ink`: clear the target, then paint every stroke in
order; a follow-scroll stroke without a region is skipped. -/
def rasterizeAllStrokesWithInk (target : Surface K) (strokes : List (Stroke K))
    (ink : Option (WindowInk K)) : Surface K :=
  { target with
    ops := strokes.flatMap fun s =>
      if s.followScroll then
        match crFollow strokes ink with
        | some cr => rasterizeStrokeOnCr cr s
        | none => []
      else rasterizeStrokeOnCr cairoCreate s }

/-- `rasterize_all_strokes`. -/
def rasterizeAllStrokes (target : Surface K) (strokes : List (Stroke K)) : Surface K :=
  rasterizeAllStrokesWithInk target strokes none

end Annotations
