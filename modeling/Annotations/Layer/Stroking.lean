import Annotations.Layer.Erase

/-! Begin, continue and end a stroke. The pressure and the tilt of an event are
`none` where the source has the `..._known` flag FALSE. -/

namespace Annotations

open Scalar (toFloat)

variable {K : Type} [Scalar K]

/-- A point of the stage in the coordinates of a window with the frame. -/
def MtkRectangle.toLocal (fr : MtkRectangle) (stageX stageY : K) : K × K :=
  (toFloat (stageX - toFloat (fr.x : K)), toFloat (stageY - toFloat (fr.y : K)))

/-- A point moved by the offset, if any: to add zero is exact. -/
def InkPoint.moved (p : InkPoint K) (follow : Option (K × K)) : InkPoint K :=
  { p with
    x := follow.elim p.x fun d => toFloat (p.x + d.1)
    y := follow.elim p.y fun d => toFloat (p.y + d.2) }

namespace MetaAnnotationLayer

variable (layer : MetaAnnotationLayer K)

/-- `convert_stage_to_local`. -/
def convertStageToLocal (stageX stageY : K) : K × K :=
  match layer.strokeAnchor with
  | some win => (layer.frameRect win).toLocal stageX stageY
  | none => (stageX, stageY)

/-- A write through a `Stroke *`: it reaches the stroke at that address wherever it
is, and nothing that is alive when the stroke was freed. -/
def writeStroke (addr : ℕ) (f : Stroke K → Stroke K) : MetaAnnotationLayer K :=
  let write := List.map fun s : Stroke K => if s.addr = addr then f s else s
  { layer with
    unattachedStrokes := write layer.unattachedStrokes
    perWindow := fun win =>
      (layer.perWindow win).map fun ink => { ink with strokes := write ink.strokes } }

/-- Create the stroke that ink goes to and make it the current one. -/
def openStroke (c : Canvas) (strokes : List (Stroke K)) (followScroll : Bool) :
    MetaAnnotationLayer K :=
  let s := { strokeNew layer.nextStroke layer.rgba with followScroll := followScroll }
  { layer.setCanvasStrokes c (strokes ++ [s]) with
    currentStroke := some layer.nextStroke
    nextStroke := layer.nextStroke + 1 }

/-- `append_ink_point`, on the strokes list of the canvas `c`. -/
def appendInkPoint (c : Canvas) (pt : InkPoint K) (followScroll : Bool) : MetaAnnotationLayer K :=
  match layer.canvasStrokes c with
  | none => layer
  | some strokes =>
    let layer := if layer.currentStroke.isNone then layer.openStroke c strokes followScroll else layer
    match layer.currentStroke with
    | none => layer
    | some addr =>
      let layer := layer.writeStroke addr fun s => strokeAppendPoint s pt
      { layer with ledger := { layer.ledger with newestInk := some c } }

/-- The window record of an anchor. -/
def anchorInk (anchor : Canvas) : Option (WindowInk K) := anchor.bind layer.perWindow

/-- The first half of `begin_stroke`: pick the anchor, drop the old stroke and start
the new one at the event. -/
def placeStroke (stageX stageY : K) (pressure tiltFactor : Option K) : MetaAnnotationLayer K :=
  let anchor := layer.pickAnchorWindow stageX stageY
  let layer := layer.setStrokeAnchor anchor
  let layer := { layer with currentStroke := none, strokeFollowScroll := false }
  let layer := match anchor with
    | some win => layer.ensureWindowInk win
    | none => layer
  let start := layer.convertStageToLocal stageX stageY
  { layer with
    strokeLastX := start.1
    strokeLastY := start.2
    strokeActive := true
    lastPressure := match pressure with
      | some p => if 0 < p then p else 1
      | none => 1
    lastTiltFactor := tiltFactor.getD 1
    ledger := { layer.ledger with strokeLastStamp := layer.ledger.clock } }

/-- Whether the press lands in the editor region of its window. -/
def pressFollowsScroll (erase : Bool) : Bool :=
  match layer.anchorInk layer.strokeAnchor with
  | none => false
  | some ink =>
    !erase && hasRegion (some ink) && ink.editorContains layer.strokeLastX layer.strokeLastY

/-- The point a press stores: in content space when the stroke follows the scroll. -/
def pressPoint : InkPoint K :=
  let p : InkPoint K := ⟨layer.strokeLastX, layer.strokeLastY, layer.lastPressure,
    layer.lastTiltFactor, layer.ledger.strokeLastStamp⟩
  match layer.anchorInk layer.strokeAnchor with
  | none => p
  | some ink =>
    if layer.strokeFollowScroll then
      let content := ink.toContent layer.strokeLastX layer.strokeLastY
      { p with x := content.1, y := content.2 }
    else p

/-- `begin_stroke`. -/
def beginStroke (stageX stageY : K) (pressure tiltFactor : Option K) (erase : Bool) :
    MetaAnnotationLayer K :=
  let layer := layer.placeStroke stageX stageY pressure tiltFactor
  let layer := { layer with strokeFollowScroll := layer.pressFollowsScroll erase }
  if erase then layer
  else
    let layer := layer.setLastInkAnchor layer.strokeAnchor true
    layer.appendInkPoint layer.strokeAnchor layer.pressPoint layer.strokeFollowScroll

/-- `follow_dx` and `follow_dy` of `continue_stroke`, unless they are left at zero. -/
def followOffset : Option (K × K) :=
  match layer.anchorInk layer.strokeAnchor with
  | none => none
  | some ink =>
    if layer.strokeFollowScroll then
      some (toFloat (ink.scrollX - ink.editorX), toFloat (ink.scrollY - ink.editorY))
    else none

/-- The point that seeds a stroke resumed after erasing: the previous end. -/
def seedPoint : InkPoint K :=
  let pPrev : InkPoint K := ⟨layer.strokeLastX, layer.strokeLastY, layer.lastPressure,
    layer.lastTiltFactor, layer.ledger.strokeLastStamp⟩
  pPrev.moved layer.followOffset

/-- The radius of the eraser at the far end of a segment. -/
def eraserRadius (pEnd tEnd : K) : K :=
  let w := annotBaseWidth * pressureToWidthMultiplier pEnd * tEnd * annotEraseWidthFactor
  let r := 0.5 * w
  if r < annotEraseMinRadius then annotEraseMinRadius else r

/-- Seal off the stroke in flight; the press goes on. -/
def dropStroke : MetaAnnotationLayer K := { layer with currentStroke := none }

/-- The erase branch of `continue_stroke`. -/
def continueErase (lx ly pEnd tEnd : K) : MetaAnnotationLayer K :=
  let layer := layer.dropStroke
  match layer.canvasSurface layer.strokeAnchor, layer.canvasStrokes layer.strokeAnchor with
  | some _, some strokes =>
    let ink := layer.anchorInk layer.strokeAnchor
    let left := eraseStrokesHitBySegment strokes layer.strokeLastX layer.strokeLastY lx ly
      (eraserRadius pEnd tEnd) ink
    if 0 < left.2 then
      (layer.setCanvasStrokes layer.strokeAnchor left.1).modifyCanvasSurface layer.strokeAnchor
        fun target => rasterizeAllStrokesWithInk target left.1 ink
    else layer
  | _, _ => layer

/-- The ink branch of `continue_stroke`: paint the segment where the pen is, then
store it. A stroke that is not open is seeded with the previous end first. -/
def continueInk (lx ly pEnd tEnd : K) : MetaAnnotationLayer K :=
  match layer.canvasSurface layer.strokeAnchor, layer.canvasStrokes layer.strokeAnchor with
  | some _, some _ =>
    let anchor := layer.strokeAnchor
    let segment := drawSegmentOnCr cairoCreate layer.rgba layer.strokeLastX layer.strokeLastY lx ly
      layer.lastPressure pEnd layer.lastTiltFactor tEnd
    let pPrev := layer.seedPoint
    let pNew : InkPoint K := ⟨lx, ly, pEnd, tEnd, layer.ledger.clock⟩
    let pNew := pNew.moved layer.followOffset
    let layer := layer.modifyCanvasSurface anchor fun target => { target with ops := target.ops ++ [segment] }
    let layer := if layer.currentStroke.isNone then
        layer.appendInkPoint anchor pPrev layer.strokeFollowScroll
      else layer
    layer.appendInkPoint anchor pNew layer.strokeFollowScroll
  | _, _ => layer

/-- `continue_stroke`. -/
def continueStroke (stageX stageY : K) (pressure tiltFactor : Option K) (erase : Bool) :
    MetaAnnotationLayer K :=
  let here := layer.convertStageToLocal stageX stageY
  let pEnd := pressure.getD layer.lastPressure
  let tEnd := tiltFactor.getD layer.lastTiltFactor
  let layer := if erase then layer.continueErase here.1 here.2 pEnd tEnd
    else layer.continueInk here.1 here.2 pEnd tEnd
  { layer with
    strokeLastX := here.1
    strokeLastY := here.2
    lastPressure := pEnd
    lastTiltFactor := tEnd
    ledger := { layer.ledger with strokeLastStamp := layer.ledger.clock } }.scheduleRecompose

/-- The reset that every operation sealing the stroke in flight makes, with the value
it leaves in `stroke_follow_scroll`. -/
def sealStroke (followScroll : Bool) : MetaAnnotationLayer K :=
  { layer with
    strokeActive := false
    currentStroke := none
    strokeFollowScroll := followScroll
    strokeAnchor := none }

/-- `end_stroke`. -/
def endStroke : MetaAnnotationLayer K := (layer.sealStroke false).scheduleRecompose

omit [Scalar K] in
theorem strokeActive_endStroke : layer.endStroke.strokeActive = false := by
  unfold endStroke
  rw [scheduleRecompose_eq]
  rfl

end MetaAnnotationLayer

end Annotations
