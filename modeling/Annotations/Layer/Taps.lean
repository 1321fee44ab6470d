import Annotations.Layer.Lifecycle

/-! Tap-to-clear: the pending tap, the history of taps and the gestures. -/

namespace Annotations

variable {K : Type} [Scalar K]

def tapHistorySize : ℕ := 4
def tapMaxDurationUs : ℤ := 300 * 1000
def tapMaxMovePx : K := 10
def tripleTapWindowUs : ℤ := 750 * 1000
def quadTapWindowUs : ℤ := 100 * 1000

namespace MetaAnnotationLayer

variable (layer : MetaAnnotationLayer K)

/-- `clear_ink_for_anchor`. -/
def clearInkForAnchor (anchor : Canvas) : MetaAnnotationLayer K :=
  let layer := (layer.setCanvasStrokes anchor []).modifyCanvasSurface anchor surfaceClear
  let layer := if layer.strokeAnchor = anchor then layer.sealStroke layer.strokeFollowScroll else layer
  let layer := if layer.lastInkAnchor = anchor ∨
      anchor = none ∧ layer.lastInkPresent ∧ layer.lastInkAnchor = none then
      layer.setLastInkAnchor none false
    else layer
  layer.scheduleRecompose

def tapHistoryReset : MetaAnnotationLayer K := { layer with tapHistory := [] }

/-- `tap_history_prune`: drop the leading entries that are too old. -/
def tapHistoryPrune (nowUs : ℤ) : MetaAnnotationLayer K :=
  { layer with
    tapHistory := layer.tapHistory.dropWhile fun t => ¬ nowUs - t.timeUs ≤ quadTapWindowUs }

/-- `tap_history_append`: a full history loses its oldest entry. -/
def tapHistoryAppend (nowUs : ℤ) (anchor : Canvas) : MetaAnnotationLayer K :=
  let kept := if layer.tapHistory.length = tapHistorySize then layer.tapHistory.tail
    else layer.tapHistory
  { layer with tapHistory := kept ++ [⟨nowUs, anchor⟩] }

/-- `check_tap_gestures`. -/
def checkTapGestures : MetaAnnotationLayer K :=
  if tapHistorySize ≤ layer.tapHistory.length then layer.clear.tapHistoryReset
  else
    match layer.tapHistory.reverse with
    | c :: b :: a :: _ =>
      if a.anchor = b.anchor ∧ b.anchor = c.anchor ∧ c.timeUs - a.timeUs ≤ tripleTapWindowUs then
        (layer.clearInkForAnchor c.anchor).tapHistoryReset
      else layer
    | _ => layer

/-- `note_tap_press`. -/
def noteTapPress (stageX stageY : K) (anchor : Canvas) (nowUs : ℤ) : MetaAnnotationLayer K :=
  { layer with
    pendingTap := true
    pendingTapPressUs := nowUs
    pendingTapPressStageX := stageX
    pendingTapPressStageY := stageY
    pendingTapAnchor := anchor }

/-- `cancel_tap_pending`. -/
def cancelTapPending : MetaAnnotationLayer K := { layer with pendingTap := false }

/-- The point is farther than the tap radius from the pending press. -/
def beyondTapRadius (stageX stageY : K) : Bool :=
  let dx := stageX - layer.pendingTapPressStageX
  let dy := stageY - layer.pendingTapPressStageY
  tapMaxMovePx * tapMaxMovePx < dx * dx + dy * dy

/-- `note_tap_release`. -/
def noteTapRelease (stageX stageY : K) (nowUs : ℤ) : MetaAnnotationLayer K :=
  if !layer.pendingTap then layer
  else
    let layer := { layer with pendingTap := false }
    if tapMaxDurationUs < nowUs - layer.pendingTapPressUs then layer
    else if layer.beyondTapRadius stageX stageY then layer
    else
      ((layer.tapHistoryPrune nowUs).tapHistoryAppend nowUs layer.pendingTapAnchor).checkTapGestures

end MetaAnnotationLayer

end Annotations
