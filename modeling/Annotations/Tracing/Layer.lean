import Annotations.Ink.InFlight
import Annotations.Tracing.Agreement

/-! The layer as a drawing: what the drawing is read off from, which functions leave it
alone, and what the writes to a canvas and to a record do to it. -/

namespace Annotations

variable {K : Type}

namespace MetaAnnotationLayer

/-- The last position of the pen, in the coordinates of the anchor. -/
def tip (layer : MetaAnnotationLayer K) : InkPoint K :=
  ⟨layer.strokeLastX, layer.strokeLastY, layer.lastPressure, layer.lastTiltFactor,
    layer.ledger.strokeLastStamp⟩

def drawing (layer : MetaAnnotationLayer K) : Drawing K where
  rgba := layer.rgba
  down := layer.strokeActive
  anchor := layer.strokeAnchor
  current := layer.currentStroke
  follow := layer.strokeFollowScroll
  tip := layer.tip
  clock := layer.ledger.clock
  next := layer.nextStroke
  strokes := layer.canvasStrokes
  surface := layer.canvasSurface
  frame := fun c => (layer.anchorInk c).map WindowInk.frame

variable {layer layer' : MetaAnnotationLayer K} {L : Permit K} {c : Canvas} {win : WindowId}

/-! ### Functions that leave the drawing alone -/

@[simp] theorem drawing_scheduleRecompose : layer.scheduleRecompose.drawing = layer.drawing := by
  unfold scheduleRecompose
  split_ifs <;> rfl

@[simp] theorem drawing_recompose : layer.recompose.drawing = layer.drawing := by
  rw [recompose_eq]
  rfl

@[simp] theorem drawing_setDisplay (display : MetaDisplay) :
    (layer.setDisplay display).drawing = layer.drawing := rfl

@[simp] theorem drawing_setLastInkAnchor (anchor : Canvas) (present : Bool) :
    (layer.setLastInkAnchor anchor present).drawing = layer.drawing := rfl

@[simp] theorem drawing_updateActorVisibility :
    layer.updateActorVisibility.drawing = layer.drawing := by
  unfold updateActorVisibility
  split_ifs
  · exact drawing_recompose
  · rfl
  · rfl

theorem drawing_recomposeIdleCb : layer.recomposeIdleCb.drawing = layer.drawing := by
  unfold recomposeIdleCb
  split_ifs
  · exact drawing_recompose
  · rfl

theorem drawing_onSignal {handler : MetaAnnotationLayer K → MetaAnnotationLayer K}
    (h : ∀ layer, (handler layer).drawing = layer.drawing) :
    (layer.onSignal win handler).drawing = layer.drawing := by
  unfold onSignal
  split_ifs
  · exact h layer
  · rfl

theorem drawing_windowMinimized (minimized : Bool) :
    (layer.windowMinimized win minimized).drawing = layer.drawing :=
  drawing_onSignal fun _ => drawing_scheduleRecompose

theorem drawing_windowWorkspaceChanged (workspace : Option ℕ) (onAllWorkspaces : Bool) :
    (layer.windowWorkspaceChanged win workspace onAllWorkspaces).drawing = layer.drawing :=
  drawing_onSignal fun _ => drawing_scheduleRecompose

theorem drawing_windowHidden (hidden restacked : Bool) :
    (layer.windowHidden win hidden restacked).drawing = layer.drawing := by
  unfold windowHidden
  dsimp only
  split_ifs
  · exact drawing_scheduleRecompose
  · rfl

theorem drawing_windowManaged (data : MetaWindow) :
    (layer.windowManaged win data).drawing = layer.drawing := by
  unfold windowManaged
  split_ifs
  · rfl
  · exact drawing_scheduleRecompose

theorem drawing_cancelTapBeyondRadius [Scalar K] (event : ClutterEvent K) :
    (layer.cancelTapBeyondRadius event).drawing = layer.drawing := by
  unfold cancelTapBeyondRadius
  split_ifs <;> rfl

theorem drawing_handleToolModifierPress [Scalar K] {event : ClutterEvent K} {pressed : Bool}
    (h : layer.handleToolModifierPress event pressed = some layer') :
    layer'.drawing = layer.drawing := by
  unfold handleToolModifierPress at h
  split_ifs at h
  · rw [← Option.some.inj h]
  · rw [← Option.some.inj h]
    rfl

/-- The pen is lifted if it is on the canvas. -/
theorem drawing_sealAt :
    (if layer.strokeAnchor = c then layer.sealStroke layer.strokeFollowScroll else layer).drawing =
      layer.drawing.liftFrom (· = c) := by
  unfold Drawing.liftFrom
  by_cases hanchor : layer.strokeAnchor = c
  · have hpen : decide (layer.drawing.anchor = c) = true := decide_eq_true hanchor
    simp only [if_pos hanchor, hpen, if_true]
    rfl
  · have hpen : decide (layer.drawing.anchor = c) = false := decide_eq_false hanchor
    simp only [if_neg hanchor, hpen, Bool.false_eq_true, if_false]

/-! ### Writes -/

/-- The record of a window is written, set up or removed. -/
theorem drawing_updateRecord (record : Option (WindowInk K)) :
    ({ layer with perWindow := Function.update layer.perWindow win record } :
      MetaAnnotationLayer K).drawing =
      layer.drawing.setPage (some win) (record.map (·.strokes)) (record.map (·.surface))
        (record.map WindowInk.frame) := by
  have hother : ∀ {w : WindowId}, w ≠ win → (some w : Canvas) ≠ some win := by simp
  refine Drawing.ext rfl rfl rfl rfl rfl rfl rfl rfl (funext fun c => ?_) (funext fun c => ?_)
    (funext fun c => ?_)
  · rcases c with _ | w
    · rfl
    · by_cases hw : w = win
      · subst hw
        simp [drawing, canvasStrokes, Drawing.setPage]
      · simp [drawing, canvasStrokes, Drawing.setPage, hw]
  · rcases c with _ | w
    · rfl
    · by_cases hw : w = win
      · subst hw
        simp [drawing, canvasSurface, Drawing.setPage]
      · simp [drawing, canvasSurface, Drawing.setPage, hw]
  · rcases c with _ | w
    · rfl
    · by_cases hw : w = win
      · subst hw
        simp [drawing, anchorInk, Drawing.setPage]
      · simp [drawing, anchorInk, Drawing.setPage, hw]

theorem drawing_putInk {ink : WindowInk K} (hink : (layer.perWindow win).isSome) :
    (layer.modifyInk win fun _ => ink).drawing =
      layer.drawing.setPage (some win) (some ink.strokes) (some ink.surface) (some ink.frame) := by
  obtain ⟨old, hold⟩ := Option.isSome_iff_exists.mp hink
  rw [modifyInk, hold]
  exact drawing_updateRecord (some ink)

/-- The strokes of a canvas are written. -/
theorem drawing_setCanvasStrokes {strokes : List (Stroke K)} (hc : (layer.canvasStrokes c).isSome) :
    (layer.setCanvasStrokes c strokes).drawing =
      { layer.drawing with strokes := Function.update layer.canvasStrokes c (some strokes) } := by
  refine Eq.trans ?_ (Drawing.setPage_strokes layer.drawing)
  cases c with
  | none =>
    refine Drawing.ext rfl rfl rfl rfl rfl rfl rfl rfl (funext fun c => ?_) (funext fun c => ?_)
      (funext fun c => ?_)
    · cases c <;> rfl
    · cases c <;> rfl
    · cases c <;> rfl
  | some win =>
    rw [canvasStrokes, Option.isSome_map] at hc
    obtain ⟨ink, hink⟩ := Option.isSome_iff_exists.mp hc
    rw [setCanvasStrokes, modifyInk, hink, Option.map_some, drawing_updateRecord]
    simp [drawing, canvasSurface, anchorInk, hink]
    rfl

/-- The surface of a canvas is written. -/
theorem drawing_modifyCanvasSurface (f : Surface K → Surface K) :
    (layer.modifyCanvasSurface c f).drawing = { layer.drawing with
      surface := Function.update layer.canvasSurface c ((layer.canvasSurface c).map f) } := by
  refine Eq.trans ?_ (Drawing.setPage_surface layer.drawing)
  cases c with
  | none =>
    refine Drawing.ext rfl rfl rfl rfl rfl rfl rfl rfl (funext fun c => ?_) (funext fun c => ?_)
      (funext fun c => ?_)
    · cases c <;> rfl
    · cases c <;> rfl
    · cases c <;> rfl
  | some win =>
    rw [modifyCanvasSurface, modifyInk, drawing_updateRecord]
    cases hink : layer.perWindow win <;> simp [drawing, canvasStrokes, canvasSurface, anchorInk, hink]
    rfl

/-- Both are written. -/
theorem drawing_setCanvas {strokes : List (Stroke K)} {f : Surface K → Surface K}
    (hc : (layer.canvasStrokes c).isSome) :
    ((layer.setCanvasStrokes c strokes).modifyCanvasSurface c f).drawing =
      layer.drawing.setPage c (some strokes) ((layer.canvasSurface c).map f) (layer.drawing.frame c) := by
  have hset : (layer.setCanvasStrokes c strokes).drawing = _ := drawing_setCanvasStrokes hc
  have hsurface : (layer.setCanvasStrokes c strokes).canvasSurface = layer.canvasSurface :=
    congrArg Drawing.surface hset
  rw [drawing_modifyCanvasSurface, hset, hsurface]
  exact Drawing.ext rfl rfl rfl rfl rfl rfl rfl rfl rfl rfl (Function.update_eq_self ..).symm

theorem drawing_wipe : layer.wipe.drawing = layer.drawing.wipe fun _ => true := by
  refine Drawing.ext rfl rfl rfl rfl rfl rfl rfl rfl (funext fun c => ?_) (funext fun c => ?_)
    (funext fun c => ?_)
  · cases c with
    | none => rfl
    | some w => simp [drawing, canvasStrokes, wipe, Drawing.wipe, Function.comp_def]
  · cases c with
    | none => rfl
    | some w => simp [drawing, canvasSurface, wipe, Drawing.wipe, Function.comp_def]
  · cases c with
    | none => rfl
    | some w =>
      simp [drawing, anchorInk, wipe, Drawing.wipe, Function.comp_def]
      rfl

end MetaAnnotationLayer

end Annotations
