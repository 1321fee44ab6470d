import Annotations.Gestures.History

/-! What a release does to the ink: a gesture empties the canvases it names, and the ink of
every other canvas is what the release drew before the tap was looked at. -/

namespace Annotations

variable {K : Type} [Scalar K]

/-- The gesture empties the canvas. -/
def TapGesture.wipes : TapGesture → Canvas → Bool
  | .all, _ => true
  | .canvas c, c' => c' = c

namespace MetaAnnotationLayer

variable (layer : MetaAnnotationLayer K)

/-- No stroke of the canvas is left, and nothing painted on its surface. -/
def Cleared (c : Canvas) : Prop :=
  (∀ strokes, layer.canvasStrokes c = some strokes → strokes = []) ∧
    ∀ surface, layer.canvasSurface c = some surface → surface.ops = []

/-- The operation completes a gesture that empties the canvas. -/
def Clears (op : LayerOp K) (c : Canvas) : Prop := ∃ gesture, layer.gestureAt op = some gesture ∧ gesture.wipes c

variable {layer} {c : Canvas} {op : LayerOp K} {r : TapRecord} {gesture : TapGesture} {event : ClutterEvent K}
  {nowUs : ℤ}

omit [Scalar K] in
theorem cleared_of_drawing {d : Drawing K} {C : Canvas → Bool} (hstrokes : layer.canvasStrokes = (d.wipe C).strokes)
    (hsurface : layer.canvasSurface = (d.wipe C).surface) (hc : C c) : layer.Cleared c := by
  refine ⟨fun strokes h => ?_, fun surface h => ?_⟩
  · rw [hstrokes] at h
    simp only [Drawing.wipe, hc, if_true, Option.map_eq_some_iff] at h
    obtain ⟨_, _, rfl⟩ := h
    rfl
  · rw [hsurface] at h
    simp only [Drawing.wipe, hc, if_true, Option.map_eq_some_iff] at h
    obtain ⟨_, _, rfl⟩ := h
    rfl

omit [Scalar K] in
theorem strokes_liftFrom (d : Drawing K) (C : Canvas → Bool) : (d.liftFrom C).strokes = d.strokes := by
  unfold Drawing.liftFrom
  split_ifs <;> rfl

omit [Scalar K] in
theorem surface_liftFrom (d : Drawing K) (C : Canvas → Bool) : (d.liftFrom C).surface = d.surface := by
  unfold Drawing.liftFrom
  split_ifs <;> rfl

omit [Scalar K] in
theorem canvasStrokes_endStroke : layer.endStroke.canvasStrokes = layer.canvasStrokes :=
  congrArg Drawing.strokes drawing_endStroke

omit [Scalar K] in
theorem canvasSurface_endStroke : layer.endStroke.canvasSurface = layer.canvasSurface :=
  congrArg Drawing.surface drawing_endStroke

omit [Scalar K] in
/-- A gesture wipes its canvases, and the end of the stroke leaves them alone. -/
theorem ink_perform : (layer.perform gesture).endStroke.canvasStrokes = (layer.drawing.wipe gesture.wipes).strokes ∧
    (layer.perform gesture).endStroke.canvasSurface = (layer.drawing.wipe gesture.wipes).surface := by
  have hdrawing : (layer.perform gesture).drawing =
      (layer.drawing.wipe gesture.wipes).liftFrom gesture.wipes := by
    cases gesture with
    | all => exact drawing_clear
    | canvas c => exact drawing_clearInkForAnchor
  rw [canvasStrokes_endStroke, canvasSurface_endStroke]
  exact ⟨(congrArg Drawing.strokes hdrawing).trans (strokes_liftFrom _ _),
    (congrArg Drawing.surface hdrawing).trans (surface_liftFrom _ _)⟩

/-- The ink after a gesture is what the release drew, with the canvases of the gesture wiped. -/
theorem ink_exec_of_gesture (h : layer.gestureAt op = some gesture) : ∃ event nowUs, op = .handleEvent event nowUs ∧
    (layer.exec op).canvasStrokes = ((layer.releasing event).drawing.wipe gesture.wipes).strokes ∧
    (layer.exec op).canvasSurface = ((layer.releasing event).drawing.wipe gesture.wipes).surface := by
  obtain ⟨r, htap, hgesture⟩ := Option.bind_eq_some_iff.mp h
  obtain ⟨event, nowUs, rfl, hreleases, htap⟩ := exists_of_acceptedTap htap
  have hhistory : (layer.releasing event).tapHistory = layer.tapHistory :=
    tapHistory_of_pointers (pointers_releasing event)
  refine ⟨event, nowUs, rfl, ?_⟩
  rw [exec_of_releases hreleases, releaseAt_eq, noteTapRelease_of_tap htap, checkTapGestures_eq]
  simp only [hhistory, hgesture]
  exact ink_perform

/-- A gesture empties the canvases it names. -/
theorem cleared_exec (h : layer.Clears op c) : (layer.exec op).Cleared c := by
  obtain ⟨gesture, hgesture, hwipes⟩ := h
  obtain ⟨event, nowUs, rfl, hstrokes, hsurface⟩ := ink_exec_of_gesture hgesture
  exact cleared_of_drawing hstrokes hsurface hwipes

/-- A release that completes no gesture for the canvas leaves its ink as it drew it. -/
theorem ink_exec_of_release (hreleases : layer.releases event)
    (h : ¬ layer.Clears (.handleEvent event nowUs) c) :
    (layer.exec (.handleEvent event nowUs)).canvasStrokes c = (layer.releasing event).canvasStrokes c ∧
      (layer.exec (.handleEvent event nowUs)).canvasSurface c = (layer.releasing event).canvasSurface c := by
  cases hgesture : layer.gestureAt (.handleEvent event nowUs) with
  | some gesture =>
    obtain ⟨event', nowUs', heq, hstrokes, hsurface⟩ := ink_exec_of_gesture hgesture
    obtain ⟨rfl, rfl⟩ := LayerOp.handleEvent.inj heq
    have hkept : gesture.wipes c = false := by
      by_contra hwipes
      exact h ⟨gesture, hgesture, eq_true_of_ne_false hwipes⟩
    rw [hstrokes, hsurface]
    simp only [Drawing.wipe, hkept, Bool.false_eq_true, if_false]
    exact ⟨rfl, rfl⟩
  | none =>
    rw [exec_of_releases hreleases, releaseAt_eq, canvasStrokes_endStroke, canvasSurface_endStroke]
    cases htap : (layer.releasing event).tapAt event.x event.y nowUs with
    | none =>
      rw [noteTapRelease_of_none htap]
      exact ⟨by cases c <;> rfl, by cases c <;> rfl⟩
    | some r =>
      have haccepted : layer.acceptedTap (.handleEvent event nowUs) = some r :=
        (if_pos hreleases).trans htap
      have hhistory : (layer.releasing event).tapHistory = layer.tapHistory :=
        tapHistory_of_pointers (pointers_releasing event)
      rw [gestureAt, haccepted, Option.bind_some] at hgesture
      rw [noteTapRelease_of_tap htap, checkTapGestures_eq]
      simp only [hhistory, hgesture]
      exact ⟨by cases c <;> rfl, by cases c <;> rfl⟩

end MetaAnnotationLayer

end Annotations
