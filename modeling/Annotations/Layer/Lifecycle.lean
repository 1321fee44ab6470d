import Annotations.Layer.Stroking

/-! The D-Bus operations of the layer: clear, undo, activation, pause, colour, the
editor region and the scroll of a process, and the chrome regions. -/

namespace Annotations

open Scalar (toFloat)

variable {K : Type} [Scalar K]

/-- The colour as the layer keeps it. -/
def Rgba.rounded (rgba : Rgba K) : Rgba K := ⟨toFloat rgba.r, toFloat rgba.g, toFloat rgba.b, toFloat rgba.a⟩

namespace MetaAnnotationLayer

variable (layer : MetaAnnotationLayer K)

/-- `g_clear_handle_id` on the pending idle. -/
def dropIdle : MetaAnnotationLayer K := { layer with recomposeIdle := false }

/-- What `meta_annotation_layer_clear` empties: every canvas and the composite. -/
def wipe : MetaAnnotationLayer K :=
  { layer with
    unattachedSurface := layer.unattachedSurface.map surfaceClear
    unattachedStrokes := []
    perWindow := fun win => (layer.perWindow win).map fun ink =>
      { ink with surface := surfaceClear ink.surface, strokes := [] }
    surface := layer.surface.map Composite.clear }

/-- `meta_annotation_layer_clear`. -/
def clear : MetaAnnotationLayer K :=
  let layer := (layer.wipe.sealStroke layer.strokeFollowScroll).setLastInkAnchor none false
  layer.dropIdle.recompose

/-- A stroke in flight on the canvas is severed. -/
def severAt (target : Canvas) : MetaAnnotationLayer K :=
  if layer.strokeActive && layer.strokeAnchor = target then layer.sealStroke false else layer

/-- `meta_annotation_layer_undo_last`. -/
def undoLast : MetaAnnotationLayer K :=
  if !layer.lastInkPresent then layer
  else
    let target := layer.lastInkAnchor
    match layer.canvasStrokes target with
    | none | some [] => (layer.setLastInkAnchor none false).scheduleRecompose
    | some (s :: rest) =>
      let strokes := (s :: rest).dropLast
      let layer := layer.severAt target
      let layer := (layer.setCanvasStrokes target strokes).modifyCanvasSurface target fun surface =>
        rasterizeAllStrokesWithInk surface strokes (layer.anchorInk target)
      let layer := if strokes.isEmpty then layer.setLastInkAnchor none false else layer
      layer.scheduleRecompose

/-- `update_actor_visibility`. -/
def updateActorVisibility : MetaAnnotationLayer K :=
  if layer.active && !layer.paused then
    let layer := if layer.recomposeDirty then layer.dropIdle.recompose else layer
    { layer with actorShown := true }
  else { layer with actorShown := false }

/-- What deactivation resets: the barrel modifiers, the stroke pointer and the undo target. -/
def dropInk : MetaAnnotationLayer K :=
  { layer with
    penBarrelButtons := 0
    currentStroke := none
    lastInkAnchor := none
    lastInkPresent := false }

/-- `meta_annotation_layer_set_active`. -/
def setActive (active : Bool) : MetaAnnotationLayer K :=
  let layer := { layer with
    active := active
    input := layer.input.setNonMousePointerIsolated active }
  let layer := if active then layer else layer.dropInk
  layer.updateActorVisibility

/-- `meta_annotation_layer_set_paused`. -/
def setPaused (paused : Bool) : MetaAnnotationLayer K :=
  let wasPaused := layer.paused
  let layer := { layer with paused := paused }
  let layer := if !wasPaused && paused && layer.strokeActive then
      layer.sealStroke layer.strokeFollowScroll
    else layer
  let layer := if !wasPaused && paused then { layer with penBarrelButtons := 0 } else layer
  layer.updateActorVisibility

/-- `meta_annotation_layer_set_color`. -/
def setColor (rgba : Rgba K) : MetaAnnotationLayer K := { layer with rgba := rgba.rounded }

/-! ### Scroll-following -/

/-- One turn of the loop of `meta_annotation_layer_set_window_editor_region`. -/
def setEditorRegionOf (x y w h : ℤ) (win : WindowId) : MetaAnnotationLayer K :=
  let layer := layer.ensureWindowInk win
  match layer.perWindow win with
  | none => layer
  | some ink =>
    let hadRegion := ink.hasEditorRegion
    let ink := if w ≤ 0 ∨ h ≤ 0 then
        { ink with hasEditorRegion := false, editorX := 0, editorY := 0, editorW := 0, editorH := 0 }
      else { ink with
        hasEditorRegion := true
        editorX := toFloat x
        editorY := toFloat y
        editorW := toFloat w
        editorH := toFloat h }
    let ink := if hadRegion || ink.hasEditorRegion then
        { ink with surface := rasterizeAllStrokesWithInk ink.surface ink.strokes (some ink) }
      else ink
    let layer := layer.modifyInk win fun _ => ink
    if layer.strokeActive && layer.strokeAnchor = some win then layer.sealStroke false else layer

/-- `meta_annotation_layer_set_window_editor_region`. -/
def setWindowEditorRegion (pid : ℕ) (x y w h : ℤ) : MetaAnnotationLayer K :=
  let windows := layer.display.collectWindowsForPid pid
  if windows.isEmpty then layer
  else (windows.foldl (fun layer win => layer.setEditorRegionOf x y w h win) layer).scheduleRecompose

/-- One turn of the loop of `meta_annotation_layer_set_window_scroll`. -/
def setScrollOf (scrollX scrollY : ℤ) (win : WindowId) : MetaAnnotationLayer K :=
  match layer.perWindow win with
  | none => layer
  | some ink =>
    if ink.scrollX = toFloat (scrollX : K) ∧ ink.scrollY = toFloat (scrollY : K) then layer
    else
      let ink := { ink with scrollX := toFloat (scrollX : K), scrollY := toFloat (scrollY : K) }
      let ink := { ink with surface := rasterizeAllStrokesWithInk ink.surface ink.strokes (some ink) }
      let layer := layer.modifyInk win fun _ => ink
      if layer.strokeActive && layer.strokeAnchor = some win && layer.strokeFollowScroll then
        layer.sealStroke false
      else layer

/-- `meta_annotation_layer_set_window_scroll`. -/
def setWindowScroll (pid : ℕ) (scrollX scrollY : ℤ) : MetaAnnotationLayer K :=
  let windows := layer.display.collectWindowsForPid pid
  if windows.isEmpty then layer
  else (windows.foldl (fun layer win => layer.setScrollOf scrollX scrollY win) layer).scheduleRecompose

/-! ### Chrome regions -/

/-- One entry of the published list, dropped when its size is not positive. -/
def chromeRegionOf (entry : String × MtkRectangle) : Option ChromeRegion :=
  if h : 0 < entry.2.width ∧ 0 < entry.2.height then some ⟨entry.1, entry.2, h.1, h.2⟩ else none

/-- `meta_annotation_layer_set_chrome_regions`; NULL only empties the list. -/
def setChromeRegions (regions : Option (List (String × MtkRectangle))) : MetaAnnotationLayer K :=
  match regions with
  | none => { layer with chromeRegions := [] }
  | some entries =>
    let layer := { layer with chromeRegions := entries.filterMap chromeRegionOf }
    layer.scheduleRecompose

/-- `meta_annotation_layer_clear_chrome_regions`. -/
def clearChromeRegions : MetaAnnotationLayer K :=
  let layer := { layer with chromeRegions := [], chromePressId := none }
  layer.scheduleRecompose

/-- `meta_annotation_layer_pick_chrome_region`: the last region that holds the point. -/
def pickChromeRegion (x y : K) : Option String :=
  (layer.chromeRegions.reverse.find? fun r =>
    Scalar.grapheneRectContainsPoint (r.rect.x : K) r.rect.y r.rect.width r.rect.height x y).map (·.id)

/-- `meta_annotation_layer_set_chrome_press_active`. -/
def setChromePressActive (id : Option String) : MetaAnnotationLayer K :=
  { layer with chromePressId := id }

/-- `meta_annotation_layer_clear_chrome_press`. -/
def clearChromePress : MetaAnnotationLayer K := { layer with chromePressId := none }

end MetaAnnotationLayer

end Annotations
