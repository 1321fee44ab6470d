import Annotations.Layer.Windows

/-! Composition: scheduling and `recompose`. A cairo region is the set of its pixels,
so that clipping by the rectangles of a region is clipping by the region, and a
region without rectangles clips everything. -/

namespace Annotations

variable {K : Type} [Scalar K]

/-! ### Cairo regions and painting -/

abbrev CairoRegion := ℤ → ℤ → Bool

namespace CairoRegion

def create : CairoRegion := fun _ _ => false

def createRectangle (r : MtkRectangle) : CairoRegion := fun x y =>
  r.x ≤ x && x < r.x + r.width && r.y ≤ y && y < r.y + r.height

def subtract (dst other : CairoRegion) : CairoRegion := fun x y => dst x y && !other x y

def union (dst other : CairoRegion) : CairoRegion := fun x y => dst x y || other x y

end CairoRegion

/-- What a surface contributes at one of its pixels: nothing outside its bounds, and
nothing while nothing has been painted on it. -/
def Surface.pixelAt (source : Surface K) (x y : ℤ) : Pixel K :=
  if 0 ≤ x ∧ x < source.width ∧ 0 ≤ y ∧ y < source.height ∧ ¬ source.ops.isEmpty then
    [⟨source, x, y⟩]
  else []

namespace Composite

variable (composite : Composite K)

def clear : Composite K := { composite with pixel := fun _ _ => [] }

/-- `cairo_paint` with operator OVER of a surface placed at `(originX, originY)`. -/
def paintSurface (clip : CairoRegion) (source : Surface K) (originX originY : ℤ) : Composite K :=
  { composite with
    pixel := fun x y =>
      if clip x y then source.pixelAt (x - originX) (y - originY) ++ composite.pixel x y
      else composite.pixel x y }

/-- `cairo_fill` with operator CLEAR. -/
def fillClear (path : CairoRegion) : Composite K :=
  { composite with pixel := fun x y => if path x y then [] else composite.pixel x y }

end Composite

/-- `window_is_visible_for_ink`. -/
def windowIsVisibleForInk (win : MetaWindow) (activeWs : Option ℕ) : Bool :=
  windowIsEligibleAnchor win activeWs && !win.minimized

namespace MetaAnnotationLayer

variable (layer : MetaAnnotationLayer K)

/-- `schedule_recompose`. -/
def scheduleRecompose : MetaAnnotationLayer K :=
  if layer.surface.isNone then layer
  else if !layer.active || layer.paused then { layer with recomposeDirty := true }
  else { layer with recomposeIdle := true }

omit [Scalar K] in
theorem scheduleRecompose_eq : layer.scheduleRecompose =
    { layer with
      recomposeDirty := layer.scheduleRecompose.recomposeDirty
      recomposeIdle := layer.scheduleRecompose.recomposeIdle } := by
  unfold scheduleRecompose
  split_ifs <;> rfl

/-- The parallel arrays `visible_windows` and `rects`, bottom to top. -/
def visibleWindows : List (WindowId × MtkRectangle) :=
  layer.display.sortedWindows.filterMap fun win =>
    let fr := layer.frameRect win
    if windowIsVisibleForInk (layer.display.window win) layer.display.activeWorkspace ∧
        1 ≤ fr.width ∧ 1 ≤ fr.height then some (win, fr)
    else none

def stageRect : MtkRectangle := ⟨0, 0, layer.stageWidth, layer.stageHeight⟩

/-- The clip of the unattached ink: the stage less every visible frame. -/
def unattachedRegion : CairoRegion :=
  layer.visibleWindows.foldl (fun vis w => vis.subtract (.createRectangle w.2))
    (.createRectangle layer.stageRect)

end MetaAnnotationLayer

/-- The reverse loop over the visible windows: every window with its frame less
`covered_by_higher`, and `covered_by_higher` after the loop. -/
def visRegions : List (WindowId × MtkRectangle) →
    List (WindowId × MtkRectangle × CairoRegion) × CairoRegion
  | [] => ([], .create)
  | (win, fr) :: rest =>
    let above := visRegions rest
    ((win, fr, (CairoRegion.createRectangle fr).subtract above.2) :: above.1,
      above.2.union (.createRectangle fr))

namespace MetaAnnotationLayer

variable (layer : MetaAnnotationLayer K)

/-- One turn of the forward loop: the ink of one window, clipped to its region. -/
def paintWindow (composite : Composite K) (w : WindowId × MtkRectangle × CairoRegion) :
    Composite K :=
  match layer.perWindow w.1 with
  | none => composite
  | some ink => composite.paintSurface w.2.2 ink.surface w.2.1.x w.2.1.y

def chromeFill : CairoRegion := fun x y =>
  layer.chromeRegions.any fun r => CairoRegion.createRectangle r.rect x y

/-- The unattached ink, clipped to the stage and to its region. -/
def paintUnattached (composite : Composite K) : Composite K :=
  match layer.unattachedSurface with
  | none => composite
  | some unattached =>
    composite.paintSurface
      (fun x y => CairoRegion.createRectangle layer.stageRect x y && layer.unattachedRegion x y)
      unattached 0 0

/-- What `recompose` writes into the composite surface. -/
def recomposeSurface (surface : Composite K) : Composite K :=
  let composite := layer.paintUnattached surface.clear
  let composite := (visRegions layer.visibleWindows).1.foldl layer.paintWindow composite
  if layer.chromeRegions.isEmpty then composite else composite.fillClear layer.chromeFill

/-- `recompose`. The layer's surface is not replaced while it runs, so the last
branch of the source always uploads. -/
def recompose : MetaAnnotationLayer K :=
  match layer.surface with
  | none => layer
  | some surface =>
    if !layer.active || layer.paused then { layer with recomposeDirty := true }
    else { layer with recomposeDirty := false, surface := some (layer.recomposeSurface surface) }

omit [Scalar K] in
theorem recompose_eq : layer.recompose =
    { layer with
      recomposeDirty := layer.recompose.recomposeDirty
      surface := layer.recompose.surface } := by
  unfold recompose
  cases hsurface : layer.surface with
  | none => simp
  | some surface =>
    dsimp only
    split_ifs
    · simp [← hsurface]
    · rfl

/-- `recompose_idle_cb`, when the source is pending. -/
def recomposeIdleCb : MetaAnnotationLayer K :=
  if layer.recomposeIdle then { layer with recomposeIdle := false }.recompose else layer

end MetaAnnotationLayer

end Annotations
