import Annotations.Composite.Partition

/-! What `recompose` reads, and what it leaves for later. `picture` is everything the
composite is computed from and `easel` the bookkeeping around it: functions that draw
nothing keep both, and functions that draw keep the easel until they schedule. -/

namespace Annotations

variable {K : Type}

/-- What the composite is computed from. -/
structure Picture (K : Type) where
  visibleWindows : List (WindowId × MtkRectangle)
  stageWidth : ℤ
  stageHeight : ℤ
  chromeRegions : List ChromeRegion
  canvasAt : Canvas → ℤ → ℤ → Pixel K

/-- The composite and the flags that decide when it is computed again. -/
structure Easel (K : Type) where
  active : Bool
  paused : Bool
  surface : Option (Composite K)
  recomposeDirty : Bool
  recomposeIdle : Bool

namespace MetaAnnotationLayer

def picture (layer : MetaAnnotationLayer K) : Picture K where
  visibleWindows := layer.visibleWindows
  stageWidth := layer.stageWidth
  stageHeight := layer.stageHeight
  chromeRegions := layer.chromeRegions
  canvasAt := layer.canvasAt

def easel (layer : MetaAnnotationLayer K) : Easel K where
  active := layer.active
  paused := layer.paused
  surface := layer.surface
  recomposeDirty := layer.recomposeDirty
  recomposeIdle := layer.recomposeIdle

variable {layer layer' : MetaAnnotationLayer K} {composite : Composite K} {c : Canvas} {win : WindowId}

/-- The picture determines the composite. -/
theorem recomposeSurface_congr (h : layer'.picture = layer.picture) :
    layer'.recomposeSurface composite = layer.recomposeSurface composite := by
  have hcanvas : layer'.canvasAt = layer.canvasAt := congrArg Picture.canvasAt h
  have hchrome : layer'.chromeRegions = layer.chromeRegions := congrArg Picture.chromeRegions h
  have hstage : layer'.stageRect = layer.stageRect :=
    congrArg (fun p : Picture K => (⟨0, 0, p.stageWidth, p.stageHeight⟩ : MtkRectangle)) h
  have hwindows : layer'.visibleWindows = layer.visibleWindows := congrArg Picture.visibleWindows h
  have hregion : layer'.unattachedRegion = layer.unattachedRegion := by
    rw [unattachedRegion, unattachedRegion, hwindows, hstage]
  have hfill : layer'.chromeFill = layer.chromeFill := by
    unfold chromeFill
    rw [hchrome]
  have hunattached : layer'.paintUnattached = layer.paintUnattached :=
    funext fun composite => by rw [paintUnattached_eq, paintUnattached_eq, hregion, hcanvas]
  have hwindow : layer'.paintWindow = layer.paintWindow :=
    funext fun composite => funext fun w => by rw [paintWindow_eq, paintWindow_eq, hcanvas]
  rw [recomposeSurface, recomposeSurface, hunattached, hwindow, hwindows, hchrome, hfill]

/-- Recomposing keeps the size of the composite. -/
theorem clear_recomposeSurface : (layer.recomposeSurface composite).clear = composite.clear := by
  have hfold : ∀ (parts : List (WindowId × MtkRectangle × CairoRegion)) (composite : Composite K),
      (parts.foldl layer.paintWindow composite).clear = composite.clear := by
    intro parts
    induction parts with
    | nil => exact fun _ => rfl
    | cons w parts ih =>
      intro composite
      rw [List.foldl_cons, ih, paintWindow_eq]
      rfl
  have hpainted : ((visRegions layer.visibleWindows).1.foldl layer.paintWindow
      (layer.paintUnattached composite.clear)).clear = composite.clear := by
    rw [hfold, paintUnattached_eq]
    rfl
  unfold recomposeSurface
  dsimp only
  split_ifs
  · exact hpainted
  · exact hpainted

/-- Recomposing twice draws the same. -/
theorem recomposeSurface_recomposeSurface :
    layer.recomposeSurface (layer.recomposeSurface composite) = layer.recomposeSurface composite := by
  have hclear : ∀ a b : Composite K, a.clear = b.clear →
      layer.recomposeSurface a = layer.recomposeSurface b := by
    intro a b h
    unfold recomposeSurface
    rw [h]
  exact hclear _ _ clear_recomposeSurface

/-! ### Functions that draw nothing -/

/-- Nothing of the picture or the easel differs. -/
structure Quiet (layer layer' : MetaAnnotationLayer K) : Prop where
  easel : layer'.easel = layer.easel
  picture : layer'.picture = layer.picture

theorem Quiet.trans {layer'' : MetaAnnotationLayer K} (h : Quiet layer layer')
    (h' : Quiet layer' layer'') : Quiet layer layer'' :=
  ⟨h'.easel.trans h.easel, h'.picture.trans h.picture⟩

/-- A change of the canvases that shows in none of them. -/
theorem quiet_of_canvasAt (heasel : layer'.easel = layer.easel)
    (hrest : ({ layer'.picture with canvasAt := layer.canvasAt } : Picture K) = layer.picture)
    (hcanvas : ∀ c x y, layer'.canvasAt c x y = layer.canvasAt c x y) : Quiet layer layer' := by
  refine ⟨heasel, Eq.trans ?_ hrest⟩
  have hsame : layer'.canvasAt = layer.canvasAt :=
    funext fun c => funext fun x => funext fun y => hcanvas c x y
  rw [← hsame]
  rfl

theorem quiet_setCanvasStrokes (strokes : List (Stroke K)) :
    Quiet layer (layer.setCanvasStrokes c strokes) := by
  cases c with
  | none => exact ⟨rfl, rfl⟩
  | some win =>
    refine quiet_of_canvasAt rfl rfl fun c x y => ?_
    cases c with
    | none => rfl
    | some w =>
      by_cases hw : w = win
      · subst hw
        cases hink : layer.perWindow w <;>
          simp [canvasAt, canvasSurface, setCanvasStrokes, modifyInk, hink]
      · simp [canvasAt, canvasSurface, setCanvasStrokes, modifyInk, hw]

/-- A new canvas shows nothing. -/
theorem quiet_ensureWindowInk [Scalar K] : Quiet layer (layer.ensureWindowInk win) := by
  unfold ensureWindowInk
  cases hink : layer.perWindow win with
  | some ink => exact ⟨rfl, rfl⟩
  | none =>
    dsimp only
    split_ifs
    · exact ⟨rfl, rfl⟩
    · refine quiet_of_canvasAt rfl rfl fun c x y => ?_
      cases c with
      | none => rfl
      | some w =>
        by_cases hw : w = win
        · subst hw
          simp [canvasAt, canvasSurface, hink, Surface.pixelAt, cairoSurfaceNewCleared]
        · simp [canvasAt, canvasSurface, hw]

/-- A write through a stroke pointer paints nothing. -/
theorem quiet_writeStroke (addr : ℕ) (f : Stroke K → Stroke K) :
    Quiet layer (layer.writeStroke addr f) := by
  refine quiet_of_canvasAt rfl rfl fun c x y => ?_
  cases c with
  | none => rfl
  | some w => cases hink : layer.perWindow w <;> simp [canvasAt, canvasSurface, writeStroke, hink]

variable [Scalar K]

theorem quiet_appendInkPoint (pt : InkPoint K) (followScroll : Bool) :
    Quiet layer (layer.appendInkPoint c pt followScroll) := by
  unfold appendInkPoint
  split
  · exact ⟨rfl, rfl⟩
  next strokes _ =>
    have hopen : Quiet layer (layer.openStroke c strokes followScroll) :=
      (quiet_setCanvasStrokes _).trans ⟨rfl, rfl⟩
    have hwrite : ∀ (layer : MetaAnnotationLayer K) addr, Quiet layer
        { layer.writeStroke addr fun s => strokeAppendPoint s pt with
          ledger := { layer.ledger with newestInk := some c } } :=
      fun layer addr => (quiet_writeStroke addr _).trans ⟨rfl, rfl⟩
    dsimp only
    split_ifs
    · split
      · exact hopen
      · exact hopen.trans (hwrite _ _)
    · split
      · exact ⟨rfl, rfl⟩
      · exact hwrite _ _

theorem quiet_placeStroke (x y : K) (pressure tiltFactor : Option K) :
    Quiet layer (layer.placeStroke x y pressure tiltFactor) := by
  unfold placeStroke
  dsimp only
  split
  · refine Quiet.trans (Quiet.trans ?_ quiet_ensureWindowInk) ⟨rfl, rfl⟩
    exact ⟨rfl, rfl⟩
  · exact ⟨rfl, rfl⟩

/-- Beginning a stroke paints nothing. -/
theorem quiet_beginStroke (x y : K) (pressure tiltFactor : Option K) (erase : Bool) :
    Quiet layer (layer.beginStroke x y pressure tiltFactor erase) := by
  have hplace : Quiet layer (layer.placeStroke x y pressure tiltFactor) := quiet_placeStroke ..
  unfold beginStroke
  dsimp only
  split_ifs
  · exact hplace.trans ⟨rfl, rfl⟩
  · refine hplace.trans (Quiet.trans ?_ (quiet_appendInkPoint ..))
    exact ⟨rfl, rfl⟩

/-! ### Functions that draw, up to their scheduling -/

omit [Scalar K] in
theorem easel_modifyCanvasSurface (f : Surface K → Surface K) :
    (layer.modifyCanvasSurface c f).easel = layer.easel := by
  cases c <;> rfl

theorem easel_continueErase (x y pEnd tEnd : K) :
    (layer.continueErase x y pEnd tEnd).easel = layer.easel := by
  unfold continueErase
  dsimp only
  split
  · split_ifs
    · rw [easel_modifyCanvasSurface, (quiet_setCanvasStrokes _).easel]
      rfl
    · rfl
  · rfl

theorem easel_continueInk (x y pEnd tEnd : K) :
    (layer.continueInk x y pEnd tEnd).easel = layer.easel := by
  unfold continueInk
  dsimp only
  split
  · split_ifs
    · rw [(quiet_appendInkPoint ..).easel, (quiet_appendInkPoint ..).easel, easel_modifyCanvasSurface]
    · rw [(quiet_appendInkPoint ..).easel, easel_modifyCanvasSurface]
  · rfl

theorem easel_setEditorRegionOf (x y w h : ℤ) :
    (layer.setEditorRegionOf x y w h win).easel = layer.easel := by
  have hensure : (layer.ensureWindowInk win).easel = layer.easel := quiet_ensureWindowInk.easel
  unfold setEditorRegionOf
  dsimp only
  split
  · exact hensure
  · split_ifs <;> exact hensure

theorem easel_setScrollOf (scrollX scrollY : ℤ) :
    (layer.setScrollOf scrollX scrollY win).easel = layer.easel := by
  unfold setScrollOf
  dsimp only
  split
  · rfl
  · split_ifs <;> rfl

omit [Scalar K] in
theorem easel_foldl {f : MetaAnnotationLayer K → WindowId → MetaAnnotationLayer K}
    (hf : ∀ layer win, (f layer win).easel = layer.easel) (wins : List WindowId) :
    (wins.foldl f layer).easel = layer.easel := by
  induction wins generalizing layer with
  | nil => rfl
  | cons win wins ih => rw [List.foldl_cons, ih, hf]

theorem easel_windowInkResizeToFrame : (layer.windowInkResizeToFrame win).easel = layer.easel := by
  unfold windowInkResizeToFrame
  dsimp only
  split_ifs <;> rfl

end MetaAnnotationLayer

end Annotations
