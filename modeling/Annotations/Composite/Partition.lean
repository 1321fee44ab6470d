import Annotations.Layer.Step
import Annotations.Runs.Basic
import Annotations.Stacking.Topmost

/-! The composite is a partition of the stage: every pixel shows the canvas of the
topmost visible window there, or the desktop's where there is no window, and nothing
under a chrome region. The two loops of `recompose` cut the frames by those above them. -/

namespace Annotations

open Stacking

variable {K : Type}

/-- The frame of a visible window holds the pixel. -/
def frameHolds (w : WindowId × MtkRectangle) (pixel : ℤ × ℤ) : Prop :=
  CairoRegion.createRectangle w.2 pixel.1 pixel.2

variable {wins : List (WindowId × MtkRectangle)} {win : WindowId} {fr : MtkRectangle} {x y : ℤ}

/-! ### The regions of the windows -/

/-- `covered_by_higher` is the union of the frames. -/
theorem visRegions_snd : (visRegions wins).2 x y ↔ ¬ Uncovered frameHolds wins (x, y) := by
  induction wins with
  | nil => simp [visRegions, CairoRegion.create]
  | cons w wins ih =>
    simp only [visRegions, CairoRegion.union, Bool.or_eq_true, ih, uncovered_cons, frameHolds]
    tauto

/-- The regions of the windows are their frames, each cut by those above it. -/
theorem visRegions_eq_cut : (visRegions wins).1.map (fun w => ((w.1, w.2.1), fun pixel : ℤ × ℤ =>
    (w.2.2 pixel.1 pixel.2 : Prop))) = cut frameHolds wins := by
  induction wins with
  | nil => rfl
  | cons w wins ih =>
    rw [visRegions, List.map_cons, ih, cut]
    refine congrArg (· :: _) (Prod.ext rfl (funext fun pixel => propext ?_))
    have hcovered : (visRegions wins).2 pixel.1 pixel.2 = false ↔ Uncovered frameHolds wins pixel := by
      rw [← Bool.not_eq_true, visRegions_snd, not_not]
    simp only [CairoRegion.subtract, Bool.and_eq_true, Bool.not_eq_true', hcovered, frameHolds]

/-- The region that holds a pixel is that of the topmost window there. -/
theorem exists_region_iff : (∃ region, (win, fr, region) ∈ (visRegions wins).1 ∧ region x y) ↔
    Topmost frameHolds wins (win, fr) (x, y) := by
  rw [← exists_mem_cut, ← visRegions_eq_cut]
  simp only [List.mem_map, Prod.mk.injEq, Prod.exists]
  constructor
  · rintro ⟨region, hmem, hholds⟩
    exact ⟨_, ⟨win, fr, region, hmem, ⟨rfl, rfl⟩, rfl⟩, hholds⟩
  · rintro ⟨_, ⟨win', fr', region, hmem, ⟨rfl, rfl⟩, rfl⟩, hholds⟩
    exact ⟨region, hmem, hholds⟩

/-- No pixel is in two regions. -/
theorem visRegions_pairwise :
    (visRegions wins).1.Pairwise fun v w => v.2.2 x y → ¬ w.2.2 x y := by
  have hcut : (cut frameHolds wins).Pairwise fun v w => ∀ a, v.2 a → ¬ w.2 a := cut_pairwise_disjoint
  rw [← visRegions_eq_cut, List.pairwise_map] at hcut
  exact hcut.imp fun h => h (x, y)

namespace MetaAnnotationLayer

variable {layer : MetaAnnotationLayer K} {composite : Composite K}

/-- The clip of the unattached ink is the stage where no window is. -/
theorem unattachedRegion_iff : layer.unattachedRegion x y ↔
    CairoRegion.createRectangle layer.stageRect x y ∧
      Uncovered frameHolds layer.visibleWindows (x, y) := by
  have hfold : ∀ (wins : List (WindowId × MtkRectangle)) (region : CairoRegion),
      wins.foldl (fun vis w => vis.subtract (.createRectangle w.2)) region x y ↔
        region x y ∧ Uncovered frameHolds wins (x, y) := by
    intro wins
    induction wins with
    | nil => simp
    | cons w wins ih =>
      intro region
      rw [List.foldl_cons, ih, uncovered_cons, ← and_assoc]
      simp [CairoRegion.subtract, frameHolds]
  exact hfold ..

/-! ### Painting -/

/-- What a canvas has at one of its own pixels. -/
def canvasAt (layer : MetaAnnotationLayer K) (c : Canvas) (x y : ℤ) : Pixel K :=
  match layer.canvasSurface c with
  | none => []
  | some surface => surface.pixelAt x y

/-- Painting the canvas of a window in its region, with the origin of the canvas at the
origin of the frame. -/
theorem paintWindow_eq (w : WindowId × MtkRectangle × CairoRegion) :
    layer.paintWindow composite w = { composite with
      pixel := fun x y =>
        if w.2.2 x y then layer.canvasAt (some w.1) (x - w.2.1.x) (y - w.2.1.y) ++ composite.pixel x y
        else composite.pixel x y } := by
  cases hink : layer.perWindow w.1 <;>
    simp [paintWindow, canvasAt, canvasSurface, hink, Composite.paintSurface]

/-- Painting the unattached canvas in its region. -/
theorem paintUnattached_eq : layer.paintUnattached composite = { composite with
    pixel := fun x y =>
      if layer.unattachedRegion x y then layer.canvasAt none x y ++ composite.pixel x y
      else composite.pixel x y } := by
  have hclip : ∀ x y, (CairoRegion.createRectangle layer.stageRect x y && layer.unattachedRegion x y) =
      layer.unattachedRegion x y := by
    intro x y
    rw [Bool.and_eq_right_iff_imp]
    exact fun h => (unattachedRegion_iff.mp h).1
  cases hsurface : layer.unattachedSurface <;>
    simp [paintUnattached, canvasAt, canvasSurface, hsurface, Composite.paintSurface,
      -Bool.and_eq_true, hclip]

/-- Painting leaves a pixel alone that is in no region. -/
theorem pixel_foldl_of_not {parts : List (WindowId × MtkRectangle × CairoRegion)}
    (h : ∀ w ∈ parts, ¬ w.2.2 x y) :
    (parts.foldl layer.paintWindow composite).pixel x y = composite.pixel x y := by
  induction parts generalizing composite with
  | nil => rfl
  | cons w parts ih =>
    rw [List.foldl_cons, ih fun v hv => h v (by simp [hv]), paintWindow_eq]
    exact if_neg (h w (by simp))

/-- A pixel in one region receives the ink of its window. -/
theorem pixel_foldl_of_mem {parts : List (WindowId × MtkRectangle × CairoRegion)}
    (hdisjoint : parts.Pairwise fun v w => v.2.2 x y → ¬ w.2.2 x y) {region : CairoRegion}
    (hmem : (win, fr, region) ∈ parts) (hholds : region x y) :
    (parts.foldl layer.paintWindow composite).pixel x y =
      layer.canvasAt (some win) (x - fr.x) (y - fr.y) ++ composite.pixel x y := by
  induction parts generalizing composite with
  | nil => cases hmem
  | cons w parts ih =>
    rw [List.pairwise_cons] at hdisjoint
    rw [List.foldl_cons]
    rcases List.mem_cons.mp hmem with rfl | hrest
    · rw [pixel_foldl_of_not fun v hv => hdisjoint.1 v hv hholds, paintWindow_eq]
      exact if_pos hholds
    · have hbelow : ¬ w.2.2 x y := fun hw => hdisjoint.1 _ hrest hw hholds
      rw [ih hdisjoint.2 hrest, paintWindow_eq]
      exact congrArg (_ ++ ·) (if_neg hbelow)

/-! ### The composite -/

/-- The pixel is in a chrome region. -/
def InChrome (layer : MetaAnnotationLayer K) (x y : ℤ) : Prop :=
  ∃ r ∈ layer.chromeRegions, CairoRegion.createRectangle r.rect x y

theorem chromeFill_iff : layer.chromeFill x y ↔ layer.InChrome x y := by
  simp [chromeFill, InChrome]

/-- Clearing the chrome regions comes last. -/
theorem pixel_recomposeSurface {surface : Composite K} :
    (layer.recomposeSurface surface).pixel x y =
      if layer.chromeFill x y then []
      else ((visRegions layer.visibleWindows).1.foldl layer.paintWindow
        (layer.paintUnattached surface.clear)).pixel x y := by
  unfold recomposeSurface
  dsimp only
  split_ifs with hempty hchrome hchrome
  · simp [chromeFill, List.isEmpty_iff.mp hempty] at hchrome
  · rfl
  · simp [Composite.fillClear, hchrome]
  · simp [Composite.fillClear, hchrome]

/-- Outside the chrome regions a pixel shows the canvas of the topmost window there. -/
theorem pixel_of_topmost {surface : Composite K} (hchrome : ¬ layer.InChrome x y)
    (htop : Topmost frameHolds layer.visibleWindows (win, fr) (x, y)) :
    (layer.recomposeSurface surface).pixel x y = layer.canvasAt (some win) (x - fr.x) (y - fr.y) := by
  obtain ⟨region, hmem, hholds⟩ := exists_region_iff.mpr htop
  have hcovered : ¬ layer.unattachedRegion x y := fun h =>
    htop.not_uncovered (unattachedRegion_iff.mp h).2
  rw [pixel_recomposeSurface, if_neg (mt chromeFill_iff.mp hchrome),
    pixel_foldl_of_mem visRegions_pairwise hmem hholds, paintUnattached_eq]
  simp [hcovered, Composite.clear]

/-- Outside the chrome regions and the windows a pixel shows the unattached canvas. -/
theorem pixel_of_unattachedRegion {surface : Composite K} (hchrome : ¬ layer.InChrome x y)
    (hholds : layer.unattachedRegion x y) :
    (layer.recomposeSurface surface).pixel x y = layer.canvasAt none x y := by
  have hnot : ∀ w ∈ (visRegions layer.visibleWindows).1, ¬ w.2.2 x y := fun w hmem hw =>
    (exists_region_iff.mp ⟨w.2.2, hmem, hw⟩).not_uncovered (unattachedRegion_iff.mp hholds).2
  rw [pixel_recomposeSurface, if_neg (mt chromeFill_iff.mp hchrome), pixel_foldl_of_not hnot,
    paintUnattached_eq]
  simp [hholds, Composite.clear]

theorem length_canvasAt_le {c : Canvas} : (layer.canvasAt c x y).length ≤ 1 := by
  unfold canvasAt
  split
  · simp
  · unfold Surface.pixelAt
    split_ifs <;> simp

/-- What a pixel of the composite shows: nothing in a chrome region, the canvas of the
topmost window at the pixel, and the unattached canvas where there is no window. -/
structure Shows (layer : MetaAnnotationLayer K) (composite : Composite K) (x y : ℤ) : Prop where
  chrome : layer.InChrome x y → composite.pixel x y = []
  window : ¬ layer.InChrome x y → ∀ win fr,
    Topmost frameHolds layer.visibleWindows (win, fr) (x, y) →
      composite.pixel x y = layer.canvasAt (some win) (x - fr.x) (y - fr.y)
  desktop : ¬ layer.InChrome x y → Uncovered frameHolds layer.visibleWindows (x, y) →
    composite.pixel x y = layer.canvasAt none x y
  single : (composite.pixel x y).length ≤ 1

/-- After `recompose` every pixel of the stage shows one canvas or none. -/
theorem shows_recompose (layer : MetaAnnotationLayer K) (composite : Composite K)
    (hactive : layer.active) (hpaused : layer.paused = false)
    (hcomposite : layer.recompose.surface = some composite) (x y : ℤ)
    (hstage : CairoRegion.createRectangle layer.stageRect x y) : Shows layer composite x y := by
  obtain ⟨surface, hsurface⟩ : ∃ surface, composite = layer.recomposeSurface surface := by
    unfold recompose at hcomposite
    cases hsurface : layer.surface with
    | none => simp [hsurface] at hcomposite
    | some surface =>
      simp only [hsurface, hactive, hpaused, Bool.not_true, Bool.or_self, Bool.false_eq_true,
        if_false, Option.some.injEq] at hcomposite
      exact ⟨surface, hcomposite.symm⟩
  rw [hsurface]
  have hdesktop : ¬ layer.InChrome x y → Uncovered frameHolds layer.visibleWindows (x, y) →
      (layer.recomposeSurface surface).pixel x y = layer.canvasAt none x y := fun hchrome hfree =>
    pixel_of_unattachedRegion hchrome (unattachedRegion_iff.mpr ⟨hstage, hfree⟩)
  refine ⟨fun hchrome => ?_, fun hchrome win fr htop => pixel_of_topmost hchrome htop, hdesktop, ?_⟩
  · rw [pixel_recomposeSurface, if_pos (chromeFill_iff.mpr hchrome)]
  · by_cases hchrome : layer.InChrome x y
    · simp [pixel_recomposeSurface, chromeFill_iff.mpr hchrome]
    · rcases exists_topmost_or_uncovered (l := layer.visibleWindows) (a := (x, y))
        with ⟨⟨win, fr⟩, htop⟩ | hfree
      · rw [pixel_of_topmost hchrome htop]
        exact length_canvasAt_le
      · rw [hdesktop hchrome hfree]
        exact length_canvasAt_le

/-- A layer on a stage with a window, in the state that a press on the window leaves. -/
def pressedOnWindow : MetaAnnotationLayer ℚ :=
  Runs.run step (metaAnnotationLayerNew .oneWindow .initial 10 10)
    [.call (.setActive true), .handleEvent (.pen .buttonPress (7 / 2) (9 / 2) 1 true) 0]

theorem shows_recompose_pressedOnWindow :
    ∃ composite, pressedOnWindow.recompose.surface = some composite ∧
      Shows pressedOnWindow composite 3 4 := by
  have hsome : pressedOnWindow.recompose.surface.isSome := by decide +kernel
  obtain ⟨composite, hcomposite⟩ := Option.isSome_iff_exists.mp hsome
  exact ⟨composite, hcomposite, shows_recompose pressedOnWindow composite (by decide +kernel)
    (by decide +kernel) hcomposite 3 4 (by decide +kernel)⟩

end MetaAnnotationLayer

end Annotations
