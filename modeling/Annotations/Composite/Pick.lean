import Annotations.Composite.Partition

/-! Picking agrees with painting: the walk from the top of the stack that picks the
anchor of a press ends at the window whose region `recompose` paints at that pixel. -/

namespace Annotations

open Stacking

variable {K : Type}

/-- A frame holds a point if it holds its pixel. -/
theorem containsPointf_iff [Scalar K] [FloorRing K] {rect : MtkRectangle} {x y : K} :
    rect.containsPointf x y ↔ CairoRegion.createRectangle rect ⌊x⌋ ⌊y⌋ := by
  simp only [MtkRectangle.containsPointf, CairoRegion.createRectangle, Bool.and_eq_true,
    decide_eq_true_eq, Int.le_floor, Int.floor_lt]

namespace MetaAnnotationLayer

variable {layer : MetaAnnotationLayer K} {win : WindowId}

/-- The window takes ink, and its frame holds the pixel. -/
def takesInkAt (layer : MetaAnnotationLayer K) (win : WindowId) (pixel : ℤ × ℤ) : Prop :=
  windowIsEligibleAnchor (layer.display.window win) layer.display.activeWorkspace ∧
    CairoRegion.createRectangle (layer.frameRect win) pixel.1 pixel.2

/-- Minimized windows are hidden. -/
def MinimizedHidden (display : MetaDisplay) : Prop :=
  ∀ win ∈ display.windows, (display.window win).minimized → (display.window win).hidden

/-- A window takes ink at a pixel if it is visible, with the pixel in its frame. -/
theorem takesInkAt_iff (hhidden : MinimizedHidden layer.display) (hwin : win ∈ layer.display.windows)
    {pixel : ℤ × ℤ} : layer.takesInkAt win pixel ↔ ∃ w,
      (if windowIsVisibleForInk (layer.display.window win) layer.display.activeWorkspace ∧
          1 ≤ (layer.frameRect win).width ∧ 1 ≤ (layer.frameRect win).height then
        some (win, layer.frameRect win)
      else none) = some w ∧ frameHolds w pixel := by
  have hsize : CairoRegion.createRectangle (layer.frameRect win) pixel.1 pixel.2 →
      1 ≤ (layer.frameRect win).width ∧ 1 ≤ (layer.frameRect win).height := by
    simp only [CairoRegion.createRectangle, Bool.and_eq_true, decide_eq_true_eq]
    omega
  have hshown : windowIsEligibleAnchor (layer.display.window win) layer.display.activeWorkspace →
      (layer.display.window win).minimized = false := by
    intro heligible
    cases hminimized : (layer.display.window win).minimized with
    | false => rfl
    | true => simp [windowIsEligibleAnchor, hhidden win hwin hminimized] at heligible
  constructor
  · rintro ⟨heligible, hholds⟩
    refine ⟨(win, layer.frameRect win), if_pos ⟨?_, hsize hholds⟩, hholds⟩
    simp [windowIsVisibleForInk, heligible, hshown heligible]
  · rintro ⟨w, hw, hholds⟩
    split_ifs at hw with hvisible
    cases hw
    rw [windowIsVisibleForInk, Bool.and_eq_true] at hvisible
    exact ⟨hvisible.1.1, hholds⟩

/-- What a canvas shows at a stage pixel. -/
def stagePixel (layer : MetaAnnotationLayer K) (c : Canvas) (x y : ℤ) : Pixel K :=
  match c with
  | none => layer.canvasAt none x y
  | some win => layer.canvasAt (some win) (x - (layer.frameRect win).x) (y - (layer.frameRect win).y)

/-! ### Picking -/

variable [Scalar K] [FloorRing K] {x y : K}

/-- The anchor picked is the topmost window that takes ink at the pixel. -/
theorem pickAnchorWindow_eq_some_iff : layer.pickAnchorWindow x y = some win ↔
    Topmost layer.takesInkAt layer.display.sortedWindows win (⌊x⌋, ⌊y⌋) := by
  refine find_reverse_eq_some fun win _ => ?_
  rw [Bool.and_eq_true, containsPointf_iff, takesInkAt]

theorem pickAnchorWindow_eq_none_iff : layer.pickAnchorWindow x y = none ↔
    Uncovered layer.takesInkAt layer.display.sortedWindows (⌊x⌋, ⌊y⌋) := by
  refine find_reverse_eq_none fun win _ => ?_
  rw [Bool.and_eq_true, containsPointf_iff, takesInkAt]

/-- The anchor that a press at a point picks is the canvas shown at its pixel. -/
structure PickAgrees (layer : MetaAnnotationLayer K) (x y : K) : Prop where
  window : ∀ win, layer.pickAnchorWindow x y = some win ↔ ∃ region,
    (win, layer.frameRect win, region) ∈ (visRegions layer.visibleWindows).1 ∧ region ⌊x⌋ ⌊y⌋
  desktop : layer.pickAnchorWindow x y = none ↔ layer.unattachedRegion ⌊x⌋ ⌊y⌋
  shown : ¬ layer.InChrome ⌊x⌋ ⌊y⌋ → ∀ surface, (layer.recomposeSurface surface).pixel ⌊x⌋ ⌊y⌋ =
    layer.stagePixel (layer.pickAnchorWindow x y) ⌊x⌋ ⌊y⌋

/-- Picking agrees with painting at every point of the stage. -/
theorem pickAgrees_of_minimizedHidden (layer : MetaAnnotationLayer K) (x y : K)
    (hhidden : MinimizedHidden layer.display) (hx : 0 ≤ x) (hx' : x < layer.stageWidth) (hy : 0 ≤ y)
    (hy' : y < layer.stageHeight) : PickAgrees layer x y := by
  have hstage : CairoRegion.createRectangle layer.stageRect ⌊x⌋ ⌊y⌋ := by
    simp [CairoRegion.createRectangle, stageRect, Int.floor_nonneg, Int.floor_lt, hx, hx', hy, hy']
  have hvisible : ∀ win ∈ layer.display.sortedWindows, layer.takesInkAt win (⌊x⌋, ⌊y⌋) ↔ _ :=
    fun win hwin => takesInkAt_iff hhidden (mem_sortedWindows.mp hwin)
  have hwindow : ∀ win, layer.pickAnchorWindow x y = some win ↔
      Topmost frameHolds layer.visibleWindows (win, layer.frameRect win) (⌊x⌋, ⌊y⌋) := by
    intro win
    rw [pickAnchorWindow_eq_some_iff, visibleWindows, topmost_filterMap hvisible]
    constructor
    · intro htop
      obtain ⟨w, hw, _⟩ := (hvisible win htop.mem_list).mp htop.covers
      refine ⟨win, ?_, htop⟩
      split_ifs at hw with hshow
      exact if_pos hshow
    · rintro ⟨win', hw, htop⟩
      split_ifs at hw
      cases hw
      exact htop
  have hdesktop : layer.pickAnchorWindow x y = none ↔ layer.unattachedRegion ⌊x⌋ ⌊y⌋ := by
    rw [pickAnchorWindow_eq_none_iff, unattachedRegion_iff, and_iff_right hstage, visibleWindows,
      uncovered_filterMap hvisible]
  refine ⟨fun win => (hwindow win).trans exists_region_iff.symm, hdesktop, fun hchrome surface => ?_⟩
  cases hpick : layer.pickAnchorWindow x y with
  | none => exact pixel_of_unattachedRegion hchrome (hdesktop.mp hpick)
  | some win => exact pixel_of_topmost hchrome ((hwindow win).mp hpick)

theorem pickAgrees_of_minimizedHidden_pressed : PickAgrees pressedOnWindow (7 / 2) (9 / 2) :=
  pickAgrees_of_minimizedHidden pressedOnWindow (7 / 2) (9 / 2) (by simp [MinimizedHidden]; decide +kernel)
    (by decide +kernel) (by decide +kernel) (by decide +kernel) (by decide +kernel)

end MetaAnnotationLayer

end Annotations
