import Annotations.Overlay.Session
import Annotations.History.Painting

/-! The repaint of the overlay: the stroke model is painted with the rectangles of the windows that
are not minimized, and that list may be empty. -/

namespace Annotations.Overlay

open History StrokeModel

variable {K : Type} [Scalar K]

/-- `_computeWindowClipRects`. -/
def Desktop.computeWindowClipRects (env : Desktop K) : List (ClipRect K) :=
  (env.windows.filter fun mw => !mw.minimized).map fun mw =>
    ⟨mw.stableSequence, ⟨mw.x - env.drawArea.1, mw.y - env.drawArea.2, mw.width, mw.height⟩⟩

variable {env : Desktop K}

/-- Windows have distinct stable sequences, and so have their rectangles. -/
theorem nodup_seq_computeWindowClipRects (h : (env.windows.map MetaWindow.stableSequence).Nodup) :
    (env.computeWindowClipRects.map ClipRect.seq).Nodup := by
  unfold Desktop.computeWindowClipRects
  rw [List.map_map]
  exact h.sublist (List.filter_sublist.map MetaWindow.stableSequence)

theorem seq_nonneg_computeWindowClipRects (h : ∀ mw ∈ env.windows, 0 ≤ mw.stableSequence) :
    ∀ r ∈ env.computeWindowClipRects, 0 ≤ r.seq := by
  intro r hr
  obtain ⟨mw, hmw, rfl⟩ := List.mem_map.mp hr
  exact h mw (List.mem_of_mem_filter hmw)

/-- A repaint draws every stroke for one window at most. -/
theorem nodup_painted_computeWindowClipRects (m : StrokeModel K)
    (hseq : (env.windows.map MetaWindow.stableSequence).Nodup) (hnonneg : ∀ mw ∈ env.windows, 0 ≤ mw.stableSequence) :
    ((m.painted (some env.computeWindowClipRects)).map Prod.fst).Nodup :=
  nodup_painted (nodup_seq_computeWindowClipRects hseq) (seq_nonneg_computeWindowClipRects hnonneg)

theorem computeWindowClipRects_eq_nil_iff :
    env.computeWindowClipRects = [] ↔ ∀ mw ∈ env.windows, mw.minimized = true := by
  simp [Desktop.computeWindowClipRects]

/-! ### Every window minimized -/

/-- A window, minimized. -/
def sampleMinimized : Desktop ℚ where
  root := ⟨true, 0, 0, 1000, 1000⟩
  drawArea := (0, 0)
  dock := ⟨true, 14, 14, 160, 120⟩
  dockAllocation := ⟨14, 14, 174, 134⟩
  dockPreferred := none
  swatchButtons := []
  clearBtn := ⟨true, 20, 110, 60, 20⟩
  windows := [⟨true, 7, 100, 100, 400, 300⟩]
  pointer := none
  dateNow := 1000

/-- A stroke that was drawn on the window. -/
def sampleBound : StrokeModel ℚ := { empty with strokes := [⟨[0, 0, 0, 1], [⟨150, 150, 1⟩], 7⟩] }

/-- The stroke is painted, without a clip, where the window is no more. -/
theorem not_paintsRight_minimized :
    ¬ ∀ env : Desktop ℚ, (env.windows.map MetaWindow.stableSequence).Nodup → (∀ mw ∈ env.windows, 0 ≤ mw.stableSequence) →
      ∀ m, PaintsRight m env.computeWindowClipRects := by
  intro h
  have hright := h sampleMinimized (by decide) (by decide) sampleBound
  have hdrawn : (StrokeRef.committed 0, []) ∈ sampleBound.painted (some sampleMinimized.computeWindowClipRects) := by
    have hempty : sampleMinimized.computeWindowClipRects = [] := computeWindowClipRects_eq_nil_iff.mpr (by decide)
    rw [hempty, painted_nil]
    exact List.mem_cons_self ..
  obtain ⟨r, hr, -⟩ := (hright.bound (.committed 0) _ rfl (by decide) []).mp hdrawn
  rw [computeWindowClipRects_eq_nil_iff.mpr (by decide)] at hr
  cases hr

end Annotations.Overlay
