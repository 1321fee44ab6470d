import Annotations.Tracing.Permits

/-! Live drawing agrees with a replay of the strokes, in every run that seals no dot
unpainted, and draws no stroke that follows the scroll outside its region or where its
points are rounded. -/

namespace Annotations

open Runs

variable {K : Type} [Scalar K]

namespace MetaAnnotationLayer

variable {layer : MetaAnnotationLayer K} {op : LayerOp K}

/-- With no stroke in flight, every canvas is covered where the rasterizer would cover it
now. -/
def Repaints (layer : MetaAnnotationLayer K) : Prop :=
  layer.strokeActive = false ∨ layer.currentStroke = none → ∀ c strokes surface,
    layer.canvasStrokes c = some strokes → layer.canvasSurface c = some surface →
      surface.inked = (rasterizeAllStrokesWithInk surface strokes (layer.anchorInk c)).inked

/-- The operation seals no dot of which nothing is painted, and continues no stroke that
follows the scroll outside its region, or with points that the replay does not take back. -/
def DrawsFaithfully (layer : MetaAnnotationLayer K) (op : LayerOp K) : Prop :=
  ¬ layer.Strands op ∧ ∀ event nowUs, op = .handleEvent event nowUs → layer.continues event →
    layer.eraseIsActive event = false →
      ¬ layer.drawing.Leaks (layer.eventTip event) ∧ ¬ layer.Blurs (layer.eventTip event)

theorem not_leak_of_drawsFaithfully (h : layer.DrawsFaithfully op) : ¬ (layer.permit op).leak := by
  cases op with
  | handleEvent event nowUs =>
    rintro ⟨hcontinues, herase, hleaks⟩
    exact (h.2 event nowUs rfl hcontinues herase).1 hleaks
  | call call => exact id
  | setChromePressActive id => exact fun h => h
  | clearChromePress => exact fun h => h

theorem not_blur_of_drawsFaithfully (h : layer.DrawsFaithfully op) : ¬ (layer.permit op).blur := by
  cases op with
  | handleEvent event nowUs =>
    rintro ⟨hcontinues, herase, hblurs⟩
    exact (h.2 event nowUs rfl hcontinues herase).2 hblurs
  | call call => exact id
  | setChromePressActive id => exact fun h => h
  | clearChromePress => exact fun h => h

theorem not_strand_of_drawsFaithfully (h : layer.DrawsFaithfully op) : ¬ (layer.permit op).strand := by
  cases op with
  | handleEvent event nowUs => exact h.1
  | call call => exact h.1
  | setChromePressActive id => exact fun h => h
  | clearChromePress => exact fun h => h

theorem agrees_step (hkept : Kept layer) (hagrees : Agrees layer.drawing) (hop : layer.DrawsFaithfully op) :
    Agrees (layer.step op).drawing := by
  have htraces := traces_exec hkept.wellFormed hkept.sound hkept.surfaced op
  exact htraces.agrees (not_strand_of_drawsFaithfully hop) (not_leak_of_drawsFaithfully hop)
    (not_blur_of_drawsFaithfully hop) hkept.sound hagrees

theorem repaints_of_agrees (hkept : Kept layer) (h : Agrees layer.drawing) : Repaints layer := by
  intro hidle c strokes surface hstrokes hsurface
  have hcur : layer.currentStroke = none := by
    rcases hidle with hidle | hcur
    · by_contra hcur
      obtain ⟨addr, haddr⟩ := Option.ne_none_iff_exists'.mp hcur
      have hdown : layer.strokeActive := (hkept.wellFormed.inFlight addr haddr).1
      simp [hidle] at hdown
    · exact hcur
  rw [rasterizeAllStrokesWithInk_eq]
  exact (h.exact (not_stranded_of_current hcur) c strokes surface hstrokes hsurface).inked_eq

theorem agrees_new (display : MetaDisplay) (input : AnnotationInput K) (width height : ℤ) :
    Agrees (metaAnnotationLayerNew display input width height).drawing := by
  have hzero : Agrees (metaAnnotationLayerZero display input).drawing := by
    intro c strokes surface hstrokes hsurface
    cases c <;> simp [drawing, canvasSurface, metaAnnotationLayerZero] at hsurface
  exact traces_new.agrees id id id sound_zero hzero

/-- Where the region, the scroll and the pen are on a grid of floats, the replay takes every point back. -/
theorem not_blurs_of_onGrid {e : ℤ} (he : -149 ≤ e ∧ e ≤ 103) (hs : Sound layer.drawing)
    (hframe : ∀ f, layer.drawing.frame layer.drawing.anchor = some f → f.OnGrid e) {tip : InkPoint K}
    (hlast : layer.drawing.tip.OnGrid e) (htip : tip.OnGrid e) : ¬ layer.Blurs tip := by
  have hshows : ∀ q, layer.drawing.Stores layer.drawing.tip q → ¬ layer.drawing.Blurs q tip := by
    rintro q hq ⟨hfollow, f, hf, hnot⟩
    have hq := (Drawing.stores_of_follow hfollow hf).mp hq
    exact hnot ⟨hq.shows he (hframe f hf) hlast, Frame.Stores.shows he (hframe f hf) htip (.inr rfl)⟩
  rintro (⟨_, hblurs⟩ | ⟨before, s, q, hcur, hstrokes, hq, hblurs⟩)
  · rw [seedPoint_eq] at hblurs
    exact hshows _ (.inr rfl) hblurs
  · obtain ⟨_, q', hq', hstores⟩ := hs.last hcur hstrokes
    obtain rfl := Option.some.inj (hq.symm.trans hq')
    exact hshows q hstores hblurs

end MetaAnnotationLayer

end Annotations
