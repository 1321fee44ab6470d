import Annotations.Tracing.Histories
import Annotations.Tracing.Permits

/-! Colour stability: a segment is replayed in the colour it was painted in, in every
run in which no event extends a stroke of another colour than the pen. -/

namespace Annotations

open Runs

variable {K : Type} [Scalar K]

namespace MetaAnnotationLayer

variable {layer : MetaAnnotationLayer K} {event : ClutterEvent K} {op : LayerOp K}

/-- Every event that inks paints one segment, and from then on the segment of a stroke
that ends where the event was is replayed in the colour it was painted in. -/
def ColourStable (start : MetaAnnotationLayer K) (ops : List (LayerOp K)) : Prop :=
  ∀ k event nowUs, ops[k]? = some (.handleEvent event nowUs) →
    let layer := stateAt step start ops k
    layer.continues event → layer.eraseIsActive event = false →
      ∃ surface painted, layer.canvasSurface layer.strokeAnchor = some surface ∧
        (layer.continueAt event).canvasSurface layer.strokeAnchor =
          some { surface with ops := surface.ops ++ [painted] } ∧
        ∀ j, k < j → j ≤ ops.length → ∀ c strokes s,
          (stateAt step start ops j).canvasStrokes c = some strokes → s ∈ strokes →
            ∀ i cr replayed, (s.points[i + 1]?).map (·.stamp) = some k →
              (rasterizeStrokeOnCr cr s)[i]? = some replayed → replayed.rgba = painted.rgba

/-- The operation does not extend a stroke that has another colour than the pen. -/
def KeepsColour (layer : MetaAnnotationLayer K) (op : LayerOp K) : Prop :=
  ∀ event nowUs, op = .handleEvent event nowUs → layer.continues event →
    layer.eraseIsActive event = false → ¬ layer.Tints

theorem not_tint_of_keepsColour (h : layer.KeepsColour op) : ¬ (layer.permit op).tint := by
  cases op with
  | handleEvent event nowUs =>
    rintro ⟨hcontinues, herase, htints⟩
    exact h event nowUs rfl hcontinues herase htints
  | call call => exact id
  | setChromePressActive id => exact fun h => h
  | clearChromePress => exact fun h => h

/-- Events, which ink, do not change the colour of the pen. -/
theorem not_recolour_of_ink (h : (layer.permit op).ink) : ¬ (layer.permit op).recolour := by
  cases op with
  | handleEvent event nowUs => exact id
  | call call => exact absurd h id
  | setChromePressActive id => exact fun h => h
  | clearChromePress => exact fun h => h

omit [Scalar K] in
theorem coloured_tick {C : ℕ → Rgba K → Prop} (h : Coloured C layer.drawing) : Coloured C layer.tick.drawing := h

theorem coloured_stateAt {start : MetaAnnotationLayer K} {ops : List (LayerOp K)} (hstart : Kept start)
    (hclock : start.ledger.clock = 0)
    (hempty : Coloured (fun n rgba => (stateAt step start ops n).rgba = rgba) start.drawing)
    (hops : Along step KeepsColour start ops) {k : ℕ} (hk : k ≤ ops.length) :
    Coloured (fun n rgba => (stateAt step start ops n).rgba = rgba) (stateAt step start ops k).drawing := by
  have hinv := stateAt_kept (P := fun _ layer =>
    Coloured (fun n rgba => (stateAt step start ops n).rgba = rgba) layer.drawing) hstart hclock hempty
    (fun k op hget hkept hclock hcoloured => ?_) hk
  · exact hinv.2.2
  · have htraces := traces_exec hkept.wellFormed hkept.sound hkept.surfaced op
    refine coloured_tick (htraces.coloured (not_tint_of_keepsColour (hops.get hget)) not_recolour_of_ink
      (fun _ => ?_) hcoloured)
    exact congrArg (fun n => (stateAt step start ops n).rgba) hclock

theorem canvasSurface_continueAt (hkept : Kept layer) (hcontinues : layer.continues event)
    (herase : layer.eraseIsActive event = false) :
    ∃ surface, layer.canvasSurface layer.strokeAnchor = some surface ∧
      (layer.continueAt event).canvasSurface layer.strokeAnchor =
        some { surface with ops := surface.ops ++ [layer.drawing.segment (layer.eventTip event)] } := by
  have htakes : layer.takesEvents := by
    simp only [continues, Bool.and_eq_true] at hcontinues
    exact hcontinues.1.1
  obtain ⟨surface, hsurface⟩ := Option.isSome_iff_exists.mp
    (anchorReady hkept.wellFormed hkept.surfaced htakes)
  obtain ⟨strokes, hstrokes⟩ := Option.isSome_iff_exists.mp (isSome_ink ▸ hkept.wellFormed.anchored :
    (layer.canvasStrokes layer.strokeAnchor).isSome)
  refine ⟨surface, hsurface, ?_⟩
  have htip : layer.nextTip event.x event.y event.getPressure event.getTiltFactor = layer.eventTip event := rfl
  have hdrawing := drawing_continueStroke hkept.wellFormed event.x event.y event.getPressure
    event.getTiltFactor (layer.eraseIsActive event) htip
  rw [herase] at hdrawing
  have hall := congrFun (congrArg Drawing.surface hdrawing) layer.strokeAnchor
  rw [continueAt, herase]
  exact hall.trans (canvasSurface_continueInk hsurface hstrokes _)

/-- Ink keeps the colour it was painted in, in every run that does not extend a stroke in
another colour. -/
theorem colourStable_of_keepsColour (display : MetaDisplay) (input : AnnotationInput K)
    (width height : ℤ) (ops : List (LayerOp K))
    (hops : Along step KeepsColour (metaAnnotationLayerNew display input width height) ops) :
    ColourStable (metaAnnotationLayerNew display input width height) ops := by
  intro k event nowUs hget layer hcontinues herase
  obtain ⟨surface, hsurface, hpainted⟩ := canvasSurface_continueAt (kept_stateAt kept_new k) hcontinues herase
  refine ⟨surface, _, hsurface, hpainted, fun j _ hj c strokes s hstrokes hs i cr replayed hstamp hreplayed => ?_⟩
  have hcoloured := coloured_stateAt kept_new clock_new (every_new _) hops hj c strokes hstrokes s hs
  obtain ⟨p, hp, hstamp⟩ := Option.map_eq_some_iff.mp hstamp
  have htail : p ∈ s.points.tail := by
    rw [← List.getElem?_tail] at hp
    exact List.mem_of_getElem? hp
  have hrgba := hcoloured p htail
  rw [hstamp] at hrgba
  rw [rgba_of_mem_rasterizeStrokeOnCr (List.mem_of_getElem? hreplayed)]
  exact hrgba.symm

omit [Scalar K] in
theorem not_tints_of_all (hanchor : layer.strokeAnchor = none)
    (h : ∀ s ∈ layer.unattachedStrokes, s.rgba = layer.rgba) : ¬ layer.Tints := by
  rintro ⟨before, s, hstrokes, _, hne⟩
  rw [hanchor] at hstrokes
  have hall : layer.unattachedStrokes = before ++ [s] := Option.some.inj hstrokes
  exact hne (h s (by simp [hall]))

/-- A change of colour before the press of a stroke. -/
theorem colourStable_of_keepsColour_between :
    ColourStable (metaAnnotationLayerNew .bare .initial 10 10)
      [.call (.setActive true), .call (.setColor ⟨1, 0, 0, 1⟩),
        .handleEvent (.pen .buttonPress 1 1 1 true) 0, .handleEvent (.pen .motion 2 2 0 true) 1] := by
  refine colourStable_of_keepsColour _ _ _ _ _ ⟨?_, ?_, ?_, ?_, trivial⟩
  · rintro event nowUs ⟨⟩
  · rintro event nowUs ⟨⟩
  · rintro event nowUs ⟨⟩ hcontinues
    exact absurd hcontinues (by decide +kernel)
  · rintro event nowUs ⟨⟩ _ _
    exact not_tints_of_all (by decide +kernel) (by decide +kernel)

/-- A change of colour between the press and a motion: the segment is painted in the new
colour and stored in the old one. -/
theorem not_colourStable_recoloured :
    ¬ ColourStable (metaAnnotationLayerNew .bare .initial 10 10)
      [.call (.setActive true), .handleEvent (.pen .buttonPress 1 1 1 true) 0,
        .call (.setColor ⟨1, 0, 0, 1⟩), .handleEvent (.pen .motion 2 2 0 true) 1] := by
  intro h
  obtain ⟨surface, painted, _, hpainted, hstable⟩ :=
    h 3 (.pen .motion 2 2 0 true) 1 rfl (by decide +kernel) (by decide +kernel)
  have hstored := hstable 4 (by decide) (by decide) none
  have hred : painted.rgba = ⟨1, 0, 0, 1⟩ := by
    generalize hlayer : stateAt step (metaAnnotationLayerNew .bare .initial 10 10) _ 3 = layer at hpainted
    have hanchor : layer.strokeAnchor = none := by rw [← hlayer]; decide +kernel
    have hsegment : ((layer.continueAt (.pen .motion 2 2 0 true)).unattachedSurface.bind
        fun target => target.ops.getLast?.map (·.rgba)) = some ⟨1, 0, 0, 1⟩ := by
      rw [← hlayer]
      decide +kernel
    have hsurface : (layer.continueAt (.pen .motion 2 2 0 true)).unattachedSurface =
        some { surface with ops := surface.ops ++ [painted] } := by rwa [hanchor] at hpainted
    simpa [hsurface] using hsegment
  generalize hlayer : stateAt step (metaAnnotationLayerNew .bare .initial 10 10) _ 4 = layer at hstored
  have hdark : layer.unattachedStrokes.map (fun s => ((s.points[1]?).map (·.stamp),
      ((rasterizeStrokeOnCr cairoCreate s)[0]?).map (·.rgba))) = [(some 3, some ⟨0.15, 0.15, 0.15, 1⟩)] := by
    rw [← hlayer]
    decide +kernel
  obtain ⟨s, hs, hsegment⟩ := List.map_eq_singleton_iff.mp hdark
  obtain ⟨hstamp, hrgba⟩ := Prod.mk.inj hsegment
  obtain ⟨replayed, hreplayed, hrgba⟩ := Option.map_eq_some_iff.mp hrgba
  have hsame := hstored _ s rfl (by rw [hs]; simp) 0 cairoCreate replayed hstamp hreplayed
  rw [hrgba, hred] at hsame
  exact absurd hsame (by decide +kernel)

end MetaAnnotationLayer

end Annotations
