import Annotations.Ink.InFlight

/-! Undo: the stroke it removes is the last one of the canvas that last received a
point, as long as no event inks a canvas while another one is remembered. -/

namespace Annotations

open Sheets Runs

variable {K : Type} [Scalar K]

namespace MetaAnnotationLayer

variable {layer : MetaAnnotationLayer K}

/-- What undoing does to the canvases: nothing, or the last stroke of the canvas that
last received a point goes, and with it any pointer to it. -/
def UndoesNewest (layer : MetaAnnotationLayer K) : Prop :=
  layer.undoLast.canvasStrokes = layer.canvasStrokes ∨
  ∃ c strokes s, layer.ledger.newestInk = some c ∧
    layer.canvasStrokes c = some (strokes ++ [s]) ∧
    layer.undoLast.canvasStrokes = Function.update layer.canvasStrokes c (some strokes) ∧
    layer.undoLast.currentStroke ≠ some s.addr

/-- `meta_annotation_layer_undo_last` shortens the remembered canvas by its last
stroke, if it has one. -/
theorem undoLast_spec (hwf : WellFormed layer.sheets) :
    layer.undoLast.canvasStrokes = layer.canvasStrokes ∨
    ∃ strokes s, layer.lastInkPresent ∧
      layer.canvasStrokes layer.lastInkAnchor = some (strokes ++ [s]) ∧
      layer.undoLast.canvasStrokes =
        Function.update layer.canvasStrokes layer.lastInkAnchor (some strokes) ∧
      layer.undoLast.currentStroke ≠ some s.addr := by
  unfold undoLast
  cases hpresent : layer.lastInkPresent with
  | false => exact .inl (by simp)
  | true =>
    simp only [Bool.not_true, Bool.false_eq_true, if_false]
    split
    · exact .inl (by simp [setLastInkAnchor, funext_iff, canvasStrokes])
    · exact .inl (by simp [setLastInkAnchor, funext_iff, canvasStrokes])
    next s rest hcanvas =>
      right
      have hne : s :: rest ≠ [] := List.cons_ne_nil _ _
      generalize s :: rest = all at hcanvas hne
      obtain ⟨hsame, hcur⟩ := severAt_spec hwf layer.lastInkAnchor
      have hsplit := List.dropLast_append_getLast hne
      generalize hpopped : ((layer.severAt layer.lastInkAnchor).setCanvasStrokes layer.lastInkAnchor
        all.dropLast).modifyCanvasSurface layer.lastInkAnchor _ = popped
      have hstrokes : popped.canvasStrokes =
          Function.update layer.canvasStrokes layer.lastInkAnchor (some all.dropLast) := by
        rw [← hpopped, canvasStrokes_modifyCanvasSurface]
        funext c
        rw [canvasStrokes_setCanvasStrokes, hsame, hcanvas, Option.map_some]
        by_cases hc : c = layer.lastInkAnchor <;> simp [hc]
      have hpointer : popped.currentStroke ≠ some (all.getLast hne).addr := by
        rw [← hpopped, currentStroke_modifyCanvasSurface, currentStroke_setCanvasStrokes]
        rcases hcur with hcur | ⟨hself, hanchor⟩
        · simp [hcur]
        · rw [hself]
          intro hcur
          have hmem : all.getLast hne ∈ all := List.getLast_mem hne
          exact hanchor ((strokeInFlight_of_wellFormed hwf hcur).isOnly _ _ hcanvas _ hmem rfl).1.symm
      refine ⟨all.dropLast, all.getLast hne, trivial, by rw [hsplit, hcanvas], ?_, ?_⟩
      · rw [canvasStrokes_scheduleRecompose, ← hstrokes]
        split_ifs <;> simp
      · rw [currentStroke_scheduleRecompose]
        split_ifs <;> exact hpointer

/-- The events do not ink a canvas while another one is remembered. -/
def InksRemembered (layer : MetaAnnotationLayer K) (op : LayerOp K) : Prop :=
  ∀ event nowUs, op = .handleEvent event nowUs → layer.inksElsewhere event = false

/-- One operation keeps the remembered canvas the newest one. -/
theorem newest_step {op : LayerOp K} (hwf : WellFormed layer.sheets) (hnewest : Newest layer.sheets)
    (hop : InksRemembered layer op) : Newest (layer.step op).sheets := by
  refine (moves_exec hwf op).newest (fun hstray => ?_) hnewest
  obtain ⟨event, nowUs, rfl, hinks⟩ := allows_stray hstray
  simp [hop event nowUs rfl] at hinks

theorem undoesNewest_of_newest (hwf : WellFormed layer.sheets) (hnewest : Newest layer.sheets) :
    UndoesNewest layer := by
  rcases undoLast_spec hwf with hsame | ⟨strokes, s, hpresent, hrest⟩
  · exact .inl hsame
  · exact .inr ⟨layer.lastInkAnchor, strokes, s, hnewest _ (by simp [sheets, hpresent]), hrest⟩

/-- Undo targets the newest ink in every state of a run whose events ink only the
remembered canvas, or any canvas while none is remembered. -/
theorem undoesNewest_of_inksRemembered (display : MetaDisplay) (input : AnnotationInput K)
    (width height : ℤ) (ops : List (LayerOp K))
    (hops : Along step InksRemembered (metaAnnotationLayerNew display input width height) ops) :
    UndoesNewest (after display input width height ops) := by
  have hnew : Newest (metaAnnotationLayerNew display input width height).sheets :=
    (moves_new display input width height).newest (by simp) (by
      simp [Newest, sheets, metaAnnotationLayerZero])
  have hinv := hops.invariant (P := fun layer => WellFormed (sheets layer) ∧ Newest layer.sheets)
    (fun layer op h hop => ⟨wellFormed_step h.1 op, newest_step h.1 h.2 hop⟩)
    ⟨wellFormed_new display input width height, hnew⟩
  exact undoesNewest_of_newest hinv.1 hinv.2

theorem undoesNewest_of_inksRemembered_drawn :
    UndoesNewest (after .oneWindow .initial 10 10 [.call (.setActive true),
      .handleEvent (.pen .buttonPress 1 1 1 true) 0, .handleEvent (.pen .motion 2 2 0 true) 1]) := by
  refine undoesNewest_of_inksRemembered _ _ _ _ _ ⟨?_, ?_, ?_, trivial⟩
  · rintro event nowUs h
    cases h
  · rintro event nowUs h
    cases h
    decide +kernel
  · rintro event nowUs h
    cases h
    decide +kernel

/-- Ink on the desktop, then a press on the window that starts in erase mode and flips to
ink: undo takes the stroke on the desktop. -/
theorem not_undoesNewest_flipped :
    ¬ UndoesNewest (after .oneWindow .initial 10 10 [.call (.setActive true),
      .handleEvent (.pen .buttonPress 7 7 1 true) 0, .handleEvent (.pen .buttonRelease 7 7 1 false) 1,
      .handleEvent (.pen .buttonPress 1 1 2 false) 2, .handleEvent (.pen .buttonPress 1 1 1 true) 3,
      .handleEvent (.pen .buttonRelease 1 1 2 true) 4, .handleEvent (.pen .motion 2 2 0 true) 5]) := by
  generalize hlayer : after .oneWindow .initial 10 10 _ = layer
  have hnewest : layer.ledger.newestInk = some (some 0) := by
    rw [← hlayer]
    decide +kernel
  have hpopped : layer.undoLast.unattachedStrokes.length ≠ layer.unattachedStrokes.length := by
    rw [← hlayer]
    decide +kernel
  have hdiffer : layer.undoLast.canvasStrokes none ≠ layer.canvasStrokes none := fun h =>
    hpopped (congrArg List.length (Option.some.inj h))
  rintro (hsame | ⟨c, strokes, s, hc, _, hupdate, _⟩)
  · exact hdiffer (congrFun hsame none)
  · obtain rfl : some 0 = c := Option.some.inj (hnewest.symm.trans hc)
    exact hdiffer (congrFun hupdate none)

end MetaAnnotationLayer

end Annotations
