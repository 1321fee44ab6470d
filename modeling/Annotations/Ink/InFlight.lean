import Annotations.Ink.Refinement
import Annotations.Runs.Basic

/-! The stroke in flight, in every state that any operations lead to. -/

namespace Annotations

open Sheets Runs

variable {K : Type} [Scalar K]

namespace MetaAnnotationLayer

variable {layer : MetaAnnotationLayer K}

/-- The layer after some operations. -/
def after (display : MetaDisplay) (input : AnnotationInput K) (width height : ℤ)
    (ops : List (LayerOp K)) : MetaAnnotationLayer K :=
  run step (metaAnnotationLayerNew display input width height) ops

variable {display : MetaDisplay} {input : AnnotationInput K} {width height : ℤ}
  {ops : List (LayerOp K)}

theorem wellFormed_after : WellFormed (after display input width height ops).sheets :=
  run_invariant (P := fun layer : MetaAnnotationLayer K => WellFormed layer.sheets)
    (fun _ op hwf => wellFormed_step hwf op) (wellFormed_new display input width height)

/-- The stroke pointer of a layer points to the last stroke of the canvas that
`stroke_target` returns, to no other stroke, and agrees with the layer on the
coordinate space; a write through it changes that stroke alone. -/
structure StrokeInFlight (layer : MetaAnnotationLayer K) (addr : ℕ) : Prop where
  strokeActive : layer.strokeActive
  isLast : ∃ strokes s, layer.canvasStrokes layer.strokeAnchor = some (strokes ++ [s]) ∧
    s.addr = addr ∧ s.followScroll = layer.strokeFollowScroll ∧
    ∀ f : Stroke K → Stroke K, (layer.writeStroke addr f).canvasStrokes =
      Function.update layer.canvasStrokes layer.strokeAnchor (some (strokes ++ [f s]))
  isOnly : ∀ c strokes, layer.canvasStrokes c = some strokes → ∀ s ∈ strokes, s.addr = addr →
    c = layer.strokeAnchor ∧ strokes.getLast? = some s

omit [Scalar K] in
theorem addrs_sheets {c : Canvas} {strokes : List (Stroke K)}
    (hstrokes : layer.canvasStrokes c = some strokes) :
    addrs layer.sheets.ink c = strokes.map (·.addr) := by
  simp [addrs, sheets, hstrokes, Function.comp_def, Stroke.line]

omit [Scalar K] in
/-- Only the last stroke of a canvas is at its address, on any canvas. -/
theorem eq_last_of_addr_eq (hwf : WellFormed layer.sheets) {c c' : Canvas}
    {strokes others : List (Stroke K)} {s s' : Stroke K}
    (hstrokes : layer.canvasStrokes c = some (strokes ++ [s]))
    (hothers : layer.canvasStrokes c' = some others) (hmem : s' ∈ others) (haddr : s'.addr = s.addr) :
    c' = c ∧ s' = s ∧ s' ∉ strokes := by
  have hmem' : s'.addr ∈ addrs layer.sheets.ink c' := by
    rw [addrs_sheets hothers]
    exact List.mem_map_of_mem hmem
  have hlast : s'.addr ∈ addrs layer.sheets.ink c := by
    rw [addrs_sheets hstrokes, haddr]
    simp
  obtain rfl := hwf.distinct.disjoint _ _ _ hmem' hlast
  obtain rfl : others = strokes ++ [s] := Option.some.inj (hothers.symm.trans hstrokes)
  have hnodup := hwf.distinct.nodup c'
  rw [addrs_sheets hstrokes, List.map_append, List.nodup_append] at hnodup
  have hnot : s' ∉ strokes := fun h =>
    hnodup.2.2 _ (List.mem_map_of_mem h) _ (List.mem_singleton_self _) haddr
  refine ⟨rfl, ?_, hnot⟩
  simpa [hnot] using hmem

omit [Scalar K] in
theorem strokeInFlight_of_wellFormed (hwf : WellFormed layer.sheets) {addr : ℕ}
    (hcur : layer.currentStroke = some addr) : StrokeInFlight layer addr := by
  obtain ⟨hdown, lines, m, hlines, haddr, hfollow⟩ := hwf.inFlight addr hcur
  obtain ⟨all, hall, hmap⟩ := Option.map_eq_some_iff.mp hlines
  obtain ⟨strokes, lasts, rfl, rfl, hlast⟩ := List.map_eq_append_iff.mp hmap
  obtain ⟨s, rfl, rfl⟩ := List.map_eq_singleton_iff.mp hlast
  have haddr' : s.addr = addr := haddr
  have honly : ∀ c others, layer.canvasStrokes c = some others → ∀ s' ∈ others, s'.addr = addr →
      c = layer.strokeAnchor ∧ s' = s ∧ s' ∉ strokes := fun c others hothers s' hmem heq =>
    eq_last_of_addr_eq hwf hall hothers hmem (heq.trans haddr'.symm)
  refine ⟨hdown, ⟨strokes, s, hall, haddr', hfollow, fun f => funext fun c => ?_⟩,
    fun c others hothers s' hmem heq => ?_⟩
  · rw [canvasStrokes_writeStroke]
    by_cases hc : c = layer.strokeAnchor
    · subst hc
      have hkeep : strokes.map (fun s' : Stroke K => if s'.addr = addr then f s' else s') = strokes := by
        refine (List.map_congr_left fun s' hs' => ?_).trans (List.map_id strokes)
        exact if_neg fun heq => (honly _ _ hall s' (by simp [hs']) heq).2.2 hs'
      have hanchor : layer.canvasStrokes layer.strokeAnchor = some (strokes ++ [s]) := hall
      rw [hanchor, Function.update_self, Option.map_some, List.map_append, hkeep,
        List.map_singleton, if_pos haddr']
    · rw [Function.update_of_ne hc]
      cases hothers : layer.canvasStrokes c with
      | none => rfl
      | some others =>
        rw [Option.map_some]
        refine congrArg some ((List.map_congr_left fun s' hs' => ?_).trans (List.map_id others))
        exact if_neg fun heq => hc (honly c others hothers s' hs' heq).1
  · obtain ⟨hc, rfl, _⟩ := honly c others hothers s' hmem heq
    refine ⟨hc, ?_⟩
    subst hc
    obtain rfl : strokes ++ [s'] = others := Option.some.inj (hall.symm.trans hothers)
    simp

/-- In every state of the layer the stroke pointer, unless it is NULL, is sound. -/
theorem currentStroke_inFlight (addr : ℕ)
    (hcur : (after display input width height ops).currentStroke = some addr) :
    StrokeInFlight (after display input width height ops) addr :=
  strokeInFlight_of_wellFormed wellFormed_after hcur

theorem currentStroke_inFlight_touchBegin :
    StrokeInFlight (after .bare .initial 10 10 [.call (.setActive true),
      .handleEvent (.touch .touchBegin 1 2 0) 0]) 0 :=
  currentStroke_inFlight 0 (by decide)

end MetaAnnotationLayer

end Annotations
