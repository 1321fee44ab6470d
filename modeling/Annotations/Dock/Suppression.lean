import Annotations.Dock.Contacts
import Annotations.Ink.Sheets

/-! Suppression: while a chrome press is in flight nothing that is routed draws. The
press is dropped by whatever ends a contact, not only by the end of its own one, so
the suppression lasts as long as no other end and no clearing of the regions arrives. -/

namespace Annotations

open Runs

variable {K : Type} [Scalar K]

/-- An event of the contact, or a call that changes the chrome regions. -/
def Op.Concerns (contact : Contact) : Op K → Prop
  | .route event _ => event.contact = contact
  | .call c => c = .clearChromeRegions ∨ ∃ regions, c = .setChromeRegions regions

namespace MetaAnnotationLayer

variable {layer : MetaAnnotationLayer K} {contact : Contact}

/-- Up to the end of the contact, neither its events nor the changes of the regions
change a canvas. -/
def Suppressed (start : MetaAnnotationLayer K) (contact : Contact) (ops : List (Op K)) : Prop :=
  ∀ k op, ops[k]? = some op → (∀ j < k, ∀ earlier, ops[j]? = some earlier → ¬ earlier.Lifts contact) →
    op.Concerns contact →
      (stateAt opStep start ops (k + 1)).canvasStrokes = (stateAt opStep start ops k).canvasStrokes

/-- The operation clears the chrome press in flight. -/
def DropsPress (layer : MetaAnnotationLayer K) : Op K → Prop
  | .route event _ => layer.routes event ∧ event.terminates
  | .call c => c = .clearChromeRegions

/-- Only the end of the contact drops the chrome press. -/
def KeepsPress (contact : Contact) (layer : MetaAnnotationLayer K) (op : Op K) : Prop :=
  layer.DropsPress op → op.Lifts contact

/-- A chrome press stays in flight until it is dropped. -/
theorem chromePressId_opStep {op : Op K} (hpressed : layer.chromePressId.isSome)
    (hop : ¬ layer.DropsPress op) : (layer.opStep op).chromePressId.isSome := by
  cases op with
  | route event nowUs =>
    cases layer.routing event nowUs with
    | ignored _ hrouted => rwa [opStep_route hrouted]
    | landed id _ hrouted =>
      rw [opStep_route hrouted]
      rfl
    | ended pressed hroutes _ _ hterminates => exact absurd ⟨hroutes, hterminates⟩ hop
    | swallowed _ _ _ _ _ hrouted => rwa [opStep_route hrouted]
    | handled _ _ hnone => simp [hnone] at hpressed
  | call c =>
    have hdock : (layer.opStep (.call c)).chromePressId = (layer.dock.call c).pressed :=
      congrArg Dock.pressed (dock_opStep_call c)
    rw [hdock]
    cases c with
    | clearChromeRegions => exact absurd rfl hop
    | _ => exact hpressed

/-- No event draws while a chrome press is in flight. -/
theorem canvasStrokes_route {event : ClutterEvent K} {nowUs : ℤ} (hpressed : layer.chromePressId.isSome) :
    (layer.opStep (.route event nowUs)).canvasStrokes = layer.canvasStrokes := by
  cases layer.routing event nowUs with
  | ignored _ hrouted => rw [opStep_route hrouted, canvasStrokes_tick]
  | landed id _ hrouted =>
    rw [opStep_route hrouted]
    rfl
  | ended _ _ _ _ _ hrouted =>
    rw [opStep_route hrouted]
    rfl
  | swallowed _ _ _ _ _ hrouted => rw [opStep_route hrouted, canvasStrokes_tick]
  | handled _ _ hnone => simp [hnone] at hpressed

theorem canvasStrokes_of_concerns {op : Op K} (hpressed : layer.chromePressId.isSome)
    (hop : op.Concerns contact) : (layer.opStep op).canvasStrokes = layer.canvasStrokes := by
  cases op with
  | route event nowUs => exact canvasStrokes_route hpressed
  | call c =>
    change (layer.execCall c).tick.canvasStrokes = layer.canvasStrokes
    rw [canvasStrokes_tick]
    rcases hop with rfl | ⟨regions, rfl⟩
    · exact canvasStrokes_scheduleRecompose
    · exact canvasStrokes_scheduleRecompose

/-- A press in a chrome region suppresses the ink of its contact, if nothing but the
end of that contact drops it. -/
theorem suppressed_of_keepsPress (layer : MetaAnnotationLayer K) (press : ClutterEvent K) (nowUs : ℤ)
    (hlands : (layer.lands press).isSome) (ops : List (Op K))
    (hops : Along opStep (KeepsPress press.contact) (layer.opStep (.route press nowUs)) ops) :
    Suppressed (layer.opStep (.route press nowUs)) press.contact ops := by
  have hstart : (layer.opStep (.route press nowUs)).chromePressId.isSome := by
    obtain ⟨id, hid⟩ := Option.isSome_iff_exists.mp hlands
    rw [opStep_of_lands hid]
    rfl
  intro k op hget hdown hconcerns
  -- the press stays in flight up to `k`, as long as the contact has not ended before
  have hpressed : (∀ j < k, ∀ earlier, ops[j]? = some earlier → ¬ earlier.Lifts press.contact) →
      (stateAt opStep (layer.opStep (.route press nowUs)) ops k).chromePressId.isSome := by
    refine stateAt_invariant (P := fun k (layer : MetaAnnotationLayer K) => (∀ j < k, ∀ earlier, ops[j]? = some earlier →
      ¬ earlier.Lifts press.contact) → layer.chromePressId.isSome) (fun _ => hstart) ?_
      (List.getElem?_eq_some_iff.mp hget).1.le
    intro k op hget ih hdown
    refine chromePressId_opStep (ih fun j hj => hdown j (by omega)) fun hdrops => ?_
    exact hdown k (by omega) op hget (hops.get hget hdrops)
  rw [stateAt_succ hget]
  exact canvasStrokes_of_concerns (hpressed hdown) hconcerns

theorem suppressed_of_keepsPress_dragged :
    Suppressed (docked.opStep (.route (.pen .buttonPress 1 1 1 true) 0))
      (ClutterEvent.pen .buttonPress 1 1 1 true).contact
      [.route (.pen .motion 5 5 0 true) 1, .route (.pen .buttonRelease 5 5 1 false) 2] := by
  refine suppressed_of_keepsPress docked _ 0 (by decide +kernel) _ ⟨fun h => ?_, fun _ => ?_, trivial⟩
  · exact absurd h.2 (by decide)
  · exact ⟨by decide, rfl⟩

/-- A barrel button pressed and released during a dock press drops it, and the next
motion of the tip, which is still down, draws. -/
theorem not_suppressed_barrel :
    ¬ Suppressed (docked.opStep (.route (.pen .buttonPress 1 1 1 true) 0))
      (ClutterEvent.pen .buttonPress 1 1 1 true).contact
      [.route (.pen .buttonPress 1 1 2 true) 1, .route (.pen .buttonRelease 1 1 2 true) 2,
        .route (.pen .motion 5 5 0 true) 3] := by
  intro h
  have hmotion := h 2 _ rfl (fun j hj earlier hget hlifts => ?_) rfl
  · have hlengths := congrArg List.length (Option.some.inj (congrFun hmotion none))
    revert hlengths
    decide +kernel
  · interval_cases j
    · cases hget
      exact absurd hlifts.1 (by decide)
    · cases hget
      exact absurd hlifts.1 (by decide)

end MetaAnnotationLayer

end Annotations
