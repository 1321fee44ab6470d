import Annotations.Dock.Contacts
import Annotations.Publishing.Registry

/-! What becomes of an event that reaches the routing call of `meta_display_handle_event`:
whether the Wayland seat was updated for it, and whether it is passed on to the clients.
The first is decided by the isolation flag, the second by the layer. -/

namespace Annotations

open Runs

variable {K : Type} [Scalar K]

/-- The two decisions of `meta_display_handle_event`. An event that is not consumed goes
on to `meta_wayland_compositor_handle_event`. -/
structure Delivery (K : Type) where
  seatUpdated : Bool
  routed : Routed K

namespace MetaAnnotationLayer

variable (layer : MetaAnnotationLayer K)

/-- `meta_display_handle_event`, for an event that reaches the routing call. -/
def metaDisplayHandleEvent (event : ClutterEvent K) (nowUs : ℤ) : Delivery K where
  seatUpdated := !layer.input.eventShouldSkipWaylandSeatSync event
  routed := layer.routeAnnotationEvent event nowUs

/-- The event goes to the layer, which does not take it. -/
def LetsThrough (event : ClutterEvent K) : Prop :=
  layer.routes event ∧ layer.lands event = none ∧ layer.chromePressId = none ∧
    (layer.paused ∨ layer.surface = none ∨ event.type = .scroll)

variable {layer} {event : ClutterEvent K} {nowUs : ℤ}

/-! ### The isolation flag -/

/-- An event changes the registry by a press, or not at all. -/
theorem registry_route (layer : MetaAnnotationLayer K) (event : ClutterEvent K) (nowUs : ℤ) :
    (layer.opStep (.route event nowUs)).registry = layer.registry ∨
    ∃ c, (layer.opStep (.route event nowUs)).registry = layer.registry.press c := by
  cases layer.routing event nowUs with
  | ignored _ hrouted => exact .inl (by rw [opStep_route hrouted]; rfl)
  | landed _ _ hrouted => exact .inl (by rw [opStep_route hrouted]; rfl)
  | ended _ _ _ _ _ hrouted => exact .inl (by rw [opStep_route hrouted]; rfl)
  | swallowed _ _ _ _ _ hrouted => exact .inl (by rw [opStep_route hrouted]; rfl)
  | handled _ _ _ hrouted =>
    rw [opStep_route hrouted]
    have hhandled : (layer.handleEvent event nowUs).1.tick.registry = _ := registry_handleEvent event nowUs
    by_cases hbegins : layer.begins event = true
    · exact .inr ⟨_, hhandled.trans (if_pos hbegins)⟩
    · exact .inl (hhandled.trans (if_neg hbegins))

theorem input_route : (layer.opStep (.route event nowUs)).input = layer.input := by
  rcases registry_route layer event nowUs with h | ⟨c, h⟩
  · exact congrArg Registry.input h
  · have hinput : (layer.opStep (.route event nowUs)).input = (layer.registry.press c).input :=
      congrArg Registry.input h
    rw [hinput]
    cases c <;> rfl

/-- The isolation flag follows the activation. -/
theorem isolated_step (h : layer.input.nonMouseIsolated = layer.active) (op : Op K) :
    (layer.opStep op).input.nonMouseIsolated = (layer.opStep op).active := by
  cases op with
  | call c =>
    have hinput : (layer.opStep (.call c)).input = (layer.registry.call c).input :=
      congrArg Registry.input (registry_execCall c)
    have hactive : (layer.opStep (.call c)).active = (layer.dock.call c).active :=
      congrArg Dock.active (dock_opStep_call c)
    rw [hinput, hactive]
    cases c with
    | setActive active =>
      change (layer.input.setNonMousePointerIsolated active).nonMouseIsolated = active
      cases active <;> rfl
    | windowManaged win data =>
      change (if win ∈ layer.display.windows then layer.registry else _).input.nonMouseIsolated = layer.active
      split_ifs <;> exact h
    | _ => exact h
  | route event nowUs =>
    rw [input_route, active_route]
    exact h

theorem isolated_run (display : MetaDisplay) (input : AnnotationInput K) (width height : ℤ) (ops : List (Op K)) :
    (run opStep (metaAnnotationLayerNew display input width height) ops).input.nonMouseIsolated =
      (run opStep (metaAnnotationLayerNew display input width height) ops).active := by
  have hinput : (metaAnnotationLayerNew display input width height).input = input.setNonMousePointerIsolated false :=
    congrArg Registry.input (registry_execCall (.stageSizeChanged width height))
  have hactive : (metaAnnotationLayerNew display input width height).active = false :=
    congrArg Dock.active dock_new
  refine run_invariant (P := fun layer : MetaAnnotationLayer K => layer.input.nonMouseIsolated = layer.active)
    (fun _ op h => isolated_step h op) ?_
  rw [hinput, hactive]
  rfl

/-! ### The two decisions -/

/-- The event types that the layer handles. -/
theorem type_of_targetsOverlay (h : metaAnnotationEventTargetsOverlay event) (hscroll : event.type ≠ .scroll) :
    (layer.handleEvent event nowUs).2 = layer.takesEvents := by
  unfold handleEvent
  cases htakes : layer.takesEvents with
  | false => rfl
  | true =>
    unfold metaAnnotationEventTargetsOverlay at h
    simp only [Bool.not_true, Bool.false_eq_true, if_false]
    cases htype : event.type <;> simp_all

theorem handleEvent_scroll (hscroll : event.type = .scroll) : (layer.handleEvent event nowUs).2 = false := by
  unfold handleEvent
  split_ifs
  · rfl
  · rw [hscroll]

/-- Of the events that go to the layer it takes all but scrolls, as long as it takes any. -/
theorem consumed_handleEvent (hroutes : layer.routes event) :
    (layer.handleEvent event nowUs).2 = false ↔ layer.paused ∨ layer.surface = none ∨ event.type = .scroll := by
  obtain ⟨hactive, htargets⟩ := Bool.and_eq_true_iff.mp hroutes
  by_cases hscroll : event.type = .scroll
  · simp [handleEvent_scroll hscroll, hscroll]
  · rw [type_of_targetsOverlay htargets hscroll]
    simp only [takesEvents, hactive, hscroll, or_false, Bool.true_and, Bool.and_eq_false_iff]
    simp

/-- In every reachable state, an event skips the update of the seat exactly when it is
consumed, unless the layer lets it through. -/
theorem seatUpdated_iff (display : MetaDisplay) (input : AnnotationInput K) (width height : ℤ)
    (ops : List (Op K)) (event : ClutterEvent K) (nowUs : ℤ) :
    let layer := run opStep (metaAnnotationLayerNew display input width height) ops
    let delivery := layer.metaDisplayHandleEvent event nowUs
    (delivery.seatUpdated = false ↔ delivery.routed.consumed) ↔ ¬ layer.LetsThrough event := by
  have hisolated := isolated_run display input width height ops
  intro layer delivery
  have hskips : delivery.seatUpdated = false ↔ layer.routes event := by
    have hupdated : delivery.seatUpdated = !layer.routes event := by
      change (!layer.input.eventShouldSkipWaylandSeatSync event) = !layer.routes event
      unfold AnnotationInput.eventShouldSkipWaylandSeatSync routes
      rw [hisolated]
      cases layer.active <;> rfl
    rw [hupdated, Bool.not_eq_false']
  rw [hskips]
  have hrouted : delivery.routed = layer.routeAnnotationEvent event nowUs := rfl
  rw [hrouted]
  unfold LetsThrough
  cases layer.routing event nowUs with
  | ignored hroutes hrouted => simp [hrouted, hroutes]
  | landed id hlands hrouted => simp [hrouted, hlands, (lands_eq_some hlands).1]
  | ended pressed hroutes hlands hpressed hterminates hrouted => simp [hrouted, hroutes, hpressed]
  | swallowed pressed hroutes hlands hpressed hterminates hrouted => simp [hrouted, hroutes, hpressed]
  | handled hroutes hlands hpressed hrouted =>
    have hconsumed : (layer.handleEvent event nowUs).2 = false ↔ _ := consumed_handleEvent hroutes
    rw [← hconsumed]
    simp [hrouted, hroutes, hlands, hpressed]

/-- A touch while the layer is paused: the seat does not hear of it, and the clients do. -/
theorem not_seatUpdated_paused :
    let layer := run opStep (metaAnnotationLayerNew .bare .initial 10 10)
      [.call (.setActive true), .call (.setPaused true)]
    let delivery := layer.metaDisplayHandleEvent (.touch .touchBegin 1 1 0) 0
    delivery.seatUpdated = false ∧ delivery.routed.consumed = false := by
  decide +kernel

end MetaAnnotationLayer

end Annotations
