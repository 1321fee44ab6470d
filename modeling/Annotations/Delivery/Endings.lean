import Annotations.Delivery.Seat
import Annotations.Dock.Swallowing

/-! How contacts end. The event that ends a contact ends its stroke if it gets to the
layer; whether it does is decided from that event alone, and not from how the contact
began. -/

namespace Annotations

open Runs

variable {K : Type} [Scalar K]

namespace ClutterEvent

variable (event : ClutterEvent K)

/-- The event ends its contact: a button release other than that of a barrel button, a
motion without a button and without pressure, or the end of a touch. -/
def endsContact : Bool :=
  match event.type with
  | .buttonRelease => event.getDeviceTool.isNone || event.getButton = clutterButtonPrimary || event.getButton = 0
  | .motion => !event.button1Mask && !axesPressurePositive event.getAxes
  | .touchEnd | .touchCancel => true
  | _ => false

variable {event}

/-- Pressure on the tip is pressure on the axis. -/
theorem axesPressurePositive_of_pressureTip (h : event.pressureTip) : axesPressurePositive event.getAxes := by
  unfold pressureTip getPressure at h
  split at h
  · simp at h
  · cases haxes : event.getAxes with
    | none => simp [haxes] at h
    | some axes =>
      cases hpressure : axes[clutterInputAxisPressure]? with
      | none => simp [haxes, hpressure] at h
      | some pressure => simpa [axesPressurePositive, haxes, hpressure] using h

theorem not_penDown_of_endsContact (htype : event.type = .motion) (h : event.endsContact) :
    event.penDown = false := by
  simp only [endsContact, htype, Bool.and_eq_true, Bool.not_eq_true'] at h
  have htip : event.pressureTip = false := by
    by_contra htip
    simp [axesPressurePositive_of_pressureTip (Bool.of_not_eq_false htip)] at h
  simp [penDown, h.1, htip]

end ClutterEvent

/-- An event of a pointer without a tool and without a hint of a pen but its pressure. -/
def ClutterEvent.pressurePointer (type : ClutterEventType) (x y : ℚ) (button : ℕ) (down : Bool) (pressure : ℚ) :
    ClutterEvent ℚ where
  type := type
  sourceDevice := some ⟨2, .pointer, false, false, none, none⟩
  tool := none
  x := x
  y := y
  button := button
  button1Mask := down
  axes := some [0, 0, 0, pressure]
  sequence := 0

namespace MetaAnnotationLayer

variable {layer : MetaAnnotationLayer K} {event : ClutterEvent K} {nowUs : ℤ}

/-- Handling the end of a contact ends the stroke. -/
theorem strokeActive_handleEvent_of_endsContact (htakes : layer.takesEvents) (hends : event.endsContact) :
    (layer.handleEvent event nowUs).1.strokeActive = false := by
  unfold handleEvent
  simp only [htakes, Bool.not_true, Bool.false_eq_true, if_false]
  cases htype : event.type with
  | buttonRelease =>
    have hmodifier : layer.handleToolModifierPress event false = none := by
      simp only [ClutterEvent.endsContact, htype, Bool.or_eq_true, decide_eq_true_eq, or_assoc] at hends
      unfold handleToolModifierPress
      rcases hends with htool | hbutton
      · simp [htool]
      · simp [hbutton]
    simp only [handleButtonRelease, hmodifier]
    exact strokeActive_endStroke _
  | motion =>
    have hpen := ClutterEvent.not_penDown_of_endsContact htype hends
    simp only [handleMotion, hpen, Bool.false_eq_true, if_false]
    split_ifs with hdown
    · simpa using hdown
    · exact strokeActive_endStroke _
  | touchEnd => exact strokeActive_endStroke _
  | touchCancel => exact strokeActive_endStroke _
  | _ => simp [ClutterEvent.endsContact, htype] at hends

/-- The event is handed to the layer, and begins or continues a stroke there. -/
def Inks (layer : MetaAnnotationLayer K) (event : ClutterEvent K) : Prop :=
  layer.routes event ∧ layer.lands event = none ∧ layer.chromePressId = none ∧
    (layer.begins event ∨ layer.continues event)

/-- In step `j` a contact begins or continues a stroke, and it ends with the event of
step `k`, all while the layer is active and not paused. -/
structure InkedContact (start : MetaAnnotationLayer K) (ops : List (Op K)) (j k : ℕ) (event : ClutterEvent K) :
    Prop where
  order : j < k
  ended : ∃ nowUs, ops[k]? = some (.route event nowUs)
  ends : event.endsContact
  inked : ∃ event' nowUs, ops[j]? = some (.route event' nowUs) ∧ event'.contact = event.contact ∧
    (stateAt opStep start ops j).Inks event'
  unbroken : ∀ i, j < i → i < k → ∀ event' nowUs, ops[i]? = some (.route event' nowUs) →
    event'.contact = event.contact → event'.endsContact = false
  live : ∀ i, j ≤ i → i ≤ k → (stateAt opStep start ops i).active ∧ (stateAt opStep start ops i).paused = false

theorem surface_of_inks (h : layer.Inks event) : layer.surface.isSome := by
  obtain ⟨_, _, _, hbegins | hcontinues⟩ := h
  · have htakes := takesEvents_of_begins hbegins
    simp only [takesEvents, Bool.and_eq_true] at htakes
    exact htakes.2
  · simp only [continues, takesEvents, Bool.and_eq_true] at hcontinues
    exact hcontinues.1.1.2

variable {start : MetaAnnotationLayer K} {ops : List (Op K)} {j k : ℕ}

/-- A layer that has a surface keeps one. -/
theorem surface_stateAt (hj : (stateAt opStep start ops j).surface.isSome) (hjk : j ≤ k) (hk : k ≤ ops.length) :
    (stateAt opStep start ops k).surface.isSome := by
  induction k with
  | zero =>
    obtain rfl : j = 0 := Nat.le_zero.mp hjk
    exact hj
  | succ k ih =>
    rcases Nat.eq_or_lt_of_le hjk with rfl | hlt
    · exact hj
    · have hop : ops[k]? = some ops[k] := List.getElem?_eq_getElem hk
      rw [stateAt_succ hop]
      exact surface_opStep (ih (by omega) (by omega))

/-- The end of a contact leaves no stroke active exactly when it gets to the layer, or
there was none. -/
theorem strokeActive_opStep_iff (hlive : layer.active ∧ layer.paused = false) (hsurface : layer.surface.isSome)
    (hends : event.endsContact) :
    (layer.opStep (.route event nowUs)).strokeActive = false ↔
      (layer.strokeActive → metaAnnotationEventTargetsOverlay event ∧ layer.chromePressId = none) := by
  have htakes : layer.takesEvents := by simp [takesEvents, hlive.1, hlive.2, hsurface]
  cases layer.routing event nowUs with
  | ignored hroutes hrouted =>
    have htargets : metaAnnotationEventTargetsOverlay event = false := by
      simpa [routes, hlive.1] using hroutes
    rw [opStep_route hrouted]
    simp [tick, htargets]
  | landed id hlands hrouted =>
    have hactivates := (lands_eq_some hlands).2.1
    rw [ClutterEvent.activates_iff] at hactivates
    rcases hactivates with ⟨hpress, _⟩ | hbegin
    · simp [ClutterEvent.endsContact, hpress] at hends
    · simp [ClutterEvent.endsContact, hbegin] at hends
  | ended pressed hroutes hlands hpressed hterminates hrouted =>
    rw [opStep_route hrouted]
    simp [tick, clearChromePress, hpressed]
  | swallowed pressed hroutes hlands hpressed hterminates hrouted =>
    rw [opStep_route hrouted]
    simp [tick, hpressed]
  | handled hroutes hlands hpressed hrouted =>
    rw [opStep_route hrouted]
    have hended : (layer.handleEvent event nowUs).1.strokeActive = false :=
      strokeActive_handleEvent_of_endsContact htakes hends
    have htargets := (Bool.and_eq_true_iff.mp hroutes).2
    exact iff_of_true hended fun _ => ⟨htargets, hpressed⟩

/-- A contact that inked leaves no stroke active when it ends, exactly when the event that
ends it is classified for the overlay and no chrome press is in flight. -/
theorem InkedContact.strokeActive_iff (display : MetaDisplay) (input : AnnotationInput K) (width height : ℤ)
    (ops : List (Op K)) (j k : ℕ) (event : ClutterEvent K)
    (h : InkedContact (metaAnnotationLayerNew display input width height) ops j k event) :
    let layer := stateAt opStep (metaAnnotationLayerNew display input width height) ops k
    (stateAt opStep (metaAnnotationLayerNew display input width height) ops (k + 1)).strokeActive = false ↔
      (layer.strokeActive → metaAnnotationEventTargetsOverlay event ∧ layer.chromePressId = none) := by
  intro layer
  obtain ⟨nowUs, hget⟩ := h.ended
  obtain ⟨event', nowUs', hget', _, hinks⟩ := h.inked
  have hlt : k < ops.length := (List.getElem?_eq_some_iff.mp hget).1
  have hsurface := surface_stateAt (surface_of_inks hinks) h.order.le hlt.le
  rw [stateAt_succ hget]
  exact strokeActive_opStep_iff (h.live k h.order.le le_rfl) hsurface h.ends

theorem InkedContact.strokeActive_iff_touch :
    (stateAt opStep (metaAnnotationLayerNew .bare .initial 10 10) [.call (.setActive true),
      .route (.touch .touchBegin 1 1 0) 0, .route (.touch .touchEnd 1 1 0) 1] 3).strokeActive = false := by
  have hinked : InkedContact (metaAnnotationLayerNew .bare .initial 10 10) [.call (.setActive true),
      .route (.touch .touchBegin 1 1 0) 0, .route (.touch .touchEnd 1 1 0) 1] 1 2 (.touch .touchEnd 1 1 0) :=
    { order := by decide
      ended := ⟨1, rfl⟩
      ends := by decide +kernel
      inked := ⟨.touch .touchBegin 1 1 0, 0, rfl, rfl, by decide +kernel, by decide +kernel, by decide +kernel,
        .inl (by decide +kernel)⟩
      unbroken := fun i hlt hle => by omega
      live := fun i hlt hle => by
        obtain rfl | rfl : i = 1 ∨ i = 2 := by omega
        · decide +kernel
        · decide +kernel }
  exact (InkedContact.strokeActive_iff _ _ _ _ _ _ _ _ hinked).mpr fun _ => by decide +kernel

/-- A pointer that reports pressure on motion and nothing else of a pen: its release does
not get to the layer, and the next contact continues the stroke. -/
theorem not_ends_pressurePointer :
    let ops : List (Op ℚ) := [.call (.setActive true), .route (.pressurePointer .motion 1 1 0 true (1 / 2)) 0,
      .route (.pressurePointer .buttonRelease 1 1 1 false 0) 1]
    InkedContact (metaAnnotationLayerNew .bare .initial 10 10) ops 1 2
        (.pressurePointer .buttonRelease 1 1 1 false 0) ∧
      (stateAt opStep (metaAnnotationLayerNew .bare .initial 10 10) ops 3).strokeActive ∧
      (stateAt opStep (metaAnnotationLayerNew .bare .initial 10 10) ops 3).Inks
        (.pressurePointer .motion 8 8 0 true (1 / 2)) ∧
      (stateAt opStep (metaAnnotationLayerNew .bare .initial 10 10) ops 3).continues
        (.pressurePointer .motion 8 8 0 true (1 / 2)) := by
  intro ops
  refine ⟨?_, by decide +kernel, ⟨by decide +kernel, by decide +kernel, by decide +kernel,
    .inr (by decide +kernel)⟩, by decide +kernel⟩
  exact
    { order := by decide
      ended := ⟨1, rfl⟩
      ends := by decide +kernel
      inked := ⟨.pressurePointer .motion 1 1 0 true (1 / 2), 0, rfl, rfl, by decide +kernel, by decide +kernel,
        by decide +kernel, .inl (by decide +kernel)⟩
      unbroken := fun i hlt hle => by omega
      live := fun i hlt hle => by
        obtain rfl | rfl : i = 1 ∨ i = 2 := by omega
        · decide +kernel
        · decide +kernel }

end MetaAnnotationLayer

end Annotations
