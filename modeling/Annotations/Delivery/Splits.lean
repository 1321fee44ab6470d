import Annotations.Delivery.Endings

/-! Contacts and toggles. Every event of a contact is routed by the flags in force when it
arrives, so a contact stays whole as long as the flags are the same at all of its events. -/

namespace Annotations

open Runs

variable {K : Type} [Scalar K]

namespace ClutterEvent

variable (event : ClutterEvent K)

/-- The types of the events of a contact. -/
def ofContact : Bool :=
  match event.type with
  | .buttonPress | .buttonRelease | .motion | .touchBegin | .touchUpdate | .touchEnd | .touchCancel => true
  | _ => false

variable {event}

/-- Motion can only add to what device and tool tell of a pointer. -/
theorem targetsOverlay_motion {press : ClutterEvent K} (htype : event.type = .motion)
    (hpress : press.type = .buttonPress) (hdevice : event.sourceDevice = press.sourceDevice)
    (htool : event.tool = press.tool) (h : metaAnnotationEventTargetsOverlay press) :
    metaAnnotationEventTargetsOverlay event := by
  unfold metaAnnotationEventTargetsOverlay at h ⊢
  simp only [htype, hpress, hdevice] at h ⊢
  cases hsource : press.sourceDevice with
  | none => simp [hsource] at h
  | some device =>
    simp only [hsource] at h ⊢
    have htool' : event.getDeviceTool = press.getDeviceTool := by simp [getDeviceTool, htype, hpress, htool]
    cases htypes : device.deviceType with
    | pointer =>
      simp only [htypes, reduceCtorEq, if_false, htool'] at h ⊢
      unfold pointerDeviceMatchesAnnotationPointer at h ⊢
      simp only [htype, hpress, axesPressurePositive] at h ⊢
      split_ifs at h ⊢ <;> simp_all
    | touchpad => simpa [htypes, htool'] using h
    | _ => simp_all

/-- A contact whose press belongs to the overlay belongs to it with all of its events. -/
theorem targetsOverlay_of_contact (hof : event.ofContact) (hpressed : event.contact.Pressed K) :
    metaAnnotationEventTargetsOverlay event := by
  obtain ⟨press, hactivates, htargets, hcontact⟩ := hpressed
  rw [activates_iff] at hactivates
  have htip : event.type = .buttonPress ∨ event.type = .buttonRelease ∨ event.type = .motion →
      press.type = .buttonPress ∧ event.sourceDevice = press.sourceDevice ∧ event.tool = press.tool := by
    intro htype
    rcases hactivates with ⟨hpress, _⟩ | hbegin
    · rcases htype with htype | htype | htype <;> simp_all [contact]
    · rcases htype with htype | htype | htype <;> simp [contact, htype, hbegin] at hcontact
  cases htype : event.type with
  | buttonPress =>
    obtain ⟨hpress, hdevice, htool⟩ := htip (.inl htype)
    rwa [targetsOverlay_button_congr (.inl htype) (.inl hpress) hdevice htool]
  | buttonRelease =>
    obtain ⟨hpress, hdevice, htool⟩ := htip (.inr (.inl htype))
    rwa [targetsOverlay_button_congr (.inr htype) (.inl hpress) hdevice htool]
  | motion =>
    obtain ⟨hpress, hdevice, htool⟩ := htip (.inr (.inr htype))
    exact targetsOverlay_motion htype hpress hdevice htool htargets
  | touchBegin | touchUpdate | touchEnd | touchCancel => simp [metaAnnotationEventTargetsOverlay, htype]
  | _ => simp [ofContact, htype] at hof

end ClutterEvent

namespace MetaAnnotationLayer

variable {layer : MetaAnnotationLayer K} {event : ClutterEvent K} {nowUs : ℤ}

/-- The press lands in a chrome region, or a chrome press is in flight. -/
def ChromeInPlay (layer : MetaAnnotationLayer K) (event : ClutterEvent K) : Prop :=
  layer.lands event ≠ none ∨ layer.chromePressId ≠ none

/-- What decides on an event of a contact. -/
theorem consumed_iff (hof : event.ofContact) (hpressed : event.contact.Pressed K) :
    (layer.routeAnnotationEvent event nowUs).consumed ↔
      layer.active ∧ (layer.paused = false ∧ layer.surface ≠ none ∨ layer.ChromeInPlay event) := by
  have htargets := ClutterEvent.targetsOverlay_of_contact hof hpressed
  have hscroll : event.type ≠ .scroll := by
    intro hscroll
    simp [ClutterEvent.ofContact, hscroll] at hof
  unfold ChromeInPlay
  cases layer.routing event nowUs with
  | ignored hroutes hrouted =>
    have hactive : layer.active = false := by simpa [routes, htargets] using hroutes
    simp [hrouted, hactive]
  | landed id hlands hrouted =>
    have hactive := (Bool.and_eq_true_iff.mp (lands_eq_some hlands).1).1
    simp [hrouted, hlands, hactive]
  | ended pressed hroutes hlands hpressed' hterminates hrouted =>
    have hactive := (Bool.and_eq_true_iff.mp hroutes).1
    simp [hrouted, hpressed', hactive]
  | swallowed pressed hroutes hlands hpressed' hterminates hrouted =>
    have hactive := (Bool.and_eq_true_iff.mp hroutes).1
    simp [hrouted, hpressed', hactive]
  | handled hroutes hlands hpressed' hrouted =>
    have hactive := (Bool.and_eq_true_iff.mp hroutes).1
    have hhandled : (layer.handleEvent event nowUs).2 = layer.takesEvents :=
      type_of_targetsOverlay htargets hscroll
    have hconsumed : (layer.routeAnnotationEvent event nowUs).consumed = layer.takesEvents := by
      rw [hrouted]
      exact hhandled
    rw [hconsumed]
    simp [takesEvents, hactive, hlands, hpressed', Option.isSome_iff_ne_none]

/-- The run routes the event of the contact in step `k`. -/
structure ContactEvent (ops : List (Op K)) (contact : Contact) (k : ℕ) (event : ClutterEvent K) (nowUs : ℤ) :
    Prop where
  routed : ops[k]? = some (.route event nowUs)
  contact : event.contact = contact
  ofContact : event.ofContact

/-- The flags that decide on an event of a contact are these. Chrome only matters to a
layer that does not draw. -/
structure Steady (layer : MetaAnnotationLayer K) (event : ClutterEvent K) (on off drawn chrome : Bool) : Prop where
  active : layer.active = on
  paused : layer.paused = off
  surface : layer.surface.isSome = drawn
  inPlay : on → off ∨ drawn = false → (layer.ChromeInPlay event ↔ chrome)

/-- An event of a contact is consumed by the flags in force when it arrives, and the
contact is whole as long as they are the same at its events. -/
theorem contact_whole (display : MetaDisplay) (input : AnnotationInput K) (width height : ℤ) (ops : List (Op K))
    (contact : Contact) (hpressed : contact.Pressed K) :
    let layer := stateAt opStep (metaAnnotationLayerNew display input width height) ops
    (∀ k event nowUs, ContactEvent ops contact k event nowUs →
      (((layer k).routeAnnotationEvent event nowUs).consumed ↔ (layer k).active ∧
        ((layer k).paused = false ∧ (layer k).surface ≠ none ∨ (layer k).ChromeInPlay event))) ∧
    ∀ on off drawn chrome,
      (∀ k event nowUs, ContactEvent ops contact k event nowUs → (layer k).Steady event on off drawn chrome) →
      ∀ k event nowUs, ContactEvent ops contact k event nowUs →
        ((layer k).routeAnnotationEvent event nowUs).consumed = (on && (!off && drawn || chrome)) := by
  intro layer
  have hflags : ∀ k event nowUs, ContactEvent ops contact k event nowUs →
      (((layer k).routeAnnotationEvent event nowUs).consumed ↔ (layer k).active ∧
        ((layer k).paused = false ∧ (layer k).surface ≠ none ∨ (layer k).ChromeInPlay event)) := by
    intro k event nowUs hevent
    exact consumed_iff hevent.ofContact (hevent.contact ▸ hpressed)
  refine ⟨hflags, ?_⟩
  intro on off drawn chrome hsteady k event nowUs hevent
  obtain ⟨hactive, hpaused, hsurface, hchrome⟩ := hsteady k event nowUs hevent
  rw [Bool.eq_iff_iff, hflags k event nowUs hevent, hactive, hpaused, ← Option.isSome_iff_ne_none, hsurface]
  cases on with
  | false => simp
  | true =>
    cases off <;> cases drawn <;> simp_all

theorem contact_whole_touch :
    let ops : List (Op ℚ) := [.call (.setActive true), .route (.touch .touchBegin 1 1 0) 0,
      .route (.touch .touchEnd 1 1 0) 1]
    let layer := stateAt opStep (metaAnnotationLayerNew .bare .initial 10 10) ops
    ((layer 1).routeAnnotationEvent (.touch .touchBegin 1 1 0) 0).consumed ∧
      ((layer 2).routeAnnotationEvent (.touch .touchEnd 1 1 0) 1).consumed := by
  intro ops layer
  let contact := (ClutterEvent.touch .touchBegin 1 1 0 : ClutterEvent ℚ).contact
  have hpressed : contact.Pressed ℚ := ⟨.touch .touchBegin 1 1 0, by decide +kernel, by decide +kernel, rfl⟩
  have hsteady : ∀ k event nowUs, ContactEvent ops contact k event nowUs →
      (layer k).Steady event true false true false := by
    intro k event nowUs hevent
    have hk : k = 1 ∨ k = 2 := by
      have hrouted := hevent.routed
      match k with
      | 0 => cases hrouted
      | 1 => exact .inl rfl
      | 2 => exact .inr rfl
      | k + 3 => simp [ops] at hrouted
    rcases hk with rfl | rfl
    · exact ⟨by decide +kernel, by decide +kernel, by decide +kernel, by simp⟩
    · exact ⟨by decide +kernel, by decide +kernel, by decide +kernel, by simp⟩
  have hwhole := (contact_whole .bare .initial 10 10 ops contact hpressed).2 true false true false hsteady
  exact ⟨hwhole 1 _ 0 ⟨rfl, rfl, by decide⟩, hwhole 2 _ 1 ⟨rfl, rfl, by decide⟩⟩

/-- A toggle splits a touch: the clients get the end of a touch that began on the
overlay, and miss the end of one that began with them. -/
theorem not_contact_whole_toggled :
    let press : Op ℚ := .route (.touch .touchBegin 1 1 0) 0
    let begun := stateAt opStep (metaAnnotationLayerNew .bare .initial 10 10)
    let on := begun [.call (.setActive true), press, .call (.setActive false), .route (.touch .touchEnd 1 1 0) 1]
    let off := begun [press, .call (.setActive true), .route (.touch .touchEnd 1 1 0) 1]
    ((on 1).routeAnnotationEvent (.touch .touchBegin 1 1 0) 0).consumed = true ∧
      ((on 3).routeAnnotationEvent (.touch .touchEnd 1 1 0) 1).consumed = false ∧
      ((off 0).routeAnnotationEvent (.touch .touchBegin 1 1 0) 0).consumed = false ∧
      ((off 2).routeAnnotationEvent (.touch .touchEnd 1 1 0) 1).consumed = true := by
  decide +kernel

end MetaAnnotationLayer

end Annotations
