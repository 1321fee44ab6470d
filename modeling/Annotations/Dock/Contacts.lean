import Annotations.Dock.State
import Annotations.Runs.Basic

/-! Contacts and what routing does with their events. A contact is a pen tip or a
touch: it begins with a press that `activates`, and the event that `lifts` it ends it.
`Routing` lists the ways an event can be routed. -/

namespace Annotations

/-- The tip of a tool, or a touch sequence. -/
inductive Contact where
  | tip (device : Option ClutterInputDevice) (tool : Option ClutterInputDeviceToolType)
  | touch (sequence : ℕ)
  deriving DecidableEq

variable {K : Type} [Scalar K]

namespace ClutterEvent

variable (event : ClutterEvent K)

/-- The contact an event belongs to. -/
def contact : Contact :=
  match event.type with
  | .touchBegin | .touchUpdate | .touchEnd | .touchCancel => .touch event.sequence
  | _ => .tip event.sourceDevice event.tool

/-- The event ends its contact: a release of the primary button, or the end of a touch. -/
def lifts : Bool :=
  event.type = .buttonRelease && event.getButton = clutterButtonPrimary ||
    event.type = .touchEnd || event.type = .touchCancel

variable {event} {press : ClutterEvent K}

omit [Scalar K] in
theorem terminates_of_lifts (h : event.lifts) : event.terminates := by
  simp only [lifts, Bool.or_eq_true, Bool.and_eq_true] at h
  simp only [terminates, Bool.or_eq_true]
  exact h.imp_left (.imp_left And.left)

omit [Scalar K] in
theorem activates_iff : event.activates ↔
    event.type = .buttonPress ∧ event.getButton = clutterButtonPrimary ∨ event.type = .touchBegin := by
  simp [activates]

/-- The end of a contact goes to the overlay if its press did. -/
theorem targetsOverlay_lifts (hpress : press.activates) (htargets : metaAnnotationEventTargetsOverlay press)
    (hlifts : event.lifts) (hcontact : event.contact = press.contact) :
    metaAnnotationEventTargetsOverlay event := by
  rw [activates_iff] at hpress
  simp only [lifts, Bool.or_eq_true, Bool.and_eq_true, decide_eq_true_eq] at hlifts
  rcases hlifts with (⟨hrelease, _⟩ | hend) | hcancel
  · rcases hpress with ⟨hpress, _⟩ | hbegin
    · simp only [contact, hrelease, hpress, Contact.tip.injEq] at hcontact
      rwa [targetsOverlay_button_congr (.inr hrelease) (.inl hpress) hcontact.1 hcontact.2]
    · simp [contact, hrelease, hbegin] at hcontact
  · simp [metaAnnotationEventTargetsOverlay, hend]
  · simp [metaAnnotationEventTargetsOverlay, hcancel]

end ClutterEvent

namespace MetaAnnotationLayer

variable (layer : MetaAnnotationLayer K)

/-- The event gets past the first tests of the router. -/
def routes (event : ClutterEvent K) : Bool :=
  layer.active && metaAnnotationEventTargetsOverlay event

/-- The chrome region that a press lands in. -/
def lands (event : ClutterEvent K) : Option String :=
  if layer.routes event && event.activates then layer.pickChromeRegion event.x event.y else none

/-- The ways to route an event. -/
inductive Routing (layer : MetaAnnotationLayer K) (event : ClutterEvent K) (nowUs : ℤ) : Prop
  | ignored (hroutes : layer.routes event = false)
    (hrouted : layer.routeAnnotationEvent event nowUs = ⟨layer, false, none⟩)
  | landed (id : String) (hlands : layer.lands event = some id)
    (hrouted : layer.routeAnnotationEvent event nowUs = ⟨layer.setChromePressActive (some id), true,
      some ⟨id, if event.type = .buttonPress then .press else .touchBegin⟩⟩)
  | ended (pressed : String) (hroutes : layer.routes event) (hlands : layer.lands event = none)
    (hpressed : layer.chromePressId = some pressed) (hterminates : event.terminates)
    (hrouted : layer.routeAnnotationEvent event nowUs =
      ⟨layer.clearChromePress, true, layer.releaseSignal event pressed⟩)
  | swallowed (pressed : String) (hroutes : layer.routes event) (hlands : layer.lands event = none)
    (hpressed : layer.chromePressId = some pressed) (hterminates : event.terminates = false)
    (hrouted : layer.routeAnnotationEvent event nowUs = ⟨layer, true, none⟩)
  | handled (hroutes : layer.routes event) (hlands : layer.lands event = none)
    (hpressed : layer.chromePressId = none)
    (hrouted : layer.routeAnnotationEvent event nowUs =
      ⟨(layer.handleEvent event nowUs).1, (layer.handleEvent event nowUs).2, none⟩)

variable {layer} {event : ClutterEvent K} {nowUs : ℤ}

theorem routing (layer : MetaAnnotationLayer K) (event : ClutterEvent K) (nowUs : ℤ) :
    layer.Routing event nowUs := by
  cases hactive : layer.active with
  | false => exact .ignored (by simp [routes, hactive]) (by simp [routeAnnotationEvent, hactive])
  | true =>
    cases htargets : metaAnnotationEventTargetsOverlay event with
    | false =>
      exact .ignored (by simp [routes, htargets]) (by simp [routeAnnotationEvent, hactive, htargets])
    | true =>
      have hroutes : layer.routes event := by simp [routes, hactive, htargets]
      have hlands : (if event.activates then layer.pickChromeRegion event.x event.y else none) =
          layer.lands event := by
        simp [lands, hroutes]
      cases hland : layer.lands event with
      | some id =>
        exact .landed id hland (by simp [routeAnnotationEvent, hactive, htargets, hlands, hland])
      | none =>
        cases hpressed : layer.chromePressId with
        | none =>
          exact .handled hroutes hland hpressed
            (by simp [routeAnnotationEvent, hactive, htargets, hlands, hland, hpressed])
        | some pressed =>
          cases hterminates : event.terminates with
          | true =>
            exact .ended pressed hroutes hland hpressed hterminates (by
              simp [routeAnnotationEvent, hactive, htargets, hlands, hland, hpressed, hterminates])
          | false =>
            exact .swallowed pressed hroutes hland hpressed hterminates (by
              simp [routeAnnotationEvent, hactive, htargets, hlands, hland, hpressed, hterminates])

theorem lands_eq_some {id : String} (h : layer.lands event = some id) :
    layer.routes event ∧ event.activates ∧ layer.pickChromeRegion event.x event.y = some id := by
  unfold lands at h
  split_ifs at h with hroutes
  rw [Bool.and_eq_true] at hroutes
  exact ⟨hroutes.1, hroutes.2, h⟩

/-- An event whose release lands in the region pressed signals so. -/
theorem releaseSignal_eq_some {pressed : String} {signal : RegionActivated}
    (h : layer.releaseSignal event pressed = some signal) :
    layer.pickChromeRegion event.x event.y = some pressed ∧ event.type ≠ .touchCancel ∧
      signal = ⟨pressed, if event.type = .buttonRelease then .release else .touchEnd⟩ := by
  unfold releaseSignal at h
  split at h
  · cases h
  next id hid =>
    by_cases hpressed : id = pressed ∧ event.type ≠ .touchCancel
    · rw [if_pos hpressed] at h
      obtain ⟨rfl, htype⟩ := hpressed
      exact ⟨hid, htype, (Option.some.inj h).symm⟩
    · simp [hpressed] at h

/-! ### Steps -/

omit [Scalar K] in
@[simp] theorem dock_tick : layer.tick.dock = layer.dock := rfl

omit [Scalar K] in
@[simp] theorem canvasStrokes_tick : layer.tick.canvasStrokes = layer.canvasStrokes := rfl

theorem dock_opStep_call (c : Call K) : (layer.opStep (.call c)).dock = layer.dock.call c :=
  dock_execCall c

theorem opStep_route {routed : Routed K} (hrouted : layer.routeAnnotationEvent event nowUs = routed) :
    layer.opStep (.route event nowUs) = routed.layer.tick := by
  rw [opStep, hrouted]

theorem opSignal_route {routed : Routed K} (hrouted : layer.routeAnnotationEvent event nowUs = routed) :
    layer.opSignal (.route event nowUs) = routed.signal := by
  rw [opSignal, hrouted]

/-- A press that lands in a region is in flight afterwards. -/
theorem opStep_of_lands {id : String} (hlands : layer.lands event = some id) :
    layer.opStep (.route event nowUs) = (layer.setChromePressActive (some id)).tick := by
  cases layer.routing event nowUs with
  | landed id' hid hrouted =>
    obtain rfl : id' = id := Option.some.inj (hid.symm.trans hlands)
    exact opStep_route hrouted
  | ignored hroutes => simp [(lands_eq_some hlands).1] at hroutes
  | ended _ _ hnone => simp [hlands] at hnone
  | swallowed _ _ hnone => simp [hlands] at hnone
  | handled _ hnone => simp [hlands] at hnone

/-! ### Watching the contacts -/

end MetaAnnotationLayer

/-- What an observer of the routed events knows of the contacts: the one whose press
last landed in a chrome region, and those that are down on the overlay. -/
structure Contacts where
  owner : Option Contact
  down : Contact → Bool

def Contacts.none : Contacts := ⟨Option.none, fun _ => false⟩

/-- Watch an operation on the layer. -/
def Contacts.see (contacts : Contacts) (layer : MetaAnnotationLayer K) : Op K → Contacts
  | .call _ => contacts
  | .route event _ =>
    { owner := if (layer.lands event).isSome then some event.contact else contacts.owner
      down :=
        if !metaAnnotationEventTargetsOverlay event then contacts.down
        else if event.activates then Function.update contacts.down event.contact true
        else if event.lifts then Function.update contacts.down event.contact false
        else contacts.down }

/-- The operation ends the contact. -/
def Op.Lifts (contact : Contact) : Op K → Prop
  | .route event _ => event.lifts ∧ event.contact = contact
  | .call _ => False

/-- A contact that pressed on the overlay. -/
def Contact.Pressed (K : Type) [Scalar K] (contact : Contact) : Prop :=
  ∃ press : ClutterEvent K, press.activates ∧ metaAnnotationEventTargetsOverlay press ∧
    press.contact = contact

namespace MetaAnnotationLayer

variable {layer : MetaAnnotationLayer K} {event : ClutterEvent K} {nowUs : ℤ} {contact : Contact}
  {id : String}

theorem pressed_of_lands (h : layer.lands event = some id) :
    event.contact.Pressed K := by
  obtain ⟨hroutes, hactivates, _⟩ := lands_eq_some h
  exact ⟨event, hactivates, (Bool.and_eq_true _ _ ▸ hroutes).2, rfl⟩

/-- A contact that pressed on the overlay ends on it too. -/
theorem targetsOverlay_of_pressed (h : event.contact.Pressed K)
    (hlifts : event.lifts) : metaAnnotationEventTargetsOverlay event := by
  obtain ⟨press, hactivates, htargets, hcontact⟩ := h
  exact ClutterEvent.targetsOverlay_lifts hactivates htargets hlifts hcontact.symm

/-- A call does not start a chrome press. -/
theorem chromePressId_call {c : Call K}
    (h : (layer.opStep (.call c)).chromePressId = some id) : layer.chromePressId = some id := by
  have hdock : (layer.opStep (.call c)).chromePressId = (layer.dock.call c).pressed :=
    congrArg Dock.pressed (dock_opStep_call c)
  rw [hdock] at h
  cases c with
  | clearChromeRegions => cases h
  | _ => exact h

/-- Routing an event starts a chrome press only by landing in a region. -/
theorem chromePressId_route (hlands : layer.lands event = none)
    (h : (layer.opStep (.route event nowUs)).chromePressId = some id) :
    layer.chromePressId = some id := by
  cases layer.routing event nowUs with
  | ignored _ hrouted => rwa [opStep_route hrouted] at h
  | landed id' hid => simp [hid] at hlands
  | ended _ _ _ _ _ hrouted =>
    rw [opStep_route hrouted] at h
    cases h
  | swallowed _ _ _ _ _ hrouted => rwa [opStep_route hrouted] at h
  | handled _ _ _ hrouted =>
    rw [opStep_route hrouted] at h
    exact (congrArg Dock.pressed (dock_handleEvent event nowUs)).symm.trans h

theorem active_route : (layer.opStep (.route event nowUs)).active = layer.active := by
  cases layer.routing event nowUs with
  | ignored _ hrouted => rw [opStep_route hrouted]; rfl
  | landed _ _ hrouted => rw [opStep_route hrouted]; rfl
  | ended _ _ _ _ _ hrouted => rw [opStep_route hrouted]; rfl
  | swallowed _ _ _ _ _ hrouted => rw [opStep_route hrouted]; rfl
  | handled _ _ _ hrouted =>
    rw [opStep_route hrouted]
    exact congrArg Dock.active (dock_handleEvent event nowUs)

/-- The end of the contact that pressed a region ends the chrome press. -/
theorem not_lifts_of_pressed (hactive : layer.active) (hpressed : contact.Pressed K)
    (hstill : (layer.opStep (.route event nowUs)).chromePressId.isSome)
    (hlands : layer.lands event = none) : ¬ (Op.route event nowUs).Lifts contact := by
  rintro ⟨hlifts, rfl⟩
  have hroutes : layer.routes event := by
    simp [routes, hactive, targetsOverlay_of_pressed hpressed hlifts]
  cases layer.routing event nowUs with
  | ignored hnot => simp [hroutes] at hnot
  | landed id hid => simp [hid] at hlands
  | ended _ _ _ _ _ hrouted =>
    rw [opStep_route hrouted] at hstill
    exact absurd hstill (by simp [clearChromePress, tick])
  | swallowed _ _ _ _ hterminates =>
    simp [ClutterEvent.terminates_of_lifts hlifts] at hterminates
  | handled _ _ hnone hrouted =>
    rw [opStep_route hrouted] at hstill
    have hsame : (layer.handleEvent event nowUs).1.chromePressId = layer.chromePressId :=
      congrArg Dock.pressed (dock_handleEvent event nowUs)
    simp [tick, hsame, hnone] at hstill

/-- An active layer with one chrome region in the corner of a stage of 10 by 10. -/
def docked : MetaAnnotationLayer ℚ :=
  Runs.run opStep (metaAnnotationLayerNew .bare .initial 10 10)
    [.call (.setActive true), .call (.setChromeRegions [("dock", ⟨0, 0, 2, 2⟩)])]

end MetaAnnotationLayer

end Annotations
