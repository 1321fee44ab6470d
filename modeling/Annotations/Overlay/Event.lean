import Annotations.Clutter.Event

/-! Clutter events as the extension's overlay reads them (`devices.js`), over exact
coordinates. `none` stands for an accessor that is missing, throws or returns nothing. -/

namespace Annotations.Overlay

variable {K : Type} [Scalar K]

/-- What a handler returns: `Clutter.EVENT_PROPAGATE` or `Clutter.EVENT_STOP`. -/
inductive EventReturn where
  | propagate | stop
  deriving DecidableEq

/-- An event. `id` tells the wrappers apart; `sourceDevice` is the type of the device that
`inputDeviceFromEvent` finds, and `coords` is empty also when a coordinate is not a number. -/
structure Event (K : Type) where
  id : ℕ
  eventType : Option ClutterEventType
  coords : Option (K × K)
  deviceType : Option ClutterInputDeviceType
  sourceDevice : Option ClutterInputDeviceType
  deviceTool : Option ClutterInputDeviceToolType
  pressure : Option K
  button : ℕ

/-- `IMPLICIT_PRESSURE_START`. -/
def implicitPressureStart : K := 0.015

/-- `PEN_INK_DRAG_UNLOCK2`. -/
def penInkDragUnlock2 : K := 8 * 8

/-- `TABLET_DOCK_COORD_SLACK2`. -/
def tabletDockCoordSlack2 : K := 80 * 80

/-- The event type as a number. -/
def eventTypeNumber (t : ClutterEventType) : ℕ := t.ctorIdx

/-- A bare 16 counts as a press of the tip. -/
def isDiscretePressEventType (t : ClutterEventType) : Bool :=
  t = .buttonPress || t = .touchBegin || eventTypeNumber t = 16

/-- In Clutter's enumeration the number 16 is `CLUTTER_PROXIMITY_IN`. -/
theorem isDiscretePressEventType_iff (t : ClutterEventType) :
    isDiscretePressEventType t = true ↔ t = .buttonPress ∨ t = .touchBegin ∨ t = .proximityIn := by
  cases t <;> decide

inductive StylusMode where
  | draw | erase | none
  deriving DecidableEq

/-- Of the names the code tries, Clutter has `TABLET_DEVICE`, `PEN_DEVICE` and `ERASER_DEVICE`. -/
def clutterDeviceTypeIsPenHardware : Option ClutterInputDeviceType → Bool
  | some .tablet | some .pen | some .eraser => true
  | _ => false

namespace Event

variable (event : Event K)

/-- `eventHasStylusDeviceTool`: the puck of a tablet is a mouse. -/
def eventHasStylusDeviceTool : Bool :=
  match event.deviceTool with
  | none | some .none | some .mouse => false
  | some _ => true

def eventHasPressure : Bool := event.pressure.isSome

def getPressure01 : K :=
  match event.pressure with
  | none => 1
  | some v => if v < 0 then 0 else if 1 < v then 1 else v

/-- `eventIsPenDrawDevice`, which is `eventIsStylusLike`. -/
def eventIsPenDrawDevice : Bool :=
  event.eventHasStylusDeviceTool || clutterDeviceTypeIsPenHardware event.deviceType ||
    clutterDeviceTypeIsPenHardware event.sourceDevice ||
    (event.sourceDevice = some .pointer && event.eventHasPressure)

/-- The enumeration has no `SCROLL_STOP`. -/
def isLikelyKeyOrScrollEvent : Bool :=
  match event.eventType with
  | some .keyPress | some .keyRelease | some .scroll | some .touchpadPinch | some .touchpadSwipe => true
  | _ => false

/-- The secondary and the middle button erase. -/
def stylusModeOnPress : StylusMode :=
  if !event.eventIsPenDrawDevice then .none
  else if event.button = 3 || event.button = 2 then .erase
  else .draw

/-- `motionish`: the type is `MOTION` or `TOUCH_UPDATE`. -/
def motionish : Bool := event.eventType = some .motion || event.eventType = some .touchUpdate

/-- `releaseLike`, without `PROXIMITY_OUT`. -/
def releaseLike : Bool :=
  event.eventType = some .buttonRelease || event.eventType = some .touchEnd ||
    event.eventType = some .touchCancel

def isDiscretePress : Bool := event.eventType.any isDiscretePressEventType

section Types

variable {event} {t : ClutterEventType} (htype : event.eventType = some t)
include htype

omit [Scalar K] in
theorem motionish_iff : event.motionish = true ↔ t = .motion ∨ t = .touchUpdate := by
  simp [motionish, htype]

omit [Scalar K] in
theorem releaseLike_iff : event.releaseLike = true ↔ t = .buttonRelease ∨ t = .touchEnd ∨ t = .touchCancel := by
  simp [releaseLike, htype, or_assoc]

omit [Scalar K] in
theorem isDiscretePress_iff : event.isDiscretePress = true ↔ t = .buttonPress ∨ t = .touchBegin ∨ t = .proximityIn := by
  rw [← isDiscretePressEventType_iff, isDiscretePress, htype]
  rfl

end Types

omit [Scalar K] in
theorem stylusModeOnPress_eq_none : event.stylusModeOnPress = .none ↔ event.eventIsPenDrawDevice = false := by
  unfold stylusModeOnPress
  cases event.eventIsPenDrawDevice with
  | false => simp
  | true => simp; split <;> simp

end Event

end Annotations.Overlay
