import Annotations.Clutter.Input

/-! How the seat moves the pointer (`meta-seat-impl.c`), and which motions the annotation
code keeps from it (`meta-annotation-input.c`). -/

namespace Annotations

variable {K : Type} [Scalar K]

def annotationRecentTabletForPointerUsec : ℤ := 1200 * 1000
def annotationUnknownLibinputGroup : ℤ := -1

namespace AnnotationInput

variable (input : AnnotationInput K)

/-- `meta_annotation_input_note_tablet_family_motion`. The device group is dropped. -/
def noteTabletFamilyMotion (_libinputDeviceGroup : ℤ) (x y : K) (nowUs : ℤ) : AnnotationInput K :=
  if !input.nonMouseIsolated then input
  else { input with tabletXyValid := true, lastTabletX := x, lastTabletY := y, tabletMonotonicUs := nowUs }

/-- `meta_annotation_input_note_from_pointer_if_stylus_class`. -/
def noteFromPointerIfStylusClass (device : ClutterInputDevice) (tool : Option ClutterInputDeviceToolType)
    (_axes : Option (List K)) (_libinputDeviceGroup : ℤ) (x y : K) (nowUs : ℤ) : AnnotationInput K :=
  if !input.nonMouseIsolated then input
  else if device.deviceType ≠ .pointer then input
  else if device.capabilityTabletTool then
    input.noteTabletFamilyMotion annotationUnknownLibinputGroup x y nowUs
  else if toolIsDrawingStylus tool then
    input.noteTabletFamilyMotion annotationUnknownLibinputGroup x y nowUs
  else input

/-- There is a tablet sample, and it is not too old. -/
def sampleRecent (nowUs : ℤ) : Bool :=
  let age := nowUs - input.tabletMonotonicUs
  input.tabletXyValid && 0 ≤ age && age < annotationRecentTabletForPointerUsec

/-- `meta_annotation_input_skip_master_pointer_update`. Neither the device group nor the
position is looked at. -/
def skipMasterPointerUpdate (device : ClutterInputDevice) (tool : Option ClutterInputDeviceToolType)
    (motionAxes : Option (List K)) (_libinputDeviceGroup : ℤ) (_pointerPosX _pointerPosY : K) (nowUs : ℤ) : Bool :=
  if !input.nonMouseIsolated then false
  else if touchpadIsPenDigitizerShim device tool then true
  -- a sibling mouse of the pen
  else if device.deviceType = .pointer && !device.capabilityTouchpad && input.sampleRecent nowUs then true
  else if device.deviceType ≠ .pointer then false
  else pointerDeviceMatchesAnnotationPointer device tool none motionAxes

/-- `meta_annotation_input_skip_pointer_motion_coalesced`. -/
def skipPointerMotionCoalesced (device : ClutterInputDevice) (tool : Option ClutterInputDeviceToolType)
    (motionAxes : Option (List K)) (libinputDeviceGroup : ℤ) (pointerPosX pointerPosY : K) (nowUs : ℤ) : Bool :=
  if input.skipMasterPointerUpdate device tool motionAxes libinputDeviceGroup pointerPosX pointerPosY nowUs then true
  else if !input.nonMouseIsolated then false
  else if touchpadIsPenDigitizerShim device tool then true
  else match device.deviceType with
    | .tablet | .pen | .eraser | .cursor => true
    | .pointer => if device.capabilityTouchpad then false else axesPressurePositive motionAxes
    | _ => false

end AnnotationInput

/-! ### The seat -/

/-- What the viewports, the barriers and the pointer constraint make of a motion at the time
it arrives. -/
structure SeatConstraints (K : Type) where
  /-- `meta_seat_impl_filter_relative_motion`, from the position and the motion. -/
  filterRelativeMotion : K × K → K × K → K × K
  /-- `constrain_coordinates`, from the previous and the new position. -/
  constrainCoordinates : K × K → K × K → K × K

/-- What a motion of a device comes with. `tool` is the last tool of the device. -/
structure DeviceMotion (K : Type) where
  device : ClutterInputDevice
  tool : Option ClutterInputDeviceToolType
  group : ℤ
  axes : Option (List K)
  constraints : SeatConstraints K
  nowUs : ℤ

/-- The positions that the seat keeps, and the `POINTER_POSITION_CHANGED_IN_IMPL` signals
that it has emitted. -/
structure MetaSeatImpl (K : Type) where
  annotationInput : AnnotationInput K
  pointerState : K × K
  stylusStates : ℕ → Option (K × K)
  pointerPositionChanged : List (K × K)

namespace MetaSeatImpl

variable (seat : MetaSeatImpl K)

/-- `meta_seat_impl_lookup_stylus_state`. -/
def lookupStylusState (device : ClutterInputDevice) : K × K := (seat.stylusStates device.id).getD (0, 0)

def updateStylusState (device : ClutterInputDevice) (coords : K × K) : MetaSeatImpl K :=
  { seat with stylusStates := Function.update seat.stylusStates device.id (some coords) }

def releaseStylusState (device : ClutterInputDevice) : MetaSeatImpl K :=
  { seat with stylusStates := Function.update seat.stylusStates device.id none }

def getOnscreenCoordsForSourceDevice (device : ClutterInputDevice) : K × K :=
  if device.deviceType = .tablet then seat.lookupStylusState device else seat.pointerState

def updateDeviceCoordsInImpl (device : ClutterInputDevice) (coords : K × K) (freezePointerState : Bool) :
    MetaSeatImpl K :=
  if device.deviceType = .tablet then seat.updateStylusState device coords
  else if !freezePointerState then { seat with pointerState := coords }
  else seat

def emitPointerPositionChanged (coords : K × K) : MetaSeatImpl K :=
  { seat with pointerPositionChanged := seat.pointerPositionChanged ++ [coords] }

/-- The samples that a motion to `coords` leaves. -/
def noteMotion (motion : DeviceMotion K) (coords : K × K) : AnnotationInput K :=
  let input := match motion.device.deviceType with
    | .tablet | .pen | .eraser | .cursor =>
      seat.annotationInput.noteTabletFamilyMotion motion.group coords.1 coords.2 motion.nowUs
    | .touchpad =>
      if touchpadIsPenDigitizerShim motion.device motion.tool then
        seat.annotationInput.noteTabletFamilyMotion motion.group coords.1 coords.2 motion.nowUs
      else seat.annotationInput
    | _ => seat.annotationInput
  input.noteFromPointerIfStylusClass motion.device motion.tool motion.axes motion.group coords.1 coords.2 motion.nowUs

/-- What `meta_seat_impl_notify_relative_motion_in_impl` and
`meta_seat_impl_notify_absolute_motion_in_impl` do once the new position is known. -/
def moveTo (motion : DeviceMotion K) (coords : K × K) : MetaSeatImpl K :=
  let input := seat.noteMotion motion coords
  let freezeCursor := input.skipPointerMotionCoalesced motion.device motion.tool motion.axes motion.group
    coords.1 coords.2 motion.nowUs
  let seat := { seat with annotationInput := input }.updateDeviceCoordsInImpl motion.device coords freezeCursor
  if !freezeCursor then seat.emitPointerPositionChanged coords else seat

/-- `meta_seat_impl_notify_relative_motion_in_impl`. -/
def notifyRelativeMotionInImpl (motion : DeviceMotion K) (dx dy : K) : MetaSeatImpl K :=
  let coords := seat.getOnscreenCoordsForSourceDevice motion.device
  let d := motion.constraints.filterRelativeMotion coords (dx, dy)
  seat.moveTo motion (motion.constraints.constrainCoordinates coords (coords.1 + d.1, coords.2 + d.2))

/-- `meta_seat_impl_notify_absolute_motion_in_impl`. -/
def notifyAbsoluteMotionInImpl (motion : DeviceMotion K) (x y : K) : MetaSeatImpl K :=
  let coords := seat.getOnscreenCoordsForSourceDevice motion.device
  seat.moveTo motion (motion.constraints.constrainCoordinates coords (x, y))

/-- The part of `meta_seat_impl_remove_device` that concerns positions. -/
def removeDevice (device : ClutterInputDevice) : MetaSeatImpl K :=
  if device.deviceType = .tablet then seat.releaseStylusState device else seat

end MetaSeatImpl

/-- The events of devices that the seat keeps positions or samples of. -/
inductive SeatOp (K : Type) where
  | relativeMotion (motion : DeviceMotion K) (dx dy : K)
  | absoluteMotion (motion : DeviceMotion K) (x y : K)
  | removeDevice (device : ClutterInputDevice)

def MetaSeatImpl.step (seat : MetaSeatImpl K) : SeatOp K → MetaSeatImpl K
  | .relativeMotion motion dx dy => seat.notifyRelativeMotionInImpl motion dx dy
  | .absoluteMotion motion x y => seat.notifyAbsoluteMotionInImpl motion x y
  | .removeDevice device => seat.removeDevice device

end Annotations
