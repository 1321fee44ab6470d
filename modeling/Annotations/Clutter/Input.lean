import Annotations.Clutter.Event

/-! Which events belong to the annotation overlay (`meta-annotation-input.c`), and
the process-wide isolation record that the layer's activation writes. -/

namespace Annotations

variable {K : Type} [Scalar K]

/-- The file-level state of `meta-annotation-input.c`: the isolation flag and the
last tablet sample. -/
structure AnnotationInput (K : Type) where
  nonMouseIsolated : Bool
  tabletXyValid : Bool
  lastTabletX : K
  lastTabletY : K
  tabletMonotonicUs : ℤ

/-- `meta_annotation_input_set_non_mouse_pointer_isolated`. -/
def AnnotationInput.setNonMousePointerIsolated (input : AnnotationInput K) (isolated : Bool) :
    AnnotationInput K :=
  if isolated then { input with nonMouseIsolated := true }
  else { input with nonMouseIsolated := false, tabletXyValid := false }

def toolIsDrawingStylus : Option ClutterInputDeviceToolType → Bool
  | some .pen | some .eraser | some .brush | some .pencil | some .airbrush => true
  | _ => false

/-- `g_utf8_strdown`. The needles it serves are lower-case ASCII, so the lower
case of ASCII letters is all that matters. -/
def gUtf8Strdown (s : String) : String := s.map Char.toLower

/-- `strstr (hay, needle) != NULL`. -/
def strstr (hay needle : String) : Bool := needle.toList <:+: hay.toList

/-- `meta_annotation_input_touchpad_is_pen_digitizer_shim`. -/
def touchpadIsPenDigitizerShim (device : ClutterInputDevice)
    (tool : Option ClutterInputDeviceToolType) : Bool :=
  if device.deviceType ≠ .touchpad then false
  else if device.capabilityTabletTool then true
  else if toolIsDrawingStylus tool then true
  else match device.name with
    | none => false
    | some name =>
      let l := gUtf8Strdown name
      name ≠ "" &&
        (strstr l "stylus" || strstr l "digitizer" || strstr l "wacom" || strstr l "ntrig" ||
          strstr l "surface pen" || strstr l "ms pen")

def deviceNameHintsStylus (device : ClutterInputDevice) : Bool :=
  match device.name with
  | none => false
  | some name =>
    let l := gUtf8Strdown name
    name ≠ "" &&
      (strstr l "stylus" || strstr l "digitizer" || strstr l "wacom" || strstr l "elan" ||
        strstr l "ntrig" || strstr l "tablet" || strstr l "surface pen" || strstr l "ms pen" ||
        "pen ".toList.isPrefixOf l.toList || " pen".toList.isSuffixOf l.toList || strstr l " pen ")

/-- `axes != NULL` and the pressure axis is there and positive. -/
def axesPressurePositive : Option (List K) → Bool
  | none => false
  | some axes => match axes[clutterInputAxisPressure]? with
    | none => false
    | some pressure => 0 < pressure

/-- `pointer_device_matches_annotation_pointer`. The seat passes `motionAxes` and no
event; routing passes the event and no axes. -/
def pointerDeviceMatchesAnnotationPointer (device : ClutterInputDevice)
    (tool : Option ClutterInputDeviceToolType) (event : Option (ClutterEvent K))
    (motionAxes : Option (List K)) : Bool :=
  if device.capabilityTabletTool then true
  else if toolIsDrawingStylus tool then true
  -- names and sizes are not trusted on clickpads
  else if !device.capabilityTouchpad &&
      (device.dimensions.any (fun d => 0 < d.1 && 0 < d.2) || deviceNameHintsStylus device) then true
  else if device.capabilityTouchpad then false
  else match event with
    | some e => if e.type = .motion then axesPressurePositive e.getAxes
        else axesPressurePositive motionAxes
    | none => axesPressurePositive motionAxes

/-- `meta_annotation_event_targets_overlay`. -/
def metaAnnotationEventTargetsOverlay (event : ClutterEvent K) : Bool :=
  match event.type with
  | .touchBegin | .touchUpdate | .touchEnd | .touchCancel => true
  | .motion | .buttonPress | .buttonRelease | .scroll =>
    match event.sourceDevice with
    | none => false
    | some device => match device.deviceType with
      | .touchscreen | .tablet | .pen | .eraser | .cursor => true
      | .pointer =>
        if event.type = .scroll then false
        else pointerDeviceMatchesAnnotationPointer device event.getDeviceTool (some event) none
      | .touchpad => touchpadIsPenDigitizerShim device event.getDeviceTool
      | .keyboard | .pad | .extension | .joystick => false
  | _ => false

/-- `meta_annotation_input_event_should_skip_wayland_seat_sync`. -/
def AnnotationInput.eventShouldSkipWaylandSeatSync (input : AnnotationInput K) (event : ClutterEvent K) : Bool :=
  if !input.nonMouseIsolated then false else metaAnnotationEventTargetsOverlay event

/-- Button events are classified by device and tool alone. -/
theorem targetsOverlay_button_congr {e e' : ClutterEvent K}
    (he : e.type = .buttonPress ∨ e.type = .buttonRelease)
    (he' : e'.type = .buttonPress ∨ e'.type = .buttonRelease)
    (hdevice : e.sourceDevice = e'.sourceDevice) (htool : e.tool = e'.tool) :
    metaAnnotationEventTargetsOverlay e = metaAnnotationEventTargetsOverlay e' := by
  rcases he with he | he <;> rcases he' with he' | he' <;>
    simp [metaAnnotationEventTargetsOverlay, pointerDeviceMatchesAnnotationPointer,
      ClutterEvent.getDeviceTool, axesPressurePositive, he, he', hdevice, htool]

end Annotations
