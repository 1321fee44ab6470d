import Annotations.Layer.Taps

/-! `meta_annotation_layer_handle_event`. The second component of a result is the
boolean the source returns: whether the event was consumed. -/

namespace Annotations

variable {K : Type} [Scalar K]

namespace ClutterEvent

variable (event : ClutterEvent K)

/-- `event_is_eraser_tool`. -/
def isEraserTool : Bool := event.getDeviceTool = some .eraser

/-- `event_get_pressure`. -/
def getPressure : Option K :=
  match event.getDeviceTool with
  | none => none
  | some _ => event.getAxes.bind fun axes => axes[clutterInputAxisPressure]?

/-- `event_get_tilt_factor`. -/
def getTiltFactor : Option K :=
  match event.getDeviceTool with
  | none => none
  | some _ => event.getAxes.bind fun axes =>
    match axes[clutterInputAxisXtilt]?, axes[clutterInputAxisYtilt]? with
    | some xt, some yt =>
      let mag := Scalar.sqrtf (xt * xt + yt * yt) / annotTiltDegFull
      let mag := if mag < 0 then 0 else mag
      let mag := if 1 < mag then 1 else mag
      some (1 + annotTiltWidthBoost * mag)
    | _, _ => none

/-- `pressure_tip` of the motion branch. -/
def pressureTip : Bool := event.getPressure.any fun p => 0 < p

/-- The pen is down: `btn || pressure_tip`. -/
def penDown : Bool := event.button1Mask || event.pressureTip

end ClutterEvent

namespace MetaAnnotationLayer

variable (layer : MetaAnnotationLayer K)

/-- `erase_is_active`. -/
def eraseIsActive (event : ClutterEvent K) : Bool :=
  layer.penBarrelButtons ≠ 0 || event.isEraserTool

def setBarrelButton (btn : ℕ) (pressed : Bool) : MetaAnnotationLayer K :=
  { layer with
    penBarrelButtons := if pressed then layer.penBarrelButtons ||| 1#32 <<< btn
      else layer.penBarrelButtons &&& ~~~(1#32 <<< btn) }

/-- `handle_tool_modifier_press`; `none` where the source returns FALSE. -/
def handleToolModifierPress (event : ClutterEvent K) (pressed : Bool) :
    Option (MetaAnnotationLayer K) :=
  if event.getDeviceTool.isNone then none
  else if event.getButton = clutterButtonPrimary ∨ event.getButton = 0 then none
  else if 32 ≤ event.getButton then some layer
  else some (layer.setBarrelButton event.getButton pressed)

/-- `begin_stroke` and `note_tap_press`, the end of both press branches. -/
def pressAt (event : ClutterEvent K) (nowUs : ℤ) : MetaAnnotationLayer K :=
  let layer := layer.beginStroke event.x event.y event.getPressure event.getTiltFactor
    (layer.eraseIsActive event)
  layer.noteTapPress event.x event.y layer.strokeAnchor nowUs

/-- `continue_stroke` with the data of the event. -/
def continueAt (event : ClutterEvent K) : MetaAnnotationLayer K :=
  layer.continueStroke event.x event.y event.getPressure event.getTiltFactor
    (layer.eraseIsActive event)

/-- Drifting past the tap radius invalidates the pending tap. -/
def cancelTapBeyondRadius (event : ClutterEvent K) : MetaAnnotationLayer K :=
  if layer.pendingTap && layer.beyondTapRadius event.x event.y then layer.cancelTapPending else layer

/-- `continue_stroke`, `note_tap_release` and `end_stroke`, the end of both release
branches. -/
def releaseAt (event : ClutterEvent K) (nowUs : ℤ) : MetaAnnotationLayer K :=
  let layer := if layer.strokeActive then layer.continueAt event else layer
  (layer.noteTapRelease event.x event.y nowUs).endStroke

/-- `CLUTTER_BUTTON_PRESS`. -/
def handleButtonPress (event : ClutterEvent K) (nowUs : ℤ) : MetaAnnotationLayer K :=
  if event.getButton ≠ clutterButtonPrimary ∧ event.getDeviceTool.isNone then layer
  else match layer.handleToolModifierPress event true with
    | some layer => layer
    | none => layer.pressAt event nowUs

/-- `CLUTTER_MOTION`. -/
def handleMotion (event : ClutterEvent K) : MetaAnnotationLayer K :=
  if !layer.strokeActive then
    if event.penDown then
      (layer.beginStroke event.x event.y event.getPressure event.getTiltFactor
        (layer.eraseIsActive event)).cancelTapPending
    else layer
  else
    let layer := (layer.continueAt event).cancelTapBeyondRadius event
    if event.penDown then layer else layer.endStroke

/-- `CLUTTER_BUTTON_RELEASE`. -/
def handleButtonRelease (event : ClutterEvent K) (nowUs : ℤ) : MetaAnnotationLayer K :=
  match layer.handleToolModifierPress event false with
  | some layer => layer
  | none => layer.releaseAt event nowUs

/-- `CLUTTER_TOUCH_UPDATE`. -/
def handleTouchUpdate (event : ClutterEvent K) : MetaAnnotationLayer K :=
  if layer.strokeActive then (layer.continueAt event).cancelTapBeyondRadius event else layer

/-- `CLUTTER_TOUCH_CANCEL`. -/
def handleTouchCancel : MetaAnnotationLayer K := layer.cancelTapPending.endStroke

/-- The layer takes events: it is active, not paused and has a surface. -/
def takesEvents : Bool := layer.active && !layer.paused && layer.surface.isSome

/-- `meta_annotation_layer_handle_event`, at the monotonic time `nowUs`. -/
def handleEvent (event : ClutterEvent K) (nowUs : ℤ) : MetaAnnotationLayer K × Bool :=
  if !layer.takesEvents then (layer, false)
  else match event.type with
    | .buttonPress => (layer.handleButtonPress event nowUs, true)
    | .motion => (layer.handleMotion event, true)
    | .buttonRelease => (layer.handleButtonRelease event nowUs, true)
    | .touchBegin => (layer.pressAt event nowUs, true)
    | .touchUpdate => (layer.handleTouchUpdate event, true)
    | .touchEnd => (layer.releaseAt event nowUs, true)
    | .touchCancel => (layer.handleTouchCancel, true)
    | _ => (layer, false)

end MetaAnnotationLayer

end Annotations
