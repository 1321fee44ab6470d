import Annotations.Layer.Step

/-! `meta_compositor_route_annotation_event`, and one step of the compositor: an event
that it routes, or a call. -/

namespace Annotations

variable {K : Type} [Scalar K]

/-- The `kind` of a `RegionActivated` signal: "press", "touch-begin", "release" or
"touch-end". -/
inductive RegionKind where
  | press | touchBegin | release | touchEnd
  deriving DecidableEq

/-- The signal that `meta_annotation_dbus_emit_region_activated` emits. -/
structure RegionActivated where
  id : String
  kind : RegionKind
  deriving DecidableEq

namespace ClutterEvent

variable (event : ClutterEvent K)

/-- The presses that are hit-tested against the chrome regions. -/
def activates : Bool :=
  event.type = .buttonPress && event.getButton = clutterButtonPrimary || event.type = .touchBegin

/-- The event types that end a chrome press. -/
def terminates : Bool :=
  event.type = .buttonRelease || event.type = .touchEnd || event.type = .touchCancel

end ClutterEvent

/-- What routing an event leads to: the layer, whether the event was consumed, and the
signal emitted, if any. -/
structure Routed (K : Type) where
  layer : MetaAnnotationLayer K
  consumed : Bool
  signal : Option RegionActivated

namespace MetaAnnotationLayer

variable (layer : MetaAnnotationLayer K)

/-- The signal of the event that ends the chrome press `pressed`. -/
def releaseSignal (event : ClutterEvent K) (pressed : String) : Option RegionActivated :=
  match layer.pickChromeRegion event.x event.y with
  | none => none
  | some id =>
    if id = pressed ∧ event.type ≠ .touchCancel then
      some ⟨id, if event.type = .buttonRelease then .release else .touchEnd⟩
    else none

/-- `meta_compositor_route_annotation_event`. -/
def routeAnnotationEvent (event : ClutterEvent K) (nowUs : ℤ) : Routed K :=
  if !layer.active then ⟨layer, false, none⟩
  else if !metaAnnotationEventTargetsOverlay event then ⟨layer, false, none⟩
  else match (if event.activates then layer.pickChromeRegion event.x event.y else none) with
    | some id =>
      ⟨layer.setChromePressActive (some id), true,
        some ⟨id, if event.type = .buttonPress then .press else .touchBegin⟩⟩
    | none =>
      match layer.chromePressId with
      | some pressed =>
        if event.terminates then
          ⟨layer.clearChromePress, true, layer.releaseSignal event pressed⟩
        else ⟨layer, true, none⟩
      | none =>
        let handled := layer.handleEvent event nowUs
        ⟨handled.1, handled.2, none⟩

end MetaAnnotationLayer

/-- One operation of the compositor on the layer. -/
inductive Op (K : Type) where
  | route (event : ClutterEvent K) (nowUs : ℤ)
  | call (c : Call K)

namespace MetaAnnotationLayer

variable (layer : MetaAnnotationLayer K)

def opStep (op : Op K) : MetaAnnotationLayer K :=
  match op with
  | .route event nowUs => (layer.routeAnnotationEvent event nowUs).layer.tick
  | .call c => (layer.execCall c).tick

/-- The signal an operation emits. -/
def opSignal (op : Op K) : Option RegionActivated :=
  match op with
  | .route event nowUs => (layer.routeAnnotationEvent event nowUs).signal
  | .call _ => none

end MetaAnnotationLayer

end Annotations
