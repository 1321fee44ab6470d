import Annotations.Extension.Desktop
import Annotations.Runs.Basic
import Annotations.Service.Dispatch
import Annotations.Service.RegionIds

/-! The extension and the compositor with what really goes over the bus between them: method calls
with packed arguments one way, signals with strings the other way. It does what the desktop does
whose calls and signals are those that were packed. -/

namespace Annotations.Service

open Glib Runs

variable {K : Type}

/-- What the bus library lets through to the handler of an object: calls that fit the interface the
object is registered with. -/
structure Gdbus (K : Type) where
  admits : Message K → Bool
  admits_iff : ∀ m, admits m = true ↔ m.Introspected

instance (m : Message K) : Decidable m.Introspected := by
  unfold Message.Introspected
  infer_instance

/-- The library that does just this. -/
def Gdbus.strict : Gdbus K := ⟨fun m => decide m.Introspected, fun _ => decide_eq_true_iff⟩

/-! ### Signals -/

def kindText : RegionKind → String
  | .press => "press"
  | .touchBegin => "touch-begin"
  | .release => "release"
  | .touchEnd => "touch-end"

/-- The parameters that `meta_annotation_dbus_emit_region_activated` packs. -/
def packSignal (signal : RegionActivated) : Variant K :=
  ⟨.tuple [.string, .string], (signal.id, kindText signal.kind, ())⟩

/-- `params.deep_unpack()`, where there are two strings. -/
def unpackSignal (params : Variant K) : Option (String × String × Unit) := params.get (.tuple [.string, .string])

variable [Scalar K]

/-- The handler of `RegionActivated`. -/
def onSignal (ext : AnnotationExtension K) (params : Variant K) : AnnotationExtension K :=
  if !ext.regionActivatedId || ext.dock.isNone then ext
  else match unpackSignal params with
    | none => ext
    | some (id, kind, ()) => if kind ≠ "release" ∧ kind ≠ "touch-end" then ext else ext.activateRegionText id

/-! ### The wire -/

/-- The processes, and the signals that the compositor has emitted, of which the extension has
received some. -/
structure Wire (K : Type) where
  desktop : Desktop K
  signals : List RegionActivated
  received : ℕ

inductive WireOp (K : Type) where
  | extension (event : ExtensionEvent K)
  | reply (i : ℕ) (ok : Bool)
  | acquire
  | deliver
  | signal
  | layer (op : Op K)

/-- A message arrives at the compositor. -/
def serve (gdbus : Gdbus K) (layer : MetaAnnotationLayer K) (m : Message K) : MetaAnnotationLayer K :=
  if gdbus.admits m then
    match handleMethodCall layer m.interface m.member m.parameters with
    | none => layer
    | some (layer, _) => layer.tick
  else layer

namespace Wire

variable (gdbus : Gdbus K) (w : Wire K)

def new (scene : Scene K) (display : MetaDisplay) (input : AnnotationInput K) (width height : ℤ) : Wire K :=
  ⟨.new scene display input width height, [], 0⟩

/-- The next message arrives. -/
def deliver : Wire K :=
  let d := w.desktop
  match d.calls[d.reader.delivered]? with
  | none => w
  | some call =>
    let layer := match message call.method with
      | none => d.layer
      | some m => if d.reader.ready then serve gdbus d.layer m else d.layer
    { w with desktop := { d with reader := d.reader.deliver, layer := layer } }

/-- The next signal arrives. -/
def signal : Wire K :=
  match w.signals[w.received]? with
  | none => w
  | some signal =>
    { w with
      desktop := { w.desktop with extension := onSignal w.desktop.extension (packSignal signal) }
      received := w.received + 1 }

end Wire

/-- Signals arrive as such, and are emitted once there is a connection. -/
def Wire.step [FloorRing K] (gdbus : Gdbus K) (w : Wire K) : WireOp K → Wire K
  | .extension (.regionActivated _ _) => w
  | .extension event => { w with desktop := w.desktop.step (.extension event) }
  | .reply i ok => { w with desktop := w.desktop.step (.reply i ok) }
  | .acquire => { w with desktop := w.desktop.step .acquire }
  | .deliver => w.deliver gdbus
  | .signal => w.signal
  | .layer op =>
    { w with
      desktop := w.desktop.step (.layer op)
      signals := w.signals ++
        if op.remote || !w.desktop.reader.ready then [] else (w.desktop.layer.opSignal op).toList }

/-! ### What the desktop does -/

/-- The desktop gets a signal. -/
def activated : DesktopOp K → Option (RegionId × RegionKind)
  | .extension (.regionActivated id kind) => some (id, kind)
  | _ => none

/-- The signals that the desktop emits. -/
def seeSignals (signals : List RegionActivated) (d : Desktop K) : DesktopOp K → List RegionActivated
  | .layer op => signals ++ if op.remote || !d.reader.ready then [] else (d.layer.opSignal op).toList
  | _ => signals

/-- The region and kind that a signal is about. -/
def meaning (signal : RegionActivated) : RegionId × RegionKind := (.ofText signal.id, signal.kind)

theorem onSignal_packSignal (ext : AnnotationExtension K) (signal : RegionActivated) :
    onSignal ext (packSignal signal) = ext.onRegionActivated (.ofText signal.id) signal.kind := by
  unfold onSignal AnnotationExtension.onRegionActivated
  have hunpack : unpackSignal (packSignal (K := K) signal) = some (signal.id, kindText signal.kind, ()) := Variant.get_mk
  rw [hunpack]
  dsimp only
  rw [AnnotationExtension.activateRegionText_eq]
  have hkind : (kindText signal.kind ≠ "release" ∧ kindText signal.kind ≠ "touch-end") ↔
      (signal.kind ≠ .release ∧ signal.kind ≠ .touchEnd) := by
    cases signal.kind <;> decide
  simp only [hkind]

theorem serve_message {gdbus : Gdbus K} {layer : MetaAnnotationLayer K} {c : Call K} {m : Message K} (hfits : Fits c)
    (hm : message c = some m) : serve gdbus layer m = layer.opStep (.call c) := by
  unfold serve
  rw [if_pos ((gdbus.admits_iff m).mpr (introspected_of_message hm)), handleMethodCall_of_message hfits hm]
  rfl

end Annotations.Service
