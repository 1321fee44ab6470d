import Annotations.Overlay.Capture
import Annotations.Runs.Ledger

/-! The extension with the drawing layer of the shell, from `enable` to `disable`: the service
for movement, the overlay with its dock, and the shell that they are connected to. The ids of
sources and handlers are in one ledger, each in the field of the object that keeps it. What the
callbacks draw or log is left out, and a failing call of the shell is too. -/

namespace Annotations.Lifecycle

open Overlay Runs

/-- The settings that `_restartTimer` reads. -/
inductive MovementKey where
  | movementSync | movementConsentRoi | movementMaxHz
  deriving DecidableEq

inductive CaptureTarget where
  | stage | uiGroup
  deriving DecidableEq

/-- What the main loop and the signals of the shell may run. -/
inductive Callback where
  | keybindingIdle
  | dockShrink
  | dockDragSafety
  | dockDragCaptured
  | penCapture (target : CaptureTarget)
  | monitorsChanged
  | settingChanged (key : MovementKey)
  | motionTimer (ms : ℤ)

/-- The fields that hold ids. `_penCapConnections` has an id for each actor. -/
inductive Field where
  | kbIdle
  | dockShrinkSrc
  | dockDragSafetySrc
  | dockDragSeq
  | penCap (target : CaptureTarget)
  | monitorsSig
  | settingId (key : MovementKey)
  | timer
  deriving DecidableEq

def Callback.field : Callback → Field
  | .keybindingIdle => .kbIdle
  | .dockShrink => .dockShrinkSrc
  | .dockDragSafety => .dockDragSafetySrc
  | .dockDragCaptured => .dockDragSeq
  | .penCapture target => .penCap target
  | .monitorsChanged => .monitorsSig
  | .settingChanged key => .settingId key
  | .motionTimer _ => .timer

/-- The settings of the extension. The schema may lack `dock-x` and `dock-y`. -/
structure ExtensionSettings where
  movementSync : Bool
  movementConsentRoi : Bool
  movementMaxHz : ℤ
  dock : Option (ℤ × ℤ)

/-- A change of one of the settings for movement. -/
inductive MovementChange where
  | movementSync (value : Bool)
  | movementConsentRoi (value : Bool)
  | movementMaxHz (value : ℤ)

def MovementChange.key : MovementChange → MovementKey
  | .movementSync _ => .movementSync
  | .movementConsentRoi _ => .movementConsentRoi
  | .movementMaxHz _ => .movementMaxHz

def MovementChange.apply (settings : ExtensionSettings) : MovementChange → ExtensionSettings
  | .movementSync value => { settings with movementSync := value }
  | .movementConsentRoi value => { settings with movementConsentRoi := value }
  | .movementMaxHz value => { settings with movementMaxHz := value }

/-- An `OverlaySession` with its dock. Positions of the core pointer are integers, so a move of
the dock needs no rounding. -/
structure DockedSession (K : Type) where
  session : OverlaySession K
  dockPos : ℤ × ℤ
  dockShrunk : Bool
  dockDragLast : Option (ℤ × ℤ)

/-- `AnnotationsExtension`, and what it has put into the shell. `passthrough` is the key
`annotation-pointer-passthrough` of a shell that has it. -/
structure AnnotationsExtension (K : Type) where
  enabled : Bool
  books : IdLedger Callback Field
  settings : ExtensionSettings
  keybinding : Bool
  indicator : Bool
  chrome : Bool
  passthrough : Option Bool
  shellForkSettings : Bool
  overlay : Option (DockedSession K)

/-- What a callback is run with. -/
inductive Stimulus (K : Type) where
  | nothing
  | buttonRelease
  | motion (pointer : ℤ × ℤ)
  | captured (env : Desktop K) (event : Event K)

/-- What can happen. A step of the canvas is a signal of the canvas or of a button of the dock. -/
inductive Input (K : Type) where
  | enable
  | disable
  | toggleDrawingOverlay
  | dockEntered
  | dragHandlePressed (primary : Bool) (pointer : ℤ × ℤ)
  | canvas (i : OverlaySession.Step K)
  | set (change : MovementChange)
  | callback (id : ℕ) (stimulus : Stimulus K)

namespace AnnotationsExtension

variable {K : Type} (s : AnnotationsExtension K)

def connect (n : Field) (k : Callback) : AnnotationsExtension K := { s with books := s.books.connect n k }

def release (n : Field) : AnnotationsExtension K := { s with books := s.books.release n }

def modifyOverlay (f : DockedSession K → DockedSession K) : AnnotationsExtension K :=
  { s with overlay := s.overlay.map f }

/-- The overlay is shown. -/
def visible : Bool := s.overlay.any (·.session.visible)

/-! ### The service for movement -/

/-- The interval of the timer: at most `movement-max-hz` times a second, and not below 250 ms. -/
def timerMs (settings : ExtensionSettings) : ℤ := max 250 (1000 / max 1 settings.movementMaxHz)

/-- `_stopTimer`. -/
def stopTimer : AnnotationsExtension K := s.release .timer

/-- `_restartTimer`. -/
def restartTimer : AnnotationsExtension K :=
  let s := s.stopTimer
  if !s.settings.movementSync then s
  else if !s.settings.movementConsentRoi then s
  else s.connect .timer (.motionTimer (timerMs s.settings))

/-- The constructor and `enable` of `MotionSyncService`. -/
def enableMotion : AnnotationsExtension K :=
  let s := { s with books := (((s.books.reset .timer).reset (.settingId .movementSync)).reset
    (.settingId .movementConsentRoi)).reset (.settingId .movementMaxHz) }
  let s := s.connect (.settingId .movementSync) (.settingChanged .movementSync)
  let s := s.connect (.settingId .movementConsentRoi) (.settingChanged .movementConsentRoi)
  let s := s.connect (.settingId .movementMaxHz) (.settingChanged .movementMaxHz)
  s.restartTimer

/-- `disable` of `MotionSyncService`. -/
def disableMotion : AnnotationsExtension K :=
  let s := s.release (.settingId .movementSync)
  let s := s.release (.settingId .movementConsentRoi)
  let s := s.release (.settingId .movementMaxHz)
  s.stopTimer

/-- The setting changes, and its handlers run. -/
def changeSetting (change : MovementChange) : AnnotationsExtension K :=
  let s := { s with settings := change.apply s.settings }
  (s.books.live.filter fun e => e.2 matches .settingChanged _ ∧ e.2.field = .settingId change.key).foldl
    (fun s _ => s.restartTimer) s

/-! ### The dock -/

/-- `_bumpDockActivity`. -/
def bumpDockActivity : AnnotationsExtension K := (s.release .dockShrinkSrc).connect .dockShrinkSrc .dockShrink

/-- `_dockExpandIfShrunk`. -/
def dockExpandIfShrunk : AnnotationsExtension K := s.modifyOverlay fun o => { o with dockShrunk := false }

/-- The pointer enters the dock, or something in it. -/
def onDockEntered : AnnotationsExtension K := s.dockExpandIfShrunk.bumpDockActivity

/-- The end of a drag of the dock. -/
def endDrag : AnnotationsExtension K :=
  ((s.release .dockDragSafetySrc).release .dockDragSeq).modifyOverlay fun o => { o with dockDragLast := none }

/-- `_saveDockPos`. -/
def saveDockPos : AnnotationsExtension K :=
  match s.overlay with
  | none => s
  | some o => { s with settings := { s.settings with dock := s.settings.dock.map fun _ => o.dockPos } }

/-- `_onDockDragHandlePress`. -/
def onDockDragHandlePress (primary : Bool) (pointer : ℤ × ℤ) : AnnotationsExtension K :=
  if !primary then s
  else
    let s := s.dockExpandIfShrunk.bumpDockActivity
    let s := s.modifyOverlay fun o => { o with dockDragLast := some pointer }
    let s := (s.release .dockDragSeq).release .dockDragSafetySrc
    (s.connect .dockDragSeq .dockDragCaptured).connect .dockDragSafetySrc .dockDragSafety

end AnnotationsExtension

/-- The dock follows the pointer. -/
def DockedSession.dragTo {K : Type} (o : DockedSession K) (pointer : ℤ × ℤ) : DockedSession K :=
  match o.dockDragLast with
  | none => o
  | some last =>
    { o with
      dockDragLast := some pointer
      dockPos := (o.dockPos.1 + (pointer.1 - last.1), o.dockPos.2 + (pointer.2 - last.2)) }

namespace AnnotationsExtension

variable {K : Type} [Scalar K] [FloorRing K] (s : AnnotationsExtension K)

omit [Scalar K] [FloorRing K] in
/-- `_onDockDragCaptured`. -/
def onDockDragCaptured : Stimulus K → AnnotationsExtension K
  | .buttonRelease => s.endDrag.saveDockPos
  | .motion pointer => s.modifyOverlay fun o => o.dragTo pointer
  | _ => s

/-! ### The overlay -/

omit [Scalar K] [FloorRing K] in
/-- `_syncPenStageCapture`. -/
def syncPenStageCapture : AnnotationsExtension K :=
  let s := (s.release (.penCap .stage)).release (.penCap .uiGroup)
  if !s.visible then s
  else (s.connect (.penCap .stage) (.penCapture .stage)).connect (.penCap .uiGroup) (.penCapture .uiGroup)

omit [Scalar K] [FloorRing K] in
/-- `syncShellPointerPassthrough`. -/
def syncShellPointerPassthrough (visible : Bool) : AnnotationsExtension K :=
  if !s.shellForkSettings then s else { s with passthrough := s.passthrough.map fun _ => visible }

/-- `toggle` of the overlay. -/
def toggle : AnnotationsExtension K :=
  let s := s.modifyOverlay fun o => { o with session := o.session.toggle }
  let s := if s.visible then s.bumpDockActivity else s
  let s := s.syncPenStageCapture
  s.syncShellPointerPassthrough s.visible

/-- `toggleDrawingOverlay`. -/
def toggleDrawingOverlay : AnnotationsExtension K := if s.overlay.isSome then s.toggle else s

/-- The constructor of `OverlaySession`. -/
def newOverlay : AnnotationsExtension K :=
  let s := { s with books := (((((s.books.reset .dockShrinkSrc).reset .dockDragSafetySrc).reset .dockDragSeq).reset
    (.penCap .stage)).reset (.penCap .uiGroup)).reset .monitorsSig }
  let s := { s with
    chrome := true
    overlay := some ⟨.new, s.settings.dock.getD (14, 14), false, none⟩ }
  (s.connect .monitorsSig .monitorsChanged).syncPenStageCapture

omit [Scalar K] [FloorRing K] in
/-- `destroy` of the overlay. -/
def destroyOverlay : AnnotationsExtension K :=
  let s := ((s.release .dockShrinkSrc).release .dockDragSafetySrc).release .dockDragSeq
  let s := ((s.release (.penCap .stage)).release (.penCap .uiGroup)).release .monitorsSig
  { s with
    chrome := false
    overlay := none }

/-- A step of the canvas. Events come to the capture by its callbacks only. -/
def canvas (i : OverlaySession.Step K) : AnnotationsExtension K :=
  match i.action with
  | .toggle => s
  | .captured _ => s
  | _ => s.modifyOverlay fun o => { o with session := o.session.step i }

/-- The handler of the capture. -/
def onCaptured : Stimulus K → AnnotationsExtension K
  | .captured env event => s.modifyOverlay fun o => { o with session := o.session.step ⟨env, .captured event⟩ }
  | _ => s

/-! ### The extension -/

/-- `enable`. The shell enables only what is not enabled. -/
def enable : AnnotationsExtension K :=
  if s.enabled then s
  else
    let s := ({ s with enabled := true }.enableMotion).newOverlay
    let s := { s with shellForkSettings := s.passthrough.isSome }
    { s.connect .kbIdle .keybindingIdle with indicator := true }

omit [Scalar K] [FloorRing K] in
/-- `disable`. -/
def disable : AnnotationsExtension K :=
  if !s.enabled then s
  else
    let s := { s.release .kbIdle with keybinding := false }
    let s := (s.syncShellPointerPassthrough false).destroyOverlay.disableMotion
    { s with
      indicator := false
      enabled := false }

/-- A callback of the ledger runs, on the objects there are: those that are gone have none left.
The timers of the keybinding, of the dock and of its drag run once. -/
def run (id : ℕ) (stimulus : Stimulus K) : AnnotationsExtension K :=
  match s.books.callback id with
  | none => s
  | some .keybindingIdle => { s with books := s.books.finish .kbIdle id, keybinding := true }
  | some .dockShrink =>
    { s with books := s.books.finish .dockShrinkSrc id }.modifyOverlay fun o =>
      { o with dockShrunk := o.dockShrunk || o.session.visible }
  | some .dockDragSafety =>
    ({ s with books := s.books.finish .dockDragSafetySrc id }.release .dockDragSeq).modifyOverlay fun o =>
      { o with dockDragLast := none }
  | some .dockDragCaptured => s.onDockDragCaptured stimulus
  | some (.penCapture _) => s.onCaptured stimulus
  | some .monitorsChanged => s
  | some (.settingChanged _) => s.restartTimer
  | some (.motionTimer _) => s

def step : Input K → AnnotationsExtension K
  | .enable => s.enable
  | .disable => s.disable
  | .toggleDrawingOverlay => s.toggleDrawingOverlay
  | .dockEntered => if s.overlay.isSome then s.onDockEntered else s
  | .dragHandlePressed primary pointer =>
    if s.overlay.isSome then s.onDockDragHandlePress primary pointer else s
  | .canvas i => s.canvas i
  | .set change => s.changeSetting change
  | .callback id stimulus => s.run id stimulus

/-- Before the extension is first enabled. The key for passthrough, where the shell has it, is off. -/
def new (settings : ExtensionSettings) (fork : Bool) : AnnotationsExtension K where
  enabled := false
  books := .empty
  settings := settings
  keybinding := false
  indicator := false
  chrome := false
  passthrough := if fork then some false else none
  shellForkSettings := false
  overlay := none

end AnnotationsExtension

end Annotations.Lifecycle
