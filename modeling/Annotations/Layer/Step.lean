import Annotations.Layer.Events

/-! Creation, the signal handlers of the layer, and one step of the layer: an event,
an operation of the D-Bus interface or of the router, or a change of the windows
around it. -/

namespace Annotations

variable {K : Type} [Scalar K]

namespace MetaDisplay

variable (display : MetaDisplay)

def modifyWindow (win : WindowId) (f : MetaWindow → MetaWindow) : MetaDisplay :=
  { display with window := Function.update display.window win (f (display.window win)) }

def insertWindow (win : WindowId) (data : MetaWindow) : MetaDisplay :=
  { display with
    windows := win :: display.windows
    window := Function.update display.window win data }

def removeWindow (win : WindowId) : MetaDisplay :=
  { display with windows := display.windows.filter (· ≠ win) }

end MetaDisplay

namespace MetaAnnotationLayer

variable (layer : MetaAnnotationLayer K)

/-! ### The stage -/

/-- `recreate_buffers`. -/
def recreateBuffers (width height : ℤ) : MetaAnnotationLayer K :=
  if width < 1 ∨ height < 1 then layer
  else
    let layer := { layer with
      surface := some (⟨width, height, fun _ _ => []⟩ : Composite K)
      unattachedSurface :=
        some (rasterizeAllStrokes (cairoSurfaceNewCleared width height) layer.unattachedStrokes)
      stageWidth := width
      stageHeight := height }
    layer.scheduleRecompose

/-- `on_stage_size_changed`, with the size of the stage rounded up. -/
def onStageSizeChanged (width height : ℤ) : MetaAnnotationLayer K :=
  (layer.recreateBuffers width height).sealStroke layer.strokeFollowScroll

/-! ### Windows -/

def setDisplay (display : MetaDisplay) : MetaAnnotationLayer K := { layer with display := display }

def onWindowPositionChanged : MetaAnnotationLayer K := layer.scheduleRecompose

def onWindowSizeChanged (win : WindowId) : MetaAnnotationLayer K :=
  (layer.windowInkResizeToFrame win).scheduleRecompose

def onWindowMinNotify : MetaAnnotationLayer K := layer.scheduleRecompose

def onWindowWorkspaceChanged : MetaAnnotationLayer K := layer.scheduleRecompose

/-- `on_window_unmanaged`. -/
def onWindowUnmanaged (win : WindowId) : MetaAnnotationLayer K :=
  let layer := if layer.strokeAnchor = some win then layer.sealStroke layer.strokeFollowScroll else layer
  let layer := if layer.lastInkAnchor = some win then layer.setLastInkAnchor none false else layer
  let layer := { layer with
    pendingTap := layer.pendingTap && layer.pendingTapAnchor ≠ some win
    tapHistory := if layer.tapHistory.any (·.anchor = some win) then [] else layer.tapHistory
    perWindow := Function.update layer.perWindow win none }
  layer.scheduleRecompose

def onDisplayRestacked : MetaAnnotationLayer K := layer.scheduleRecompose

def onActiveWorkspaceChanged : MetaAnnotationLayer K := layer.scheduleRecompose

/-- A handler that is connected to a window only while it has a `WindowInk`. -/
def onSignal (win : WindowId) (handler : MetaAnnotationLayer K → MetaAnnotationLayer K) :
    MetaAnnotationLayer K :=
  if (layer.perWindow win).isSome then handler layer else layer

/-- A window is moved or resized. -/
def windowFrameChanged (win : WindowId) (frame : MtkRectangle) : MetaAnnotationLayer K :=
  let old := layer.frameRect win
  let layer := layer.setDisplay
    (layer.display.modifyWindow win fun w => { w with frameRect := frame })
  let layer := if old.x ≠ frame.x ∨ old.y ≠ frame.y then layer.onSignal win (·.onWindowPositionChanged)
    else layer
  if old.width ≠ frame.width ∨ old.height ≠ frame.height then
    layer.onSignal win (·.onWindowSizeChanged win)
  else layer

def windowMinimized (win : WindowId) (minimized : Bool) : MetaAnnotationLayer K :=
  (layer.setDisplay (layer.display.modifyWindow win fun w => { w with minimized := minimized })).onSignal
    win (·.onWindowMinNotify)

def windowWorkspaceChanged (win : WindowId) (workspace : Option ℕ) (onAllWorkspaces : Bool) :
    MetaAnnotationLayer K :=
  (layer.setDisplay (layer.display.modifyWindow win fun w =>
    { w with workspace := workspace, onAllWorkspaces := onAllWorkspaces })).onSignal
    win (·.onWindowWorkspaceChanged)

/-- The show queue shows or hides a window. Hiding queues a sync of the stack, which
emits "restacked"; showing does not by itself. -/
def windowHidden (win : WindowId) (hidden restacked : Bool) : MetaAnnotationLayer K :=
  let layer := layer.setDisplay (layer.display.modifyWindow win fun w => { w with hidden := hidden })
  if restacked then layer.onDisplayRestacked else layer

/-- A new window is managed; the stack sync it queues is taken together with it. -/
def windowManaged (win : WindowId) (data : MetaWindow) : MetaAnnotationLayer K :=
  if win ∈ layer.display.windows then layer
  else (layer.setDisplay (layer.display.insertWindow win data)).onDisplayRestacked

/-- A window is unmanaged; the stack sync it queues is taken together with it. The
handler does not read the list of windows. -/
def windowUnmanaged (win : WindowId) : MetaAnnotationLayer K :=
  let layer := layer.onSignal win (·.onWindowUnmanaged win)
  (layer.setDisplay (layer.display.removeWindow win)).onDisplayRestacked

/-- A window is finalized, which nulls the weak pointers to it. -/
def windowFinalized (win : WindowId) : MetaAnnotationLayer K :=
  if win ∈ layer.display.windows then layer
  else
    let layer := if layer.strokeAnchor = some win then layer.setStrokeAnchor none else layer
    if layer.lastInkAnchor = some win then layer.setLastInkAnchor none layer.lastInkPresent else layer

/-- The stack positions change. -/
def restacked (stacking : WindowId → ℤ × ℤ) : MetaAnnotationLayer K :=
  (layer.setDisplay { layer.display with
    window := fun win => { layer.display.window win with
      layer := (stacking win).1, stackPosition := (stacking win).2 } }).onDisplayRestacked

def activeWorkspaceChanged (workspace : Option ℕ) : MetaAnnotationLayer K :=
  (layer.setDisplay { layer.display with activeWorkspace := workspace }).onActiveWorkspaceChanged

end MetaAnnotationLayer

/-! ### Steps -/

/-- What can happen to the layer besides events and the chrome press. -/
inductive Call (K : Type) where
  | setActive (active : Bool)
  | setPaused (paused : Bool)
  | setColor (rgba : Rgba K)
  | clear
  | undoLast
  | setWindowEditorRegion (pid : ℕ) (x y w h : ℤ)
  | setWindowScroll (pid : ℕ) (scrollX scrollY : ℤ)
  | setChromeRegions (regions : List (String × MtkRectangle))
  | clearChromeRegions
  | stageSizeChanged (width height : ℤ)
  | windowFrameChanged (win : WindowId) (frame : MtkRectangle)
  | windowMinimized (win : WindowId) (minimized : Bool)
  | windowWorkspaceChanged (win : WindowId) (workspace : Option ℕ) (onAllWorkspaces : Bool)
  | windowHidden (win : WindowId) (hidden restacked : Bool)
  | windowManaged (win : WindowId) (data : MetaWindow)
  | windowUnmanaged (win : WindowId)
  | windowFinalized (win : WindowId)
  | restacked (stacking : WindowId → ℤ × ℤ)
  | activeWorkspaceChanged (workspace : Option ℕ)
  | recomposeIdle

/-- One operation of the layer. -/
inductive LayerOp (K : Type) where
  | call (c : Call K)
  | handleEvent (event : ClutterEvent K) (nowUs : ℤ)
  | setChromePressActive (id : String)
  | clearChromePress

namespace MetaAnnotationLayer

variable (layer : MetaAnnotationLayer K)

def execCall : Call K → MetaAnnotationLayer K
  | .setActive active => layer.setActive active
  | .setPaused paused => layer.setPaused paused
  | .setColor rgba => layer.setColor rgba
  | .clear => layer.clear
  | .undoLast => layer.undoLast
  | .setWindowEditorRegion pid x y w h => layer.setWindowEditorRegion pid x y w h
  | .setWindowScroll pid scrollX scrollY => layer.setWindowScroll pid scrollX scrollY
  | .setChromeRegions regions => layer.setChromeRegions (some regions)
  | .clearChromeRegions => layer.clearChromeRegions
  | .stageSizeChanged width height => layer.onStageSizeChanged width height
  | .windowFrameChanged win frame => layer.windowFrameChanged win frame
  | .windowMinimized win minimized => layer.windowMinimized win minimized
  | .windowWorkspaceChanged win workspace onAllWorkspaces =>
    layer.windowWorkspaceChanged win workspace onAllWorkspaces
  | .windowHidden win hidden restacked => layer.windowHidden win hidden restacked
  | .windowManaged win data => layer.windowManaged win data
  | .windowUnmanaged win => layer.windowUnmanaged win
  | .windowFinalized win => layer.windowFinalized win
  | .restacked stacking => layer.restacked stacking
  | .activeWorkspaceChanged workspace => layer.activeWorkspaceChanged workspace
  | .recomposeIdle => layer.recomposeIdleCb

def exec : LayerOp K → MetaAnnotationLayer K
  | .call c => layer.execCall c
  | .handleEvent event nowUs => (layer.handleEvent event nowUs).1
  | .setChromePressActive id => layer.setChromePressActive (some id)
  | .clearChromePress => layer.clearChromePress

/-- Count an executed operation. -/
def tick : MetaAnnotationLayer K :=
  { layer with ledger := { layer.ledger with clock := layer.ledger.clock + 1 } }

def step (op : LayerOp K) : MetaAnnotationLayer K := (layer.exec op).tick

end MetaAnnotationLayer

/-- The zeroed record with the defaults that `meta_annotation_layer_new` sets. -/
def metaAnnotationLayerZero (display : MetaDisplay) (input : AnnotationInput K) :
    MetaAnnotationLayer K :=
  { display := display
    input := input.setNonMousePointerIsolated false
    actorShown := false
    surface := none
    unattachedSurface := none
    unattachedStrokes := []
    stageWidth := 0
    stageHeight := 0
    perWindow := fun _ => none
    active := false
    paused := false
    rgba := Rgba.rounded ⟨0.15, 0.15, 0.15, 1⟩
    strokeAnchor := none
    strokeLastX := 0
    strokeLastY := 0
    strokeActive := false
    lastPressure := 1
    lastTiltFactor := 1
    currentStroke := none
    strokeFollowScroll := false
    penBarrelButtons := 0
    lastInkAnchor := none
    lastInkPresent := false
    pendingTap := false
    pendingTapPressUs := 0
    pendingTapPressStageX := 0
    pendingTapPressStageY := 0
    pendingTapAnchor := none
    tapHistory := []
    recomposeIdle := false
    recomposeDirty := false
    chromeRegions := []
    chromePressId := none
    nextStroke := 0
    ledger := ⟨0, 0, none⟩ }

/-- `meta_annotation_layer_new`, on a stage of the given size. -/
def metaAnnotationLayerNew (display : MetaDisplay) (input : AnnotationInput K)
    (stageWidth stageHeight : ℤ) : MetaAnnotationLayer K :=
  (metaAnnotationLayerZero display input).onStageSizeChanged stageWidth stageHeight

/-! ### A small setting for runs on fixed inputs -/

/-- A display without windows. -/
def MetaDisplay.bare : MetaDisplay where
  windows := []
  window := fun _ => ⟨⟨0, 0, 0, 0⟩, false, false, false, .normal, false, none, 0, 0, 0⟩
  activeWorkspace := none

/-- A display with the window `0` in the corner of a stage. -/
def MetaDisplay.oneWindow : MetaDisplay where
  windows := [0]
  window := fun _ => ⟨⟨0, 0, 5, 5⟩, false, false, false, .normal, true, none, 1, 0, 0⟩
  activeWorkspace := some 0

/-- The static record of the input code when the compositor starts. -/
def AnnotationInput.initial : AnnotationInput ℚ := ⟨false, false, 0, 0, 0⟩

/-- An event of a touchscreen. -/
def ClutterEvent.touch (type : ClutterEventType) (x y : ℚ) (sequence : ℕ) : ClutterEvent ℚ where
  type := type
  sourceDevice := some ⟨0, .touchscreen, false, false, none, none⟩
  tool := none
  x := x
  y := y
  button := 0
  button1Mask := false
  axes := none
  sequence := sequence

/-- An event of a pen on a tablet, with the tip down when `down`. -/
def ClutterEvent.pen (type : ClutterEventType) (x y : ℚ) (button : ℕ) (down : Bool) :
    ClutterEvent ℚ where
  type := type
  sourceDevice := some ⟨1, .tablet, false, true, none, none⟩
  tool := some .pen
  x := x
  y := y
  button := button
  button1Mask := down
  axes := none
  sequence := 0

end Annotations
