import Annotations.Compositor.Route
import Annotations.Kate.Tracker

/-! The shell extension: the dock, and what it tells the compositor over the bus. An id
field of the object is modelled by whether it is set, and a timer whose closure captures
values by these values. Methods change the object and append to the calls it has made. -/

namespace Annotations

/-- The ids of the chrome regions. -/
inductive RegionId where
  | color (i : ℕ)
  | clear
  | undo
  | dockBody
  deriving DecidableEq

def RegionId.text : RegionId → String
  | .color i => s!"color-{i}"
  | .clear => "clear"
  | .undo => "undo"
  | .dockBody => "__dock-body"

/-- An actor where the toolkit has put it. -/
structure StActor (K : Type) where
  onStage : Bool
  x : K
  y : K
  width : K
  height : K

/-- What the extension reads of the shell around it. Where the dock is positioned shows
in the place of its actors. -/
structure Scene (K : Type) where
  overviewVisible : Bool
  primaryMonitor : Option MtkRectangle
  dock : StActor K
  dockWidth : K
  button : RegionId → StActor K

/-- What the reply to a call does: nothing, at most log, or one of the handlers. -/
inductive ReplyHandler where
  | null
  | warn
  | setActive
  | setPaused (epoch : ℕ) (paused : Bool)
  | setChromeRegions

/-- A call that `dbusCall` has made. -/
structure BusCall (K : Type) where
  method : Call K
  handler : ReplyHandler

/-- `this._dock`. -/
structure DockActor where
  visible : Bool

/-- `AnnotationExtension`, with the shell around it and the calls it has made. -/
structure AnnotationExtension (K : Type) where
  dock : Option DockActor
  dockPositionTimeout : Bool
  idlePos : Bool
  monitorsId : Bool
  allocId : Bool
  dockRetry : ℕ
  annotationBusWatchId : Bool
  setActiveRetryId : Bool
  setActiveRetryCount : ℕ
  annotationSessionActiveOk : Bool
  allocDebounceId : Bool
  overviewShowingId : Bool
  overviewHiddenId : Bool
  setPausedRetryId : Option (ℕ × Bool)
  setPausedEpoch : ℕ
  regionActivatedId : Bool
  regionsPublished : Bool
  regionButtons : List RegionId
  activeColorIndex : ℕ
  /-- `_publishChromeRegions`, `_clearChromeRegions` and `_positionDock` are set. -/
  closures : Bool
  scene : Scene K
  calls : List (BusCall K)

/-- What happens to the extension: the shell enables and disables it, its sources fire,
the signals it is connected to are emitted, and the scene changes. -/
inductive ExtensionEvent (K : Type) where
  | enable
  | disable
  | scene (scene : Scene K)
  | overviewShowing
  | overviewHidden
  | monitorsChanged
  | allocation
  | allocDebounce
  | idlePos
  | dockPositionTimeout
  | nameAppeared
  | setActiveRetry
  | setPausedRetry
  | clicked (id : RegionId)
  | regionActivated (id : RegionId) (kind : RegionKind)

namespace AnnotationExtension

variable {K : Type} [Scalar K] [FloorRing K]

/-- `COLORS`. -/
def colors : List (Rgba K) :=
  [⟨0.15, 0.15, 0.15, 1⟩, ⟨0.9, 0.9, 0.9, 1⟩, ⟨0.95, 0.25, 0.25, 1⟩, ⟨0.2, 0.55, 0.95, 1⟩,
    ⟨0.95, 0.2, 0.85, 1⟩, ⟨0.25, 0.75, 0.35, 1⟩]

/-- The object before it is first enabled. -/
def new (scene : Scene K) : AnnotationExtension K where
  dock := none
  dockPositionTimeout := false
  idlePos := false
  monitorsId := false
  allocId := false
  dockRetry := 0
  annotationBusWatchId := false
  setActiveRetryId := false
  setActiveRetryCount := 0
  annotationSessionActiveOk := false
  allocDebounceId := false
  overviewShowingId := false
  overviewHiddenId := false
  setPausedRetryId := none
  setPausedEpoch := 0
  regionActivatedId := false
  regionsPublished := false
  regionButtons := []
  activeColorIndex := 0
  closures := false
  scene := scene
  calls := []

variable (ext : AnnotationExtension K)

def dbusCall (method : Call K) (handler : ReplyHandler) : AnnotationExtension K :=
  { ext with calls := ext.calls ++ [⟨method, handler⟩] }

/-! ### Activation -/

/-- `_trySetAnnotationActive`. -/
def trySetAnnotationActive : AnnotationExtension K := ext.dbusCall (.setActive true) .setActive

/-- `_startAnnotationActivation`. -/
def startAnnotationActivation : AnnotationExtension K :=
  let ext := { ext with annotationSessionActiveOk := false, setActiveRetryCount := 0 }
  let ext := ext.trySetAnnotationActive
  { ext with annotationBusWatchId := true, setActiveRetryId := true }

/-- The timer that `_startAnnotationActivation` starts. -/
def onSetActiveRetry : AnnotationExtension K :=
  if !ext.setActiveRetryId then ext
  else if ext.dock.isNone then { ext with setActiveRetryId := false }
  else if ext.annotationSessionActiveOk then { ext with setActiveRetryId := false }
  else if 40 ≤ ext.setActiveRetryCount then
    { ext with setActiveRetryCount := ext.setActiveRetryCount + 1, setActiveRetryId := false }
  else { ext with setActiveRetryCount := ext.setActiveRetryCount + 1 }.trySetAnnotationActive

/-- The bus watch reports an owner of the name. -/
def onNameAppeared : AnnotationExtension K :=
  if ext.annotationBusWatchId then ext.trySetAnnotationActive else ext

/-! ### Pausing -/

/-- `_setPaused`. -/
def setPaused (paused : Bool) : AnnotationExtension K :=
  let epoch := ext.setPausedEpoch + 1
  let ext := { ext with setPausedRetryId := none, setPausedEpoch := epoch }
  ext.dbusCall (.setPaused paused) (.setPaused epoch paused)

/-- The timer that a failed `SetPaused` starts. -/
def onSetPausedRetry : AnnotationExtension K :=
  match ext.setPausedRetryId with
  | none => ext
  | some (epoch, paused) =>
    let ext := { ext with setPausedRetryId := none }
    if ext.dock.isNone then ext
    else if epoch ≠ ext.setPausedEpoch then ext
    else ext.dbusCall (.setPaused paused) .warn

/-! ### Colours and buttons -/

/-- `_setActiveColor`, without the style of the buttons. -/
def setActiveColor (index : ℕ) : AnnotationExtension K := { ext with activeColorIndex := index }

/-- `_activateRegion`. -/
def activateRegion : RegionId → AnnotationExtension K
  | .clear => ext.dbusCall .clear .warn
  | .undo => ext.dbusCall .undoLast .warn
  | .color i =>
    match colors[i]? with
    | none => ext
    | some c => (ext.dbusCall (.setColor c) .warn).setActiveColor i
  | .dockBody => ext

/-- `_publishActiveColor`. -/
def publishActiveColor : AnnotationExtension K :=
  match colors[ext.activeColorIndex]? with
  | none => ext
  | some c => ext.dbusCall (.setColor c) .warn

/-- A button of the dock is clicked. -/
def onClicked (id : RegionId) : AnnotationExtension K :=
  if ext.dock.isNone then ext else ext.activateRegion id

/-- A `RegionActivated` signal arrives. -/
def onRegionActivated (id : RegionId) (kind : RegionKind) : AnnotationExtension K :=
  if !ext.regionActivatedId || ext.dock.isNone then ext
  else if kind ≠ .release ∧ kind ≠ .touchEnd then ext
  else ext.activateRegion id

/-! ### Chrome regions -/

end AnnotationExtension

/-- The entry of an actor in the published list. -/
def StActor.region {K : Type} [Scalar K] [FloorRing K] (actor : StActor K) (id : RegionId) :
    Option (String × MtkRectangle) :=
  if actor.onStage ∧ 0 < actor.width ∧ 0 < actor.height then
    some (id.text, ⟨mathRound actor.x, mathRound actor.y, mathRound actor.width, mathRound actor.height⟩)
  else none

namespace AnnotationExtension

variable {K : Type} [Scalar K] [FloorRing K] (ext : AnnotationExtension K)

/-- `_clearChromeRegions`. -/
def clearChromeRegions : AnnotationExtension K :=
  if !ext.regionsPublished then ext
  else { ext with regionsPublished := false }.dbusCall .clearChromeRegions .null

/-- The list that `_publishChromeRegions` collects: the dock, and the buttons above it. -/
def regionList : List (String × MtkRectangle) :=
  (ext.scene.dock.region .dockBody).toList ++
    ext.regionButtons.filterMap fun id => (ext.scene.button id).region id

/-- `_publishChromeRegions`. -/
def publishChromeRegions : AnnotationExtension K :=
  match ext.dock with
  | none => ext
  | some dock =>
    if ext.regionButtons.isEmpty then ext
    else if !dock.visible then ext.clearChromeRegions
    else if ext.regionList.isEmpty then ext.clearChromeRegions
    else ext.dbusCall (.setChromeRegions ext.regionList) .setChromeRegions

/-- `_positionDock`. -/
def positionDock : AnnotationExtension K :=
  if ext.dock.isNone then ext
  else match ext.scene.primaryMonitor with
    | none => ext
    | some mon => if mon.width < 1 ∨ mon.height < 1 then ext else ext.publishChromeRegions

/-- `schedulePositionRetries`. -/
def schedulePositionRetries : AnnotationExtension K :=
  if ext.dock.isNone then ext
  else
    let ext := ext.positionDock
    if (ext.scene.primaryMonitor.isNone ∨ ext.scene.dockWidth < 8) ∧ ext.dockRetry < 40 then
      { ext with dockRetry := ext.dockRetry + 1, dockPositionTimeout := true }
    else ext

def onMonitorsChanged : AnnotationExtension K := if ext.monitorsId then ext.positionDock else ext

def onAllocation : AnnotationExtension K := if ext.allocId then { ext with allocDebounceId := true } else ext

def onAllocDebounce : AnnotationExtension K :=
  if ext.allocDebounceId then { ext with allocDebounceId := false }.positionDock else ext

def onIdlePos : AnnotationExtension K :=
  if ext.idlePos then { ext.schedulePositionRetries with idlePos := false } else ext

def onDockPositionTimeout : AnnotationExtension K :=
  if ext.dockPositionTimeout then { ext with dockPositionTimeout := false }.schedulePositionRetries else ext

/-! ### The overview -/

def showDock (visible : Bool) : AnnotationExtension K := { ext with dock := ext.dock.map fun _ => ⟨visible⟩ }

def setOverviewVisible (visible : Bool) : AnnotationExtension K :=
  { ext with scene := { ext.scene with overviewVisible := visible } }

/-- The overview is shown. It is visible by the time it emits "showing". -/
def onOverviewShowing : AnnotationExtension K :=
  let ext := ext.setOverviewVisible true
  if !ext.overviewShowingId || ext.dock.isNone then ext
  else ((ext.showDock false).clearChromeRegions).setPaused true

/-- The overview is hidden. It is no longer visible when it emits "hidden". -/
def onOverviewHidden : AnnotationExtension K :=
  let ext := ext.setOverviewVisible false
  if !ext.overviewHiddenId || ext.dock.isNone then ext
  else ((ext.showDock true).positionDock).setPaused false

/-! ### The lifecycle -/

/-- What `enable` sets before the first call. -/
def resetFields : AnnotationExtension K :=
  { ext with
    dockPositionTimeout := false
    idlePos := false
    monitorsId := false
    allocId := false
    dockRetry := 0
    annotationBusWatchId := false
    setActiveRetryId := false
    setActiveRetryCount := 0
    annotationSessionActiveOk := false
    allocDebounceId := false
    overviewShowingId := false
    overviewHiddenId := false
    setPausedRetryId := none
    setPausedEpoch := 0
    regionActivatedId := false
    regionsPublished := false
    regionButtons := (List.range (colors : List (Rgba K)).length).map .color ++ [.undo, .clear]
    activeColorIndex := 0
    dock := some ⟨!ext.scene.overviewVisible⟩ }

/-- What `enable` connects. -/
def connect : AnnotationExtension K :=
  { ext with
    closures := true
    monitorsId := true
    allocId := true
    overviewShowingId := true
    overviewHiddenId := true
    regionActivatedId := true
    idlePos := true }

/-- `enable`. The shell enables only what is not enabled. -/
def enable : AnnotationExtension K :=
  if ext.dock.isSome then ext
  else ((ext.resetFields.setPaused ext.scene.overviewVisible).connect).startAnnotationActivation

/-- What `disable` disconnects before its calls. -/
def disconnect : AnnotationExtension K :=
  { ext with
    overviewShowingId := false
    overviewHiddenId := false
    regionActivatedId := false
    annotationBusWatchId := false
    setActiveRetryId := false }

/-- What `disable` drops after its calls. -/
def dropDock : AnnotationExtension K :=
  { ext with
    idlePos := false
    dockPositionTimeout := false
    allocDebounceId := false
    monitorsId := false
    allocId := ext.allocId && ext.dock.isNone
    dock := none
    regionButtons := []
    closures := false }

/-- `disable`, without the tracker of Kate. -/
def disable : AnnotationExtension K :=
  let ext := ext.disconnect.dbusCall .clearChromeRegions .null
  let ext := { ext with regionsPublished := false }.dbusCall (.setPaused false) .null
  let ext := { ext with setPausedRetryId := none }.dbusCall (.setActive false) .null
  ext.dropDock

/-! ### Events and replies -/

def handle : ExtensionEvent K → AnnotationExtension K
  | .enable => ext.enable
  | .disable => ext.disable
  | .scene scene => { ext with scene := { scene with overviewVisible := ext.scene.overviewVisible } }
  | .overviewShowing => ext.onOverviewShowing
  | .overviewHidden => ext.onOverviewHidden
  | .monitorsChanged => ext.onMonitorsChanged
  | .allocation => ext.onAllocation
  | .allocDebounce => ext.onAllocDebounce
  | .idlePos => ext.onIdlePos
  | .dockPositionTimeout => ext.onDockPositionTimeout
  | .nameAppeared => ext.onNameAppeared
  | .setActiveRetry => ext.onSetActiveRetry
  | .setPausedRetry => ext.onSetPausedRetry
  | .clicked id => ext.onClicked id
  | .regionActivated id kind => ext.onRegionActivated id kind

/-- The reply to a call arrives. -/
def onReply (handler : ReplyHandler) (ok : Bool) : AnnotationExtension K :=
  match handler with
  | .null => ext
  | .warn => ext
  | .setActive =>
    if !ok then ext
    else
      let ext := { ext with annotationSessionActiveOk := true, regionsPublished := false }
      let ext := if ext.closures then ext.publishChromeRegions else ext
      ext.publishActiveColor
  | .setPaused epoch paused =>
    if ok then ext
    else if ext.dock.isNone then ext
    else if epoch ≠ ext.setPausedEpoch then ext
    else { ext with setPausedRetryId := some (epoch, paused) }
  | .setChromeRegions => { ext with regionsPublished := ok }

end AnnotationExtension

/-- A dock with its buttons at the bottom of a small monitor, for runs on fixed inputs. -/
def Scene.bare : Scene ℚ where
  overviewVisible := false
  primaryMonitor := some ⟨0, 0, 100, 100⟩
  dock := ⟨true, 40, 90, 20, 10⟩
  dockWidth := 20
  button := fun _ => ⟨false, 0, 0, 0, 0⟩

end Annotations
