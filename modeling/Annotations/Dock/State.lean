import Annotations.Compositor.Route

/-! The dock: the part of the layer that routing decides on. Drawing, erasing and
recomposing never touch it, so an operation changes it in one of the few ways listed
in `dock_execCall`, `dock_handleEvent` and `route_cases`. -/

namespace Annotations

/-- The part of the layer that decides which events are swallowed, which signals are
emitted and which modifiers stay set. -/
structure Dock where
  active : Bool
  paused : Bool
  surfaced : Bool
  barrel : BitVec 32
  pressed : Option String
  regions : List ChromeRegion
  deriving DecidableEq

variable {K : Type}

def MetaAnnotationLayer.dock (layer : MetaAnnotationLayer K) : Dock where
  active := layer.active
  paused := layer.paused
  surfaced := layer.surface.isSome
  barrel := layer.penBarrelButtons
  pressed := layer.chromePressId
  regions := layer.chromeRegions

namespace MetaAnnotationLayer

variable {layer : MetaAnnotationLayer K} {c : Canvas} {win : WindowId}

/-! ### Drawing leaves the dock alone -/

@[simp] theorem dock_modifyCanvasSurface (f : Surface K → Surface K) :
    (layer.modifyCanvasSurface c f).dock = layer.dock := by
  cases c <;> rfl

@[simp] theorem dock_setCanvasStrokes (strokes : List (Stroke K)) :
    (layer.setCanvasStrokes c strokes).dock = layer.dock := by
  cases c <;> rfl

@[simp] theorem dock_scheduleRecompose : layer.scheduleRecompose.dock = layer.dock := by
  unfold scheduleRecompose
  split_ifs <;> rfl

@[simp] theorem dock_recompose : layer.recompose.dock = layer.dock := by
  unfold recompose
  cases hsurface : layer.surface with
  | none => rfl
  | some surface =>
    dsimp only
    split_ifs <;> simp [dock, hsurface]

@[simp] theorem dock_sealStroke (followScroll : Bool) :
    (layer.sealStroke followScroll).dock = layer.dock := rfl

@[simp] theorem dock_setLastInkAnchor (anchor : Canvas) (present : Bool) :
    (layer.setLastInkAnchor anchor present).dock = layer.dock := rfl

@[simp] theorem dock_updateActorVisibility : layer.updateActorVisibility.dock = layer.dock := by
  unfold updateActorVisibility
  split_ifs
  · exact dock_recompose
  · rfl
  · rfl

@[simp] theorem dock_clear : layer.clear.dock = layer.dock := by
  have hwipe : layer.wipe.dock = layer.dock := by simp [dock, wipe]
  exact dock_recompose.trans hwipe

@[simp] theorem dock_clearInkForAnchor : (layer.clearInkForAnchor c).dock = layer.dock := by
  unfold clearInkForAnchor
  dsimp only
  split_ifs <;> simp

@[simp] theorem dock_severAt : (layer.severAt c).dock = layer.dock := by
  unfold severAt
  split_ifs <;> rfl

@[simp] theorem dock_checkTapGestures : layer.checkTapGestures.dock = layer.dock := by
  unfold checkTapGestures
  split_ifs
  · exact dock_clear
  · split
    · split_ifs
      · exact dock_clearInkForAnchor
      · rfl
    · rfl

@[simp] theorem dock_endStroke : layer.endStroke.dock = layer.dock := by
  unfold endStroke
  simp

/-! ### The windows leave the dock alone -/

@[simp] theorem dock_setDisplay (display : MetaDisplay) :
    (layer.setDisplay display).dock = layer.dock := rfl

theorem dock_onSignal {handler : MetaAnnotationLayer K → MetaAnnotationLayer K}
    (hhandler : ∀ layer, (handler layer).dock = layer.dock) :
    (layer.onSignal win handler).dock = layer.dock := by
  unfold onSignal
  split_ifs
  · exact hhandler layer
  · rfl

@[simp] theorem dock_windowMinimized (minimized : Bool) :
    (layer.windowMinimized win minimized).dock = layer.dock :=
  dock_onSignal fun _ => dock_scheduleRecompose

@[simp] theorem dock_windowWorkspaceChanged (workspace : Option ℕ) (onAllWorkspaces : Bool) :
    (layer.windowWorkspaceChanged win workspace onAllWorkspaces).dock = layer.dock :=
  dock_onSignal fun _ => dock_scheduleRecompose

@[simp] theorem dock_windowHidden (hidden restacked : Bool) :
    (layer.windowHidden win hidden restacked).dock = layer.dock := by
  unfold windowHidden
  dsimp only
  split_ifs
  · exact dock_scheduleRecompose
  · rfl

@[simp] theorem dock_windowManaged (data : MetaWindow) :
    (layer.windowManaged win data).dock = layer.dock := by
  unfold windowManaged
  split_ifs
  · rfl
  · exact dock_scheduleRecompose

@[simp] theorem dock_onWindowUnmanaged : (layer.onWindowUnmanaged win).dock = layer.dock := by
  unfold onWindowUnmanaged
  dsimp only
  split_ifs <;> exact dock_scheduleRecompose

@[simp] theorem dock_windowUnmanaged : (layer.windowUnmanaged win).dock = layer.dock :=
  dock_scheduleRecompose.trans (dock_onSignal fun _ => dock_onWindowUnmanaged)

@[simp] theorem dock_windowFinalized : (layer.windowFinalized win).dock = layer.dock := by
  unfold windowFinalized
  dsimp only
  split_ifs <;> rfl

theorem dock_foldl {f : MetaAnnotationLayer K → WindowId → MetaAnnotationLayer K}
    (hf : ∀ layer win, (f layer win).dock = layer.dock) (wins : List WindowId) :
    (wins.foldl f layer).dock = layer.dock := by
  induction wins generalizing layer with
  | nil => rfl
  | cons win wins ih => rw [List.foldl_cons, ih, hf]

/-! ### Inking leaves the dock alone -/

variable [Scalar K]

@[simp] theorem dock_ensureWindowInk : (layer.ensureWindowInk win).dock = layer.dock := by
  rw [ensureWindowInk_eq rfl rfl]
  rfl

@[simp] theorem dock_undoLast : layer.undoLast.dock = layer.dock := by
  unfold undoLast
  split_ifs
  · rfl
  · dsimp only
    split
    · simp
    · simp
    · split_ifs <;> simp

@[simp] theorem dock_noteTapRelease (x y : K) (nowUs : ℤ) :
    (layer.noteTapRelease x y nowUs).dock = layer.dock := by
  unfold noteTapRelease
  dsimp only
  split_ifs
  · rfl
  · rfl
  · rfl
  · exact dock_checkTapGestures

@[simp] theorem dock_appendInkPoint (pt : InkPoint K) (followScroll : Bool) :
    (layer.appendInkPoint c pt followScroll).dock = layer.dock := by
  unfold appendInkPoint
  split
  · rfl
  next strokes _ =>
    have hopen : (layer.openStroke c strokes followScroll).dock = layer.dock := by
      unfold openStroke
      exact dock_setCanvasStrokes _
    dsimp only
    split_ifs
    · split
      · exact hopen
      · exact hopen
    · split <;> rfl

@[simp] theorem dock_placeStroke (x y : K) (pressure tiltFactor : Option K) :
    (layer.placeStroke x y pressure tiltFactor).dock = layer.dock := by
  unfold placeStroke
  dsimp only
  split
  · exact dock_ensureWindowInk
  · rfl

@[simp] theorem dock_beginStroke (x y : K) (pressure tiltFactor : Option K) (erase : Bool) :
    (layer.beginStroke x y pressure tiltFactor erase).dock = layer.dock := by
  have hplace : (layer.placeStroke x y pressure tiltFactor).dock = layer.dock :=
    dock_placeStroke ..
  unfold beginStroke
  dsimp only
  split_ifs
  · exact hplace
  · exact (dock_appendInkPoint _ _).trans hplace

@[simp] theorem dock_continueErase (x y pEnd tEnd : K) :
    (layer.continueErase x y pEnd tEnd).dock = layer.dock := by
  unfold continueErase
  dsimp only
  have hdrop : layer.dropStroke.dock = layer.dock := rfl
  split
  · split_ifs
    · simp [hdrop]
    · rfl
  · rfl

@[simp] theorem dock_continueInk (x y pEnd tEnd : K) :
    (layer.continueInk x y pEnd tEnd).dock = layer.dock := by
  unfold continueInk
  dsimp only
  split
  · split_ifs <;> simp
  · rfl

@[simp] theorem dock_continueStroke (x y : K) (pressure tiltFactor : Option K) (erase : Bool) :
    (layer.continueStroke x y pressure tiltFactor erase).dock = layer.dock := by
  unfold continueStroke
  dsimp only
  rw [dock_scheduleRecompose]
  cases erase with
  | true => exact dock_continueErase ..
  | false => exact dock_continueInk ..

@[simp] theorem dock_setEditorRegionOf (x y w h : ℤ) :
    (layer.setEditorRegionOf x y w h win).dock = layer.dock := by
  have hensure : (layer.ensureWindowInk win).dock = layer.dock := dock_ensureWindowInk
  unfold setEditorRegionOf
  dsimp only
  split
  · exact hensure
  · split_ifs <;> exact hensure

@[simp] theorem dock_setScrollOf (scrollX scrollY : ℤ) :
    (layer.setScrollOf scrollX scrollY win).dock = layer.dock := by
  unfold setScrollOf
  dsimp only
  split
  · rfl
  · split_ifs <;> rfl

@[simp] theorem dock_setWindowEditorRegion (pid : ℕ) (x y w h : ℤ) :
    (layer.setWindowEditorRegion pid x y w h).dock = layer.dock := by
  unfold setWindowEditorRegion
  dsimp only
  split_ifs
  · rfl
  · rw [dock_scheduleRecompose, dock_foldl fun _ _ => dock_setEditorRegionOf ..]

@[simp] theorem dock_setWindowScroll (pid : ℕ) (scrollX scrollY : ℤ) :
    (layer.setWindowScroll pid scrollX scrollY).dock = layer.dock := by
  unfold setWindowScroll
  dsimp only
  split_ifs
  · rfl
  · rw [dock_scheduleRecompose, dock_foldl fun _ _ => dock_setScrollOf ..]

@[simp] theorem dock_windowInkResizeToFrame :
    (layer.windowInkResizeToFrame win).dock = layer.dock := by
  unfold windowInkResizeToFrame
  dsimp only
  split_ifs <;> rfl

@[simp] theorem dock_windowFrameChanged (frame : MtkRectangle) :
    (layer.windowFrameChanged win frame).dock = layer.dock := by
  have hmoved : ∀ layer : MetaAnnotationLayer K,
      (layer.onSignal win (·.onWindowPositionChanged)).dock = layer.dock :=
    fun _ => dock_onSignal fun _ => dock_scheduleRecompose
  have hsized : ∀ layer : MetaAnnotationLayer K,
      (layer.onSignal win (·.onWindowSizeChanged win)).dock = layer.dock :=
    fun _ => dock_onSignal fun _ => dock_scheduleRecompose.trans dock_windowInkResizeToFrame
  unfold windowFrameChanged
  dsimp only
  split_ifs <;> simp [hmoved, hsized]

/-! ### Calls -/

end MetaAnnotationLayer

/-- What a call changes of the dock. -/
def Dock.call (dock : Dock) : Call K → Dock
  | .setActive active => { dock with active := active, barrel := if active then dock.barrel else 0 }
  | .setPaused paused =>
    { dock with paused := paused, barrel := if !dock.paused && paused then 0 else dock.barrel }
  | .setChromeRegions regions => { dock with regions := regions.filterMap MetaAnnotationLayer.chromeRegionOf }
  | .clearChromeRegions => { dock with regions := [], pressed := none }
  | .stageSizeChanged width height =>
    { dock with surfaced := dock.surfaced || (1 ≤ width && 1 ≤ height) }
  | _ => dock

namespace MetaAnnotationLayer

variable {layer : MetaAnnotationLayer K} [Scalar K]

omit [Scalar K] in
theorem dock_setActive (active : Bool) :
    (layer.setActive active).dock = layer.dock.call (.setActive active : Call K) := by
  unfold setActive
  dsimp only
  rw [dock_updateActorVisibility]
  cases active <;> rfl

omit [Scalar K] in
theorem dock_setPaused (paused : Bool) :
    (layer.setPaused paused).dock = layer.dock.call (.setPaused paused : Call K) := by
  unfold setPaused
  dsimp only
  rw [dock_updateActorVisibility]
  unfold Dock.call
  split_ifs with hbarrel <;> simp_all [dock, sealStroke]

theorem dock_stageSizeChanged (width height : ℤ) :
    (layer.onStageSizeChanged width height).dock =
      layer.dock.call (.stageSizeChanged width height : Call K) := by
  unfold onStageSizeChanged recreateBuffers
  dsimp only
  split_ifs with hsize
  · have hsize' : (decide (1 ≤ width) && decide (1 ≤ height)) = false := by
      rw [Bool.and_eq_false_iff, decide_eq_false_iff_not, decide_eq_false_iff_not]
      omega
    rw [dock_sealStroke]
    simp [Dock.call, hsize']
  · have hwidth : 1 ≤ width := by omega
    have hheight : 1 ≤ height := by omega
    rw [dock_sealStroke, dock_scheduleRecompose]
    simp [Dock.call, dock, hwidth, hheight]

theorem dock_new {display : MetaDisplay} {input : AnnotationInput K} {width height : ℤ} :
    (metaAnnotationLayerNew display input width height).dock =
      ⟨false, false, 1 ≤ width && 1 ≤ height, 0, none, []⟩ := by
  rw [metaAnnotationLayerNew, dock_stageSizeChanged]
  simp [Dock.call, dock, metaAnnotationLayerZero]

/-- A call changes the dock as `Dock.call` says. -/
theorem dock_execCall (c : Call K) : (layer.execCall c).dock = layer.dock.call c := by
  cases c with
  | setActive active => exact dock_setActive active
  | setPaused paused => exact dock_setPaused paused
  | setColor rgba => rfl
  | clear => exact dock_clear
  | undoLast => exact dock_undoLast
  | setWindowEditorRegion pid x y w h => exact dock_setWindowEditorRegion ..
  | setWindowScroll pid scrollX scrollY => exact dock_setWindowScroll ..
  | setChromeRegions regions => exact dock_scheduleRecompose
  | clearChromeRegions => exact dock_scheduleRecompose
  | stageSizeChanged width height => exact dock_stageSizeChanged ..
  | windowFrameChanged win frame => exact dock_windowFrameChanged frame
  | windowMinimized win minimized => exact dock_windowMinimized minimized
  | windowWorkspaceChanged win workspace onAll => exact dock_windowWorkspaceChanged ..
  | windowHidden win hidden restacked => exact dock_windowHidden ..
  | windowManaged win data => exact dock_windowManaged data
  | windowUnmanaged win => exact dock_windowUnmanaged
  | windowFinalized win => exact dock_windowFinalized
  | restacked stacking => exact dock_scheduleRecompose
  | activeWorkspaceChanged workspace => exact dock_scheduleRecompose
  | recomposeIdle =>
    change (layer.recomposeIdleCb).dock = layer.dock
    unfold recomposeIdleCb
    split_ifs
    · exact dock_recompose
    · rfl

/-! ### Events -/

theorem dock_pressAt (event : ClutterEvent K) (nowUs : ℤ) :
    (layer.pressAt event nowUs).dock = layer.dock := dock_beginStroke ..

theorem dock_continueAt (event : ClutterEvent K) : (layer.continueAt event).dock = layer.dock :=
  dock_continueStroke ..

theorem dock_cancelTapBeyondRadius (event : ClutterEvent K) :
    (layer.cancelTapBeyondRadius event).dock = layer.dock := by
  unfold cancelTapBeyondRadius
  split_ifs <;> rfl

theorem dock_releaseAt (event : ClutterEvent K) (nowUs : ℤ) :
    (layer.releaseAt event nowUs).dock = layer.dock := by
  unfold releaseAt
  dsimp only
  rw [dock_endStroke, dock_noteTapRelease]
  split_ifs
  · exact dock_continueAt event
  · rfl

theorem dock_handleMotion (event : ClutterEvent K) :
    (layer.handleMotion event).dock = layer.dock := by
  have hcontinue : ((layer.continueAt event).cancelTapBeyondRadius event).dock = layer.dock :=
    (dock_cancelTapBeyondRadius event).trans (dock_continueAt event)
  unfold handleMotion
  dsimp only
  split_ifs
  · exact dock_beginStroke ..
  · rfl
  · exact hcontinue
  · exact dock_endStroke.trans hcontinue

theorem dock_handleTouchUpdate (event : ClutterEvent K) :
    (layer.handleTouchUpdate event).dock = layer.dock := by
  unfold handleTouchUpdate
  split_ifs
  · exact (dock_cancelTapBeyondRadius event).trans (dock_continueAt event)
  · rfl

/-- The barrel modifiers after an event that the layer handles. -/
def barrelAfter (layer : MetaAnnotationLayer K) (event : ClutterEvent K) : BitVec 32 :=
  if !layer.takesEvents then layer.penBarrelButtons
  else match event.type with
    | .buttonPress =>
      (layer.handleToolModifierPress event true).elim layer.penBarrelButtons (·.penBarrelButtons)
    | .buttonRelease =>
      (layer.handleToolModifierPress event false).elim layer.penBarrelButtons (·.penBarrelButtons)
    | _ => layer.penBarrelButtons

omit [Scalar K] in
/-- The tool modifiers change nothing of the dock but the barrel modifiers. -/
theorem dock_handleToolModifierPress {event : ClutterEvent K} {pressed : Bool}
    {layer' : MetaAnnotationLayer K}
    (h : layer.handleToolModifierPress event pressed = some layer') :
    layer'.dock = { layer.dock with barrel := layer'.penBarrelButtons } := by
  unfold handleToolModifierPress at h
  split_ifs at h
  · cases h
    rfl
  · cases h
    rfl

/-- Handling an event changes nothing of the dock but the barrel modifiers. -/
theorem dock_handleEvent (event : ClutterEvent K) (nowUs : ℤ) :
    (layer.handleEvent event nowUs).1.dock =
      { layer.dock with barrel := layer.barrelAfter event } := by
  unfold handleEvent barrelAfter
  cases layer.takesEvents with
  | false => rfl
  | true =>
    simp only [Bool.not_true, Bool.false_eq_true, if_false]
    cases event.type with
    | buttonPress =>
      dsimp only
      unfold handleButtonPress
      cases hmodifier : layer.handleToolModifierPress event true with
      | none =>
        split_ifs
        · rfl
        · exact dock_pressAt event nowUs
      | some layer' =>
        have htool : event.getDeviceTool.isNone = false := by
          by_contra htool
          simp_all [handleToolModifierPress]
        simpa [htool] using dock_handleToolModifierPress hmodifier
    | buttonRelease =>
      dsimp only
      unfold handleButtonRelease
      cases hmodifier : layer.handleToolModifierPress event false with
      | none => exact dock_releaseAt event nowUs
      | some layer' => exact dock_handleToolModifierPress hmodifier
    | motion => exact dock_handleMotion event
    | touchBegin => exact dock_pressAt event nowUs
    | touchUpdate => exact dock_handleTouchUpdate event
    | touchEnd => exact dock_releaseAt event nowUs
    | touchCancel => exact dock_endStroke
    | _ => rfl

end MetaAnnotationLayer

end Annotations
