import Annotations.Composite.Picture
import Annotations.Runs.Basic

/-! Freshness of the composite. It is what `recompose` would draw, or a recompose is
pending, as long as no window without ink changes what it covers unannounced. -/

namespace Annotations

open Runs

variable {K : Type}

/-- The frame of a window as `recompose` sees it. -/
def MetaWindow.occluder (win : MetaWindow) (activeWs : Option ℕ) : Option MtkRectangle :=
  if windowIsVisibleForInk win activeWs ∧ 1 ≤ win.frameRect.width ∧ 1 ≤ win.frameRect.height then
    some win.frameRect
  else none

namespace MetaAnnotationLayer

variable {layer layer' : MetaAnnotationLayer K} {c : Canvas} {win : WindowId}

/-- The dirty flag is for a hidden layer with a surface. -/
structure Tidy (layer : MetaAnnotationLayer K) : Prop where
  shown : layer.active → layer.paused = false → layer.recomposeDirty = false
  surfaced : layer.surface = none → layer.recomposeDirty = false

/-- The composite is what `recompose` would draw, or a recompose is pending. -/
def Fresh (layer : MetaAnnotationLayer K) : Prop :=
  ∀ composite, layer.surface = some composite →
    layer.recomposeDirty ∨ layer.recomposeIdle ∨ layer.recomposeSurface composite = composite

/-- The invariant of the composite. -/
structure Current (layer : MetaAnnotationLayer K) : Prop extends Tidy layer where
  fresh : Fresh layer

theorem Tidy.of_easel (h : Tidy layer) (heasel : layer'.easel = layer.easel) : Tidy layer' := by
  obtain ⟨hactive, hpaused, hsurface, hdirty, _⟩ := Easel.mk.inj heasel
  refine ⟨fun ha hp => ?_, fun hs => ?_⟩
  · rw [hdirty]
    exact h.shown (hactive ▸ ha) (hpaused ▸ hp)
  · rw [hdirty]
    exact h.surfaced (hsurface ▸ hs)

theorem Fresh.of_same (h : Fresh layer) (hsurface : layer'.surface = layer.surface)
    (hdirty : layer'.recomposeDirty = layer.recomposeDirty)
    (hidle : layer'.recomposeIdle = layer.recomposeIdle) (hpicture : layer'.picture = layer.picture) :
    Fresh layer' := by
  intro composite hcomposite
  rw [hsurface] at hcomposite
  rw [hdirty, hidle, recomposeSurface_congr hpicture]
  exact h composite hcomposite

/-- What draws nothing keeps the composite current. -/
theorem Current.of_quiet (h : Current layer) (hquiet : Quiet layer layer') : Current layer' := by
  obtain ⟨_, _, hsurface, hdirty, hidle⟩ := Easel.mk.inj hquiet.easel
  exact ⟨h.toTidy.of_easel hquiet.easel, h.fresh.of_same hsurface hdirty hidle hquiet.picture⟩

/-! ### Scheduling and recomposing -/

/-- Scheduling makes up for any change. -/
theorem current_scheduleRecompose (h : Tidy layer) : Current layer.scheduleRecompose := by
  unfold scheduleRecompose
  cases hsurface : layer.surface with
  | none =>
    refine ⟨by simpa [hsurface] using h, fun composite hcomposite => ?_⟩
    simp [hsurface] at hcomposite
  | some surface =>
    cases hlive : (!layer.active || layer.paused) with
    | true =>
      simp only [Option.isNone_some, Bool.false_eq_true, if_false, if_true]
      refine ⟨⟨fun ha hp => ?_, nofun⟩, fun _ _ => .inl rfl⟩
      dsimp only at ha hp
      simp [ha, hp] at hlive
    | false =>
      simp only [Option.isNone_some, Bool.false_eq_true, if_false]
      exact ⟨⟨h.shown, nofun⟩, fun _ _ => .inr (.inl rfl)⟩

theorem current_of_easel (h : Tidy layer) (heasel : layer'.easel = layer.easel) :
    Current layer'.scheduleRecompose :=
  current_scheduleRecompose (h.of_easel heasel)

/-- Recomposing a layer that is shown makes it current. -/
theorem current_recompose (hsurfaced : layer.surface = none → layer.recomposeDirty = false) :
    Current layer.recompose := by
  unfold recompose
  cases hsurface : layer.surface with
  | none =>
    have hdirty := hsurfaced hsurface
    refine ⟨⟨fun _ _ => hdirty, fun _ => hdirty⟩, fun composite hcomposite => ?_⟩
    simp [hsurface] at hcomposite
  | some surface =>
    cases hlive : (!layer.active || layer.paused) with
    | true =>
      simp only [if_true]
      refine ⟨⟨fun ha hp => ?_, nofun⟩, fun _ _ => .inl rfl⟩
      dsimp only at ha hp
      simp [ha, hp] at hlive
    | false =>
      simp only [Bool.false_eq_true, if_false]
      refine ⟨⟨fun _ _ => rfl, nofun⟩, fun composite hcomposite => ?_⟩
      obtain rfl : layer.recomposeSurface surface = composite := Option.some.inj hcomposite
      exact .inr (.inr recomposeSurface_recomposeSurface)

theorem current_recomposeIdleCb (h : Current layer) : Current layer.recomposeIdleCb := by
  unfold recomposeIdleCb
  split_ifs
  · exact current_recompose h.surfaced
  · exact h

/-- Showing or hiding the actor settles what is owed. -/
theorem current_updateActorVisibility (hsurfaced : layer.surface = none → layer.recomposeDirty = false)
    (hfresh : Fresh layer) : Current layer.updateActorVisibility := by
  unfold updateActorVisibility
  cases hlive : (layer.active && !layer.paused) with
  | true =>
    simp only [if_true]
    cases hdirty : layer.recomposeDirty with
    | true =>
      simp only [if_true]
      have hrecomposed : Current layer.dropIdle.recompose := current_recompose hsurfaced
      exact hrecomposed.of_quiet ⟨rfl, rfl⟩
    | false =>
      simp only [Bool.false_eq_true, if_false]
      exact ⟨⟨fun _ _ => hdirty, fun _ => hdirty⟩, hfresh.of_same rfl rfl rfl rfl⟩
  | false =>
    simp only [Bool.false_eq_true, if_false]
    refine ⟨⟨fun ha hp => ?_, hsurfaced⟩, hfresh.of_same rfl rfl rfl rfl⟩
    dsimp only at ha hp
    simp [ha, hp] at hlive

variable [Scalar K]

/-! ### The operations of the layer -/

omit [Scalar K] in
theorem current_endStroke (h : Current layer) : Current layer.endStroke :=
  current_of_easel h.toTidy rfl

omit [Scalar K] in
theorem current_clear (h : Current layer) : Current layer.clear := by
  unfold clear
  exact current_recompose fun hs => h.surfaced (Option.map_eq_none_iff.mp hs)

omit [Scalar K] in
theorem current_clearInkForAnchor (h : Current layer) : Current (layer.clearInkForAnchor c) := by
  unfold clearInkForAnchor
  refine current_of_easel h.toTidy ?_
  split_ifs <;> exact (easel_modifyCanvasSurface _).trans (quiet_setCanvasStrokes _).easel

omit [Scalar K] in
theorem current_checkTapGestures (h : Current layer) : Current layer.checkTapGestures := by
  unfold checkTapGestures
  split_ifs
  · exact (current_clear h).of_quiet ⟨rfl, rfl⟩
  · split
    · split_ifs
      · exact (current_clearInkForAnchor h).of_quiet ⟨rfl, rfl⟩
      · exact h
    · exact h

theorem current_noteTapRelease (h : Current layer) (x y : K) (nowUs : ℤ) :
    Current (layer.noteTapRelease x y nowUs) := by
  unfold noteTapRelease
  dsimp only
  split_ifs
  · exact h
  · exact h.of_quiet ⟨rfl, rfl⟩
  · exact h.of_quiet ⟨rfl, rfl⟩
  · exact current_checkTapGestures (h.of_quiet ⟨rfl, rfl⟩)

theorem current_undoLast (h : Current layer) : Current layer.undoLast := by
  have hsever : (layer.severAt layer.lastInkAnchor).easel = layer.easel := by
    unfold severAt
    split_ifs <;> rfl
  unfold undoLast
  split_ifs
  · exact h
  · dsimp only
    split
    · exact current_of_easel h.toTidy rfl
    · exact current_of_easel h.toTidy rfl
    · refine current_of_easel h.toTidy ?_
      split_ifs
      · exact (easel_modifyCanvasSurface _).trans ((quiet_setCanvasStrokes _).easel.trans hsever)
      · exact (easel_modifyCanvasSurface _).trans ((quiet_setCanvasStrokes _).easel.trans hsever)

theorem current_continueStroke (h : Current layer) (x y : K) (pressure tiltFactor : Option K)
    (erase : Bool) : Current (layer.continueStroke x y pressure tiltFactor erase) := by
  unfold continueStroke
  refine current_of_easel h.toTidy ?_
  cases erase with
  | true => exact easel_continueErase ..
  | false => exact easel_continueInk ..

theorem current_setWindowEditorRegion (h : Current layer) (pid : ℕ) (x y w ht : ℤ) :
    Current (layer.setWindowEditorRegion pid x y w ht) := by
  unfold setWindowEditorRegion
  dsimp only
  split_ifs
  · exact h
  · exact current_of_easel h.toTidy (easel_foldl (fun _ _ => easel_setEditorRegionOf ..) _)

theorem current_setWindowScroll (h : Current layer) (pid : ℕ) (scrollX scrollY : ℤ) :
    Current (layer.setWindowScroll pid scrollX scrollY) := by
  unfold setWindowScroll
  dsimp only
  split_ifs
  · exact h
  · exact current_of_easel h.toTidy (easel_foldl (fun _ _ => easel_setScrollOf ..) _)

omit [Scalar K] in
theorem current_setActive (h : Current layer) (active : Bool) : Current (layer.setActive active) := by
  unfold setActive
  cases active with
  | true => exact current_updateActorVisibility h.surfaced (h.fresh.of_same rfl rfl rfl rfl)
  | false => exact current_updateActorVisibility h.surfaced (h.fresh.of_same rfl rfl rfl rfl)

omit [Scalar K] in
theorem current_setPaused (h : Current layer) (paused : Bool) : Current (layer.setPaused paused) := by
  unfold setPaused
  dsimp only
  split_ifs <;> exact current_updateActorVisibility h.surfaced (h.fresh.of_same rfl rfl rfl rfl)

/-- A new stage is scheduled, or there is none. -/
theorem current_onStageSizeChanged (h : Current layer) (width height : ℤ) :
    Current (layer.onStageSizeChanged width height) := by
  unfold onStageSizeChanged recreateBuffers
  dsimp only
  split_ifs
  · exact h.of_quiet ⟨rfl, rfl⟩
  · have hsealed : ∀ layer' : MetaAnnotationLayer K, Current layer' →
        Current (layer'.sealStroke layer.strokeFollowScroll) := fun _ h' => h'.of_quiet ⟨rfl, rfl⟩
    refine hsealed _ (current_scheduleRecompose ⟨h.shown, fun hs => ?_⟩)
    cases hs

/-! ### The windows -/

omit [Scalar K] in
theorem visibleWindows_eq : layer.visibleWindows = layer.display.sortedWindows.filterMap fun win =>
    ((layer.display.window win).occluder layer.display.activeWorkspace).map (win, ·) := by
  refine List.filterMap_congr fun win _ => ?_
  unfold MetaWindow.occluder frameRect
  dsimp only
  split_ifs <;> rfl

omit [Scalar K] in
/-- The visible windows depend on the stacking and on the occluders alone. -/
theorem visibleWindows_modifyWindow {f : MetaWindow → MetaWindow}
    (hstack : (f (layer.display.window win)).layer = (layer.display.window win).layer ∧
      (f (layer.display.window win)).stackPosition = (layer.display.window win).stackPosition)
    (hoccluder : (f (layer.display.window win)).occluder layer.display.activeWorkspace =
      (layer.display.window win).occluder layer.display.activeWorkspace) :
    (layer.setDisplay (layer.display.modifyWindow win f)).visibleWindows = layer.visibleWindows := by
  have hupdate : ∀ w, (layer.display.modifyWindow win f).window w =
      if w = win then f (layer.display.window win) else layer.display.window w := by
    intro w
    by_cases hw : w = win <;> simp [MetaDisplay.modifyWindow, hw]
  have hkeys : ∀ w, ((layer.display.modifyWindow win f).window w).layer = (layer.display.window w).layer ∧
      ((layer.display.modifyWindow win f).window w).stackPosition =
        (layer.display.window w).stackPosition := by
    intro w
    rw [hupdate]
    split_ifs with hw
    · rw [hw]
      exact hstack
    · exact ⟨rfl, rfl⟩
  have hsame : ∀ w, ((layer.display.modifyWindow win f).window w).occluder layer.display.activeWorkspace =
      (layer.display.window w).occluder layer.display.activeWorkspace := by
    intro w
    rw [hupdate]
    split_ifs with hw
    · rw [hw]
      exact hoccluder
    · rfl
  have hsorted : (layer.display.modifyWindow win f).sortedWindows = layer.display.sortedWindows := by
    simp only [MetaDisplay.sortedWindows, MetaDisplay.sortWindowsByStacking,
      MetaWindow.stackPositionCompare, hkeys]
    rfl
  rw [visibleWindows_eq, visibleWindows_eq]
  change (layer.display.modifyWindow win f).sortedWindows.filterMap (fun w =>
    (((layer.display.modifyWindow win f).window w).occluder layer.display.activeWorkspace).map (w, ·)) = _
  rw [hsorted]
  simp only [hsame]

omit [Scalar K] in
/-- A change of a window that recompose does not see is quiet. -/
theorem quiet_modifyWindow {f : MetaWindow → MetaWindow}
    (hstack : (f (layer.display.window win)).layer = (layer.display.window win).layer ∧
      (f (layer.display.window win)).stackPosition = (layer.display.window win).stackPosition)
    (hoccluder : (f (layer.display.window win)).occluder layer.display.activeWorkspace =
      (layer.display.window win).occluder layer.display.activeWorkspace) :
    Quiet layer (layer.setDisplay (layer.display.modifyWindow win f)) := by
  have hvisible := visibleWindows_modifyWindow hstack hoccluder
  exact ⟨rfl, congrArg (fun wins => ({ layer.picture with visibleWindows := wins } : Picture K)) hvisible⟩

omit [Scalar K] in
/-- A handler of a window with ink that schedules, after any change of the display. -/
theorem current_onSignal (h : Current layer) {display : MetaDisplay}
    (hchange : (layer.perWindow win).isSome ∨ Quiet layer (layer.setDisplay display)) :
    Current ((layer.setDisplay display).onSignal win (·.scheduleRecompose)) := by
  unfold onSignal
  have hink : ((layer.setDisplay display).perWindow win).isSome = (layer.perWindow win).isSome := rfl
  rw [hink]
  split_ifs with hsome
  · exact current_of_easel h.toTidy rfl
  · exact h.of_quiet (hchange.resolve_left hsome)

/-- A window without ink that changes unannounced covers what it did before. -/
def Announced (layer : MetaAnnotationLayer K) : LayerOp K → Prop
  | .call (.windowFrameChanged win frame) => (layer.perWindow win).isSome ∨
    ({ layer.display.window win with frameRect := frame } : MetaWindow).occluder
      layer.display.activeWorkspace = (layer.display.window win).occluder layer.display.activeWorkspace
  | .call (.windowMinimized win minimized) => (layer.perWindow win).isSome ∨
    ({ layer.display.window win with minimized := minimized } : MetaWindow).occluder
      layer.display.activeWorkspace = (layer.display.window win).occluder layer.display.activeWorkspace
  | .call (.windowWorkspaceChanged win workspace onAllWorkspaces) => (layer.perWindow win).isSome ∨
    ({ layer.display.window win with
        workspace := workspace, onAllWorkspaces := onAllWorkspaces } : MetaWindow).occluder
      layer.display.activeWorkspace = (layer.display.window win).occluder layer.display.activeWorkspace
  | .call (.windowHidden win hidden restacked) => restacked ∨
    ({ layer.display.window win with hidden := hidden } : MetaWindow).occluder
      layer.display.activeWorkspace = (layer.display.window win).occluder layer.display.activeWorkspace
  | _ => True

theorem current_windowFrameChanged (h : Current layer) (frame : MtkRectangle)
    (hop : layer.Announced (.call (.windowFrameChanged win frame))) :
    Current (layer.windowFrameChanged win frame) := by
  generalize hmoved : layer.setDisplay
    (layer.display.modifyWindow win fun w => { w with frameRect := frame }) = moved
  have hquiet : ({ layer.display.window win with frameRect := frame } : MetaWindow).occluder
      layer.display.activeWorkspace = (layer.display.window win).occluder layer.display.activeWorkspace →
      Current moved :=
    fun hoccluder => hmoved ▸ h.of_quiet (quiet_modifyWindow ⟨rfl, rfl⟩ hoccluder)
  have htidy : Tidy moved := hmoved ▸ h.toTidy.of_easel rfl
  have hperWindow : moved.perWindow = layer.perWindow := hmoved ▸ rfl
  unfold windowFrameChanged
  simp only [hmoved]
  cases hink : layer.perWindow win with
  | none =>
    have hmute : ∀ handler : MetaAnnotationLayer K → MetaAnnotationLayer K,
        moved.onSignal win handler = moved := by
      intro handler
      simp [onSignal, hperWindow, hink]
    have hcurrent : Current moved := by
      simp only [Announced, hink, Option.isSome_none, Bool.false_eq_true, false_or] at hop
      exact hquiet hop
    split_ifs <;> simpa [hmute] using hcurrent
  | some ink =>
    have hloud : ∀ layer' : MetaAnnotationLayer K, layer'.perWindow = layer.perWindow →
        ∀ handler : MetaAnnotationLayer K → MetaAnnotationLayer K,
          layer'.onSignal win handler = handler layer' := by
      intro layer' h' handler
      simp [onSignal, h', hink]
    have hscheduled : Current moved.scheduleRecompose := current_scheduleRecompose htidy
    have hperWindow' : moved.scheduleRecompose.perWindow = layer.perWindow := by
      rw [scheduleRecompose_eq, hperWindow]
    have hsized : ∀ layer' : MetaAnnotationLayer K, layer'.perWindow = layer.perWindow → Tidy layer' →
        Current (layer'.onSignal win (·.onWindowSizeChanged win)) := by
      intro layer' h' htidy'
      rw [hloud layer' h']
      exact current_of_easel htidy' easel_windowInkResizeToFrame
    split_ifs with hposition hsize hsize
    · rw [hloud moved hperWindow]
      exact hsized _ hperWindow' hscheduled.toTidy
    · exact hsized _ hperWindow htidy
    · rw [hloud moved hperWindow]
      exact hscheduled
    · have hframe : layer.frameRect win = frame := by
        generalize layer.frameRect win = old at hposition hsize
        cases old
        cases frame
        simp_all
      rw [← hframe] at hquiet
      exact hquiet rfl

omit [Scalar K] in
theorem current_windowHidden (h : Current layer) (hidden restacked : Bool)
    (hop : layer.Announced (.call (.windowHidden win hidden restacked))) :
    Current (layer.windowHidden win hidden restacked) := by
  unfold windowHidden
  dsimp only
  split_ifs with hrestacked
  · exact current_of_easel h.toTidy rfl
  · exact h.of_quiet (quiet_modifyWindow ⟨rfl, rfl⟩ (hop.resolve_left hrestacked))

omit [Scalar K] in
theorem current_windowManaged (h : Current layer) (data : MetaWindow) :
    Current (layer.windowManaged win data) := by
  unfold windowManaged
  split_ifs
  · exact h
  · exact current_of_easel h.toTidy rfl

omit [Scalar K] in
theorem current_windowUnmanaged (h : Current layer) : Current (layer.windowUnmanaged win) := by
  have hhandled : Tidy (layer.onSignal win (·.onWindowUnmanaged win)) := by
    unfold onSignal
    split_ifs
    · unfold onWindowUnmanaged
      refine (current_of_easel h.toTidy ?_).toTidy
      split_ifs <;> rfl
    · exact h.toTidy
  exact current_of_easel hhandled rfl

omit [Scalar K] in
theorem current_windowFinalized (h : Current layer) : Current (layer.windowFinalized win) := by
  unfold windowFinalized
  dsimp only
  split_ifs
  · exact h
  · exact h.of_quiet ⟨rfl, rfl⟩
  · exact h.of_quiet ⟨rfl, rfl⟩
  · exact h.of_quiet ⟨rfl, rfl⟩
  · exact h.of_quiet ⟨rfl, rfl⟩

/-! ### Events -/

theorem current_pressAt (h : Current layer) (event : ClutterEvent K) (nowUs : ℤ) :
    Current (layer.pressAt event nowUs) :=
  h.of_quiet ((quiet_beginStroke ..).trans ⟨rfl, rfl⟩)

theorem current_continueAt (h : Current layer) (event : ClutterEvent K) :
    Current (layer.continueAt event) :=
  current_continueStroke h ..

omit [Scalar K] in
theorem current_cancelTapPending (h : Current layer) : Current layer.cancelTapPending :=
  h.of_quiet ⟨rfl, rfl⟩

theorem current_cancelTapBeyondRadius (h : Current layer) (event : ClutterEvent K) :
    Current (layer.cancelTapBeyondRadius event) := by
  unfold cancelTapBeyondRadius
  split_ifs
  · exact current_cancelTapPending h
  · exact h

theorem current_releaseAt (h : Current layer) (event : ClutterEvent K) (nowUs : ℤ) :
    Current (layer.releaseAt event nowUs) := by
  unfold releaseAt
  dsimp only
  refine current_endStroke (current_noteTapRelease ?_ ..)
  split_ifs
  · exact current_continueAt h event
  · exact h

omit [Scalar K] in
theorem quiet_handleToolModifierPress {event : ClutterEvent K} {pressed : Bool}
    (h : layer.handleToolModifierPress event pressed = some layer') : Quiet layer layer' := by
  unfold handleToolModifierPress at h
  split_ifs at h <;> cases h <;> exact ⟨rfl, rfl⟩

/-- Handling an event keeps the composite current. -/
theorem current_handleEvent (h : Current layer) (event : ClutterEvent K) (nowUs : ℤ) :
    Current (layer.handleEvent event nowUs).1 := by
  unfold handleEvent
  split_ifs
  · exact h
  · cases event.type with
    | buttonPress =>
      dsimp only [handleButtonPress]
      split_ifs
      · exact h
      · split
        next hmodifier => exact h.of_quiet (quiet_handleToolModifierPress hmodifier)
        · exact current_pressAt h event nowUs
    | motion =>
      have hcontinued := current_cancelTapBeyondRadius (current_continueAt h event) event
      dsimp only [handleMotion]
      split_ifs
      · exact current_cancelTapPending (h.of_quiet (quiet_beginStroke ..))
      · exact h
      · exact hcontinued
      · exact current_endStroke hcontinued
    | buttonRelease =>
      dsimp only [handleButtonRelease]
      split
      next hmodifier => exact h.of_quiet (quiet_handleToolModifierPress hmodifier)
      · exact current_releaseAt h event nowUs
    | touchBegin => exact current_pressAt h event nowUs
    | touchUpdate =>
      dsimp only [handleTouchUpdate]
      split_ifs
      · exact current_cancelTapBeyondRadius (current_continueAt h event) event
      · exact h
    | touchEnd => exact current_releaseAt h event nowUs
    | touchCancel => exact current_endStroke (current_cancelTapPending h)
    | _ => exact h

/-! ### Runs -/

/-- One operation keeps the composite current. -/
theorem current_step {op : LayerOp K} (h : Current layer) (hop : layer.Announced op) :
    Current (layer.step op) := by
  refine Current.of_quiet (?_ : Current (layer.exec op)) ⟨rfl, rfl⟩
  cases op with
  | handleEvent event nowUs => exact current_handleEvent h event nowUs
  | setChromePressActive id => exact h.of_quiet ⟨rfl, rfl⟩
  | clearChromePress => exact h.of_quiet ⟨rfl, rfl⟩
  | call c =>
    cases c with
    | setActive active => exact current_setActive h active
    | setPaused paused => exact current_setPaused h paused
    | setColor rgba => exact h.of_quiet ⟨rfl, rfl⟩
    | clear => exact current_clear h
    | undoLast => exact current_undoLast h
    | setWindowEditorRegion pid x y w ht => exact current_setWindowEditorRegion h ..
    | setWindowScroll pid scrollX scrollY => exact current_setWindowScroll h ..
    | setChromeRegions regions => exact current_of_easel h.toTidy rfl
    | clearChromeRegions => exact current_of_easel h.toTidy rfl
    | stageSizeChanged width height => exact current_onStageSizeChanged h ..
    | windowFrameChanged win frame => exact current_windowFrameChanged h frame hop
    | windowMinimized win minimized =>
      exact current_onSignal h (hop.imp_right fun hsame => quiet_modifyWindow ⟨rfl, rfl⟩ hsame)
    | windowWorkspaceChanged win workspace onAll =>
      exact current_onSignal h (hop.imp_right fun hsame => quiet_modifyWindow ⟨rfl, rfl⟩ hsame)
    | windowHidden win hidden restacked => exact current_windowHidden h _ _ hop
    | windowManaged win data => exact current_windowManaged h data
    | windowUnmanaged win => exact current_windowUnmanaged h
    | windowFinalized win => exact current_windowFinalized h
    | restacked stacking => exact current_of_easel h.toTidy rfl
    | activeWorkspaceChanged workspace => exact current_of_easel h.toTidy rfl
    | recomposeIdle => exact current_recomposeIdleCb h

theorem current_new (display : MetaDisplay) (input : AnnotationInput K) (width height : ℤ) :
    Current (metaAnnotationLayerNew display input width height) := by
  refine current_onStageSizeChanged ⟨⟨fun _ _ => rfl, fun _ => rfl⟩, fun composite hcomposite => ?_⟩ ..
  simp [metaAnnotationLayerZero] at hcomposite

/-- Once the pending recompose has run, recomposing again changes nothing. -/
def UpToDate (layer : MetaAnnotationLayer K) : Prop :=
  layer.recomposeIdleCb.recompose.surface = layer.recomposeIdleCb.surface

omit [Scalar K] in
/-- Recomposing changes nothing when nothing is owed. -/
theorem recompose_of_settled (hdirty : layer.recomposeDirty = false) (hidle : layer.recomposeIdle = false)
    (h : Fresh layer) : layer.recompose.surface = layer.surface := by
  unfold recompose
  cases hsurface : layer.surface with
  | none => exact hsurface
  | some surface =>
    dsimp only
    split_ifs
    · rfl
    · have hfresh := h surface hsurface
      simp only [hdirty, hidle, Bool.false_eq_true, false_or] at hfresh
      simp [hfresh]

omit [Scalar K] in
theorem recompose_of_hidden (hhidden : (!layer.active || layer.paused) = true) :
    layer.recompose.surface = layer.surface := by
  unfold recompose
  cases hsurface : layer.surface with
  | none => exact hsurface
  | some surface => simp [hhidden]

omit [Scalar K] in
theorem upToDate_of_current (h : Current layer) : UpToDate layer := by
  have hcurrent := current_recomposeIdleCb h
  have hsettled : layer.recomposeIdleCb.recomposeIdle = false := by
    unfold recomposeIdleCb
    split_ifs with hidle
    · rw [recompose_eq]
    · simpa using hidle
  generalize hlayer' : layer.recomposeIdleCb = layer' at hcurrent hsettled
  rw [UpToDate, hlayer']
  cases hhidden : (!layer'.active || layer'.paused) with
  | true => exact recompose_of_hidden hhidden
  | false =>
    rw [Bool.or_eq_false_iff, Bool.not_eq_false'] at hhidden
    exact recompose_of_settled (hcurrent.shown hhidden.1 hhidden.2) hsettled hcurrent.fresh

/-- The composite is up to date in every state of a run in which what a window without
ink covers changes only announced. -/
theorem upToDate_of_announced (display : MetaDisplay) (input : AnnotationInput K)
    (width height : ℤ) (ops : List (LayerOp K))
    (hops : Along step Announced (metaAnnotationLayerNew display input width height) ops) :
    UpToDate (run step (metaAnnotationLayerNew display input width height) ops) :=
  upToDate_of_current (hops.invariant (P := Current) (fun _ _ h hop => current_step h hop)
    (current_new display input width height))

/-- Ink on a window, and a second window without ink beside it. -/
def inkedBeside : List (LayerOp ℚ) :=
  [.call (.setActive true), .handleEvent (.pen .buttonPress 1 1 1 true) 0,
    .handleEvent (.pen .motion 2 2 0 true) 1, .handleEvent (.pen .buttonRelease 2 2 1 false) 2,
    .call (.windowManaged 1 ⟨⟨6, 6, 3, 3⟩, false, false, false, .normal, true, none, 2, 0, 1⟩)]

theorem upToDate_of_announced_moved : UpToDate (run step (metaAnnotationLayerNew .oneWindow .initial 10 10)
    (inkedBeside ++ [.call .recomposeIdle, .call (.windowFrameChanged 0 ⟨5, 5, 5, 5⟩)])) := by
  refine upToDate_of_announced _ _ _ _ _ ⟨trivial, trivial, trivial, trivial, trivial, trivial, .inl ?_,
    trivial⟩
  decide +kernel

/-- The window without ink is moved over the ink. -/
theorem not_upToDate_covered : ¬ UpToDate (run step (metaAnnotationLayerNew .oneWindow .initial 10 10)
    (inkedBeside ++ [.call .recomposeIdle, .call (.windowFrameChanged 1 ⟨0, 0, 5, 5⟩)])) := by
  intro h
  have hlengths := congrArg (Option.map fun composite : Composite ℚ => (composite.pixel 1 1).length) h
  revert hlengths
  decide +kernel

end MetaAnnotationLayer

end Annotations
