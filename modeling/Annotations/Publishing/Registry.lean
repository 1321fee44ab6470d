import Annotations.Tracing.Following

/-! The registry: the windows of the display, the region and scroll that the layer keeps
for them, and the input record that its activation writes. Drawing never touches it; a
press or a region sets up the record of a window, and a region and a scroll write the
records of a process. -/

namespace Annotations

open Scalar (toFloat)

variable {K : Type}

namespace Frame

variable [Scalar K] (f : Frame K)

/-- The region that `SetWindowEditorRegion` leaves in a record: none when it is empty. -/
def withRegion (x y w h : ℤ) : Frame K :=
  if w ≤ 0 ∨ h ≤ 0 then
    { f with hasEditorRegion := false, editorX := 0, editorY := 0, editorW := 0, editorH := 0 }
  else
    { f with
      hasEditorRegion := true
      editorX := toFloat x
      editorY := toFloat y
      editorW := toFloat w
      editorH := toFloat h }

def withScroll (scrollX scrollY : ℤ) : Frame K := { f with scrollX := toFloat scrollX, scrollY := toFloat scrollY }

@[simp] theorem withRegion_withRegion (x y w h : ℤ) :
    (f.withRegion x y w h).withRegion x y w h = f.withRegion x y w h := by
  unfold withRegion
  split_ifs <;> rfl

@[simp] theorem withScroll_withScroll (scrollX scrollY : ℤ) :
    (f.withScroll scrollX scrollY).withScroll scrollX scrollY = f.withScroll scrollX scrollY := rfl

/-- A region and a scroll do not meet. -/
theorem withRegion_withScroll (x y w h scrollX scrollY : ℤ) :
    (f.withScroll scrollX scrollY).withRegion x y w h = (f.withRegion x y w h).withScroll scrollX scrollY := by
  unfold withRegion
  split_ifs <;> rfl

end Frame

/-- The record that `ensure_window_ink` leaves of a window with the given frame. -/
def recordOn [Scalar K] (rect : MtkRectangle) : Option (Frame K) → Option (Frame K)
  | some f => some f
  | none => if rect.width < 1 ∨ rect.height < 1 then none else some .blank

@[ext] structure Registry (K : Type) where
  display : MetaDisplay
  input : AnnotationInput K
  frame : WindowId → Option (Frame K)

namespace Registry

variable (r : Registry K)

def rect (win : WindowId) : MtkRectangle := (r.display.window win).frameRect

def pid (win : WindowId) : ℕ := (r.display.window win).pid

/-- Write the records of some windows. -/
def write (wins : List WindowId) (g : MtkRectangle → Option (Frame K) → Option (Frame K)) : Registry K :=
  { r with frame := fun win => if win ∈ wins then g (r.rect win) (r.frame win) else r.frame win }

/-- A press sets up the record of the window it picks. -/
def press [Scalar K] : Canvas → Registry K
  | none => r
  | some win => r.write [win] recordOn

def call [Scalar K] : Call K → Registry K
  | .setActive active => { r with input := r.input.setNonMousePointerIsolated active }
  | .setWindowEditorRegion pid x y w h =>
    r.write (r.display.collectWindowsForPid pid) fun rect f =>
      (recordOn rect f).map (·.withRegion x y w h)
  | .setWindowScroll pid scrollX scrollY =>
    r.write (r.display.collectWindowsForPid pid) fun _ f => f.map (·.withScroll scrollX scrollY)
  | .windowFrameChanged win frame =>
    { r with display := r.display.modifyWindow win fun w => { w with frameRect := frame } }
  | .windowMinimized win minimized =>
    { r with display := r.display.modifyWindow win fun w => { w with minimized := minimized } }
  | .windowWorkspaceChanged win workspace onAllWorkspaces =>
    { r with display := r.display.modifyWindow win fun w =>
        { w with workspace := workspace, onAllWorkspaces := onAllWorkspaces } }
  | .windowHidden win hidden _ =>
    { r with display := r.display.modifyWindow win fun w => { w with hidden := hidden } }
  | .windowManaged win data =>
    if win ∈ r.display.windows then r else { r with display := r.display.insertWindow win data }
  | .windowUnmanaged win =>
    { r with
      display := r.display.removeWindow win
      frame := Function.update r.frame win none }
  | .restacked stacking =>
    { r with display := { r.display with
        window := fun win => { r.display.window win with
          layer := (stacking win).1, stackPosition := (stacking win).2 } } }
  | .activeWorkspaceChanged workspace => { r with display := { r.display with activeWorkspace := workspace } }
  | _ => r

@[simp] theorem write_nil (g : MtkRectangle → Option (Frame K) → Option (Frame K)) : r.write [] g = r := by
  simp [write]

/-- Records are written one window after the other. -/
theorem foldl_write (wins : List WindowId) {g : MtkRectangle → Option (Frame K) → Option (Frame K)}
    (hg : ∀ rect f, g rect (g rect f) = g rect f) :
    wins.foldl (fun r win => r.write [win] g) r = r.write wins g := by
  induction wins generalizing r with
  | nil => exact (r.write_nil g).symm
  | cons win wins ih =>
    rw [List.foldl_cons, ih]
    refine Registry.ext rfl rfl (funext fun win' => ?_)
    simp only [write, List.mem_cons]
    by_cases hhead : win' = win <;> by_cases htail : win' ∈ wins <;> simp [hhead, htail, hg, rect]

end Registry

namespace MetaAnnotationLayer

def registry (layer : MetaAnnotationLayer K) : Registry K where
  display := layer.display
  input := layer.input
  frame := fun win => (layer.perWindow win).map WindowInk.frame

variable {layer layer' : MetaAnnotationLayer K} {c : Canvas} {win : WindowId}

/-! ### Drawing leaves the registry alone -/

theorem registry_modifyInk {f : WindowInk K → WindowInk K} (hf : ∀ ink, (f ink).frame = ink.frame) :
    (layer.modifyInk win f).registry = layer.registry := by
  refine Registry.ext rfl rfl (funext fun win' => ?_)
  by_cases hwin : win' = win
  · subst hwin
    cases hink : layer.perWindow win' <;> simp [registry, modifyInk, hink, hf]
  · simp [registry, modifyInk, hwin]

@[simp] theorem registry_setCanvasStrokes (strokes : List (Stroke K)) :
    (layer.setCanvasStrokes c strokes).registry = layer.registry := by
  cases c with
  | none => rfl
  | some win => exact registry_modifyInk fun _ => rfl

theorem registry_modifyCanvasSurface (f : Surface K → Surface K) :
    (layer.modifyCanvasSurface c f).registry = layer.registry := by
  cases c with
  | none => rfl
  | some win => exact registry_modifyInk fun _ => rfl

@[simp] theorem registry_scheduleRecompose : layer.scheduleRecompose.registry = layer.registry := by
  rw [scheduleRecompose_eq]
  rfl

@[simp] theorem registry_recompose : layer.recompose.registry = layer.registry := by
  rw [recompose_eq]
  rfl

@[simp] theorem registry_sealStroke (followScroll : Bool) :
    (layer.sealStroke followScroll).registry = layer.registry := rfl

@[simp] theorem registry_endStroke : layer.endStroke.registry = layer.registry := registry_scheduleRecompose

@[simp] theorem registry_clear : layer.clear.registry = layer.registry := by
  have hwipe : layer.wipe.registry = layer.registry :=
    Registry.ext rfl rfl (funext fun win => by
      cases hink : layer.perWindow win <;> simp [registry, wipe, hink, WindowInk.frame])
  exact registry_recompose.trans hwipe

@[simp] theorem registry_clearInkForAnchor : (layer.clearInkForAnchor c).registry = layer.registry := by
  unfold clearInkForAnchor
  rw [registry_scheduleRecompose]
  have hcleared : ((layer.setCanvasStrokes c []).modifyCanvasSurface c surfaceClear).registry = layer.registry :=
    (registry_modifyCanvasSurface _).trans (registry_setCanvasStrokes _)
  split_ifs <;> exact hcleared

theorem registry_checkTapGestures : layer.checkTapGestures.registry = layer.registry := by
  unfold checkTapGestures
  split_ifs
  · exact registry_clear
  · split
    · split_ifs
      · exact registry_clearInkForAnchor
      · rfl
    · rfl

theorem registry_updateActorVisibility : layer.updateActorVisibility.registry = layer.registry := by
  unfold updateActorVisibility
  split_ifs
  · exact registry_recompose
  · rfl
  · rfl

theorem registry_writeStroke (layer : MetaAnnotationLayer K) (addr : ℕ) (f : Stroke K → Stroke K) :
    (layer.writeStroke addr f).registry = layer.registry :=
  Registry.ext rfl rfl (funext fun win => by
    cases hink : layer.perWindow win <;> simp [registry, writeStroke, hink, WindowInk.frame])

variable [Scalar K]

theorem registry_noteTapRelease (x y : K) (nowUs : ℤ) :
    (layer.noteTapRelease x y nowUs).registry = layer.registry := by
  unfold noteTapRelease
  dsimp only
  split_ifs
  · rfl
  · rfl
  · rfl
  · exact registry_checkTapGestures

theorem registry_undoLast : layer.undoLast.registry = layer.registry := by
  have hsever : (layer.severAt layer.lastInkAnchor).registry = layer.registry := by
    unfold severAt
    split_ifs <;> rfl
  unfold undoLast
  dsimp only
  split_ifs
  · rfl
  · split
    · exact registry_scheduleRecompose
    · exact registry_scheduleRecompose
    · split_ifs <;> rw [registry_scheduleRecompose] <;>
        exact (registry_modifyCanvasSurface _).trans ((registry_setCanvasStrokes _).trans hsever)

@[simp] theorem registry_appendInkPoint (pt : InkPoint K) (followScroll : Bool) :
    (layer.appendInkPoint c pt followScroll).registry = layer.registry := by
  unfold appendInkPoint
  split
  · rfl
  next strokes _ =>
    have hopen : (layer.openStroke c strokes followScroll).registry = layer.registry :=
      registry_setCanvasStrokes _
    dsimp only
    split_ifs
    · split
      · exact hopen
      · exact (registry_writeStroke _ _ _).trans hopen
    · split
      · rfl
      · exact layer.registry_writeStroke _ _

theorem registry_continueStroke (x y : K) (pressure tiltFactor : Option K) (erase : Bool) :
    (layer.continueStroke x y pressure tiltFactor erase).registry = layer.registry := by
  have herase : ∀ x y p t : K, (layer.continueErase x y p t).registry = layer.registry := fun x y p t => by
    unfold continueErase
    dsimp only
    split
    · split_ifs
      · rw [registry_modifyCanvasSurface, registry_setCanvasStrokes]
        rfl
      · rfl
    · rfl
  have hink : ∀ x y p t : K, (layer.continueInk x y p t).registry = layer.registry := fun x y p t => by
    unfold continueInk
    dsimp only
    split
    · rw [registry_appendInkPoint]
      split_ifs
      · exact (registry_appendInkPoint _ _).trans (registry_modifyCanvasSurface _)
      · exact registry_modifyCanvasSurface _
    · rfl
  unfold continueStroke
  dsimp only
  rw [registry_scheduleRecompose]
  cases erase with
  | true => exact herase ..
  | false => exact hink ..

theorem registry_windowInkResizeToFrame : (layer.windowInkResizeToFrame win).registry = layer.registry := by
  unfold windowInkResizeToFrame
  dsimp only
  split_ifs
  · rfl
  · exact registry_modifyInk fun ink => by split_ifs <;> rfl

/-! ### What writes records -/

omit [Scalar K] in
/-- One record is written. -/
theorem registry_eq_write {g : MtkRectangle → Option (Frame K) → Option (Frame K)}
    (hdisplay : layer'.display = layer.display) (hinput : layer'.input = layer.input)
    (hothers : ∀ win', win' ≠ win → layer'.perWindow win' = layer.perWindow win')
    (hwin : layer'.registry.frame win = g (layer.frameRect win) (layer.registry.frame win)) :
    layer'.registry = layer.registry.write [win] g := by
  refine Registry.ext hdisplay hinput (funext fun win' => ?_)
  simp only [Registry.write, List.mem_singleton]
  split_ifs with hwin'
  · subst hwin'
    exact hwin
  · exact congrArg (Option.map WindowInk.frame) (hothers win' hwin')

/-- `ensure_window_ink` sets up a record where there is none. -/
theorem registry_ensureWindowInk :
    (layer.ensureWindowInk win).registry = layer.registry.write [win] recordOn := by
  have hdisplay : (layer.ensureWindowInk win).display = layer.display := by
    rw [ensureWindowInk_eq rfl rfl]
  have hinput : (layer.ensureWindowInk win).input = layer.input := by
    rw [ensureWindowInk_eq rfl rfl]
  refine registry_eq_write hdisplay hinput (fun win' hne => ?_) ?_
  · unfold ensureWindowInk
    split
    · rfl
    · dsimp only
      split_ifs
      · rfl
      · exact Function.update_of_ne hne _ _
  · cases hink : layer.perWindow win with
    | some ink => simp [registry, ensureWindowInk, recordOn, hink]
    | none =>
      by_cases hsize : (layer.frameRect win).width < 1 ∨ (layer.frameRect win).height < 1
      · simp only [registry, ensureWindowInk, recordOn, hink, if_pos hsize, Option.map_none]
      · simp only [registry, ensureWindowInk, recordOn, hink, if_neg hsize, Option.map_none,
          Function.update_self]
        rfl

omit [Scalar K] in
/-- The last lines of both loops write one record and may seal the stroke in flight. -/
theorem registry_writeInk {ink ink' : WindowInk K} {g : Frame K → Frame K} (hink : layer.perWindow win = some ink)
    (hframe : ink'.frame = g ink.frame) :
    (layer.modifyInk win fun _ => ink').registry = layer.registry.write [win] fun _ f => f.map g := by
  refine registry_eq_write rfl rfl (fun win' hne => Function.update_of_ne hne _ _) ?_
  simp [registry, modifyInk, hink, hframe]

theorem registry_setEditorRegionOf (x y w h : ℤ) : (layer.setEditorRegionOf x y w h win).registry =
    layer.registry.write [win] fun rect f => (recordOn rect f).map (·.withRegion x y w h) := by
  have hwritten : (layer.setEditorRegionOf x y w h win).registry =
      (layer.ensureWindowInk win).registry.write [win] fun _ f => f.map (·.withRegion x y w h) := by
    unfold setEditorRegionOf
    dsimp only
    generalize layer.ensureWindowInk win = ensured
    split
    next hnone =>
      exact registry_eq_write rfl rfl (fun _ _ => rfl) (by simp [registry, hnone])
    next ink hink =>
      generalize hregion : (if w ≤ 0 ∨ h ≤ 0 then _ else _ : WindowInk K) = region
      have hframe : region.frame = ink.frame.withRegion x y w h := by
        rw [← hregion]
        unfold Frame.withRegion
        split_ifs <;> rfl
      generalize hpainted : (if (ink.hasEditorRegion || region.hasEditorRegion) = true then _ else _ :
        WindowInk K) = painted
      have hsame : painted.frame = ink.frame.withRegion x y w h := by
        rw [← hpainted, ← hframe]
        split_ifs <;> rfl
      split_ifs
      · exact (registry_sealStroke _).trans (registry_writeInk hink hsame)
      · exact registry_writeInk hink hsame
  rw [hwritten, registry_ensureWindowInk]
  refine Registry.ext rfl rfl (funext fun win' => ?_)
  by_cases hwin : win' = win <;> simp [Registry.write, hwin]

theorem registry_setScrollOf (scrollX scrollY : ℤ) : (layer.setScrollOf scrollX scrollY win).registry =
    layer.registry.write [win] fun _ f => f.map (·.withScroll scrollX scrollY) := by
  unfold setScrollOf
  split
  next hnone => exact registry_eq_write rfl rfl (fun _ _ => rfl) (by simp [registry, hnone])
  next ink hink =>
    split_ifs with hsame
    · refine registry_eq_write rfl rfl (fun _ _ => rfl) ?_
      have hframe : ink.frame.withScroll scrollX scrollY = ink.frame := by
        simp [Frame.withScroll, WindowInk.frame, hsame.1, hsame.2]
      simp [registry, hink, hframe]
    · dsimp only
      split_ifs
      · exact (registry_sealStroke _).trans (registry_writeInk hink rfl)
      · exact registry_writeInk hink rfl

omit [Scalar K] in
/-- A loop over windows writes their records. -/
theorem registry_foldl {f : MetaAnnotationLayer K → WindowId → MetaAnnotationLayer K}
    {g : MtkRectangle → Option (Frame K) → Option (Frame K)}
    (hf : ∀ layer win, (f layer win).registry = layer.registry.write [win] g)
    (hg : ∀ rect o, g rect (g rect o) = g rect o) (wins : List WindowId) :
    (wins.foldl f layer).registry = layer.registry.write wins g := by
  rw [← Registry.foldl_write _ _ hg]
  induction wins generalizing layer with
  | nil => rfl
  | cons win wins ih => rw [List.foldl_cons, List.foldl_cons, ih, hf]

/-! ### Operations -/

omit [Scalar K] in
/-- A handler that leaves the registry alone may be connected or not. -/
theorem registry_onSignal {handler : MetaAnnotationLayer K → MetaAnnotationLayer K}
    (hhandler : ∀ layer, (handler layer).registry = layer.registry) :
    (layer.onSignal win handler).registry = layer.registry := by
  unfold onSignal
  split_ifs
  · exact hhandler layer
  · rfl

theorem registry_windowFrameChanged (frame : MtkRectangle) :
    (layer.windowFrameChanged win frame).registry = layer.registry.call (.windowFrameChanged win frame) := by
  have hmoved : ∀ layer : MetaAnnotationLayer K,
      (layer.onSignal win (·.onWindowPositionChanged)).registry = layer.registry :=
    fun _ => registry_onSignal fun _ => registry_scheduleRecompose
  have hsized : ∀ layer : MetaAnnotationLayer K,
      (layer.onSignal win (·.onWindowSizeChanged win)).registry = layer.registry :=
    fun _ => registry_onSignal fun _ => registry_scheduleRecompose.trans registry_windowInkResizeToFrame
  unfold windowFrameChanged
  dsimp only
  split_ifs
  · exact (hsized _).trans (hmoved _)
  · exact hsized _
  · exact hmoved _
  · rfl

theorem registry_windowManaged (data : MetaWindow) :
    (layer.windowManaged win data).registry = layer.registry.call (.windowManaged win data) := by
  have hcall : layer.registry.call (.windowManaged win data) =
      if win ∈ layer.display.windows then layer.registry
      else { layer.registry with display := layer.display.insertWindow win data } := rfl
  rw [hcall]
  unfold windowManaged
  split_ifs
  · rfl
  · exact registry_scheduleRecompose

omit [Scalar K] in
theorem registry_onWindowUnmanaged : (layer.onWindowUnmanaged win).registry =
    { layer.registry with frame := Function.update layer.registry.frame win none } := by
  have hperWindow : (layer.onWindowUnmanaged win).perWindow = Function.update layer.perWindow win none := by
    unfold onWindowUnmanaged
    dsimp only
    rw [scheduleRecompose_eq]
    split_ifs <;> rfl
  have hdisplay : (layer.onWindowUnmanaged win).display = layer.display := by
    unfold onWindowUnmanaged
    dsimp only
    rw [scheduleRecompose_eq]
    split_ifs <;> rfl
  have hinput : (layer.onWindowUnmanaged win).input = layer.input := by
    unfold onWindowUnmanaged
    dsimp only
    rw [scheduleRecompose_eq]
    split_ifs <;> rfl
  refine Registry.ext hdisplay hinput (funext fun win' => ?_)
  simp only [registry, hperWindow]
  by_cases hwin : win' = win <;> simp [hwin]

theorem registry_windowUnmanaged :
    (layer.windowUnmanaged win).registry = layer.registry.call (.windowUnmanaged win) := by
  have hsignal : (layer.onSignal win (·.onWindowUnmanaged win)).registry =
      { layer.registry with frame := Function.update layer.registry.frame win none } := by
    unfold onSignal
    split_ifs with hsome
    · exact registry_onWindowUnmanaged
    · have hnone : layer.registry.frame win = none := by simpa [registry] using hsome
      rw [← hnone, Function.update_eq_self]
  have hunmanaged : (layer.windowUnmanaged win).registry =
      { (layer.onSignal win (·.onWindowUnmanaged win)).registry with
        display := (layer.onSignal win (·.onWindowUnmanaged win)).registry.display.removeWindow win } :=
    registry_scheduleRecompose
  rw [hunmanaged, hsignal]
  rfl

theorem registry_setWindowEditorRegion (pid : ℕ) (x y w h : ℤ) :
    (layer.setWindowEditorRegion pid x y w h).registry =
      layer.registry.write (layer.display.collectWindowsForPid pid) fun rect f =>
        (recordOn rect f).map (·.withRegion x y w h) := by
  unfold setWindowEditorRegion
  dsimp only
  split_ifs with hempty
  · rw [List.isEmpty_iff.mp hempty, Registry.write_nil]
  · rw [registry_scheduleRecompose]
    exact registry_foldl (fun _ _ => registry_setEditorRegionOf x y w h) (fun rect f => by
      cases f <;> by_cases hsize : rect.width < 1 ∨ rect.height < 1 <;> simp [recordOn, hsize]) _

theorem registry_setWindowScroll (pid : ℕ) (scrollX scrollY : ℤ) :
    (layer.setWindowScroll pid scrollX scrollY).registry =
      layer.registry.write (layer.display.collectWindowsForPid pid) fun _ f =>
        f.map (·.withScroll scrollX scrollY) := by
  unfold setWindowScroll
  dsimp only
  split_ifs with hempty
  · rw [List.isEmpty_iff.mp hempty, Registry.write_nil]
  · rw [registry_scheduleRecompose]
    exact registry_foldl (fun _ _ => registry_setScrollOf scrollX scrollY) (fun _ f => by
      cases f <;> simp) _

/-- A call changes the registry as `Registry.call` says. -/
theorem registry_execCall (c : Call K) : (layer.execCall c).registry = layer.registry.call c := by
  cases c with
  | setActive active =>
    change (layer.setActive active).registry =
      { layer.registry with input := layer.registry.input.setNonMousePointerIsolated active }
    unfold setActive
    dsimp only
    rw [registry_updateActorVisibility]
    split_ifs <;> rfl
  | setPaused paused =>
    change (layer.setPaused paused).registry = layer.registry
    unfold setPaused
    dsimp only
    rw [registry_updateActorVisibility]
    split_ifs <;> rfl
  | setColor rgba => rfl
  | clear => exact registry_clear
  | undoLast => exact registry_undoLast
  | setWindowEditorRegion pid x y w h => exact registry_setWindowEditorRegion ..
  | setWindowScroll pid scrollX scrollY => exact registry_setWindowScroll ..
  | setChromeRegions regions => exact registry_scheduleRecompose
  | clearChromeRegions => exact registry_scheduleRecompose
  | stageSizeChanged width height =>
    change (layer.onStageSizeChanged width height).registry = layer.registry
    unfold onStageSizeChanged recreateBuffers
    dsimp only
    rw [registry_sealStroke]
    split_ifs
    · rfl
    · exact registry_scheduleRecompose
  | windowFrameChanged win frame => exact registry_windowFrameChanged frame
  | windowMinimized win minimized => exact registry_onSignal fun _ => registry_scheduleRecompose
  | windowWorkspaceChanged win workspace onAll => exact registry_onSignal fun _ => registry_scheduleRecompose
  | windowHidden win hidden restacked =>
    change (layer.windowHidden win hidden restacked).registry = _
    unfold windowHidden
    dsimp only
    split_ifs
    · exact registry_scheduleRecompose
    · rfl
  | windowManaged win data => exact registry_windowManaged data
  | windowUnmanaged win => exact registry_windowUnmanaged
  | windowFinalized win =>
    change (layer.windowFinalized win).registry = layer.registry
    unfold windowFinalized
    dsimp only
    split_ifs <;> rfl
  | restacked stacking => exact registry_scheduleRecompose
  | activeWorkspaceChanged workspace => exact registry_scheduleRecompose
  | recomposeIdle =>
    change (layer.recomposeIdleCb).registry = layer.registry
    unfold recomposeIdleCb
    split_ifs
    · exact registry_recompose
    · rfl

/-! ### Events -/

theorem registry_beginStroke (x y : K) (pressure tiltFactor : Option K) (erase : Bool) :
    (layer.beginStroke x y pressure tiltFactor erase).registry =
      layer.registry.press (layer.pickAnchorWindow x y) := by
  have hplaced : (layer.placeStroke x y pressure tiltFactor).registry =
      layer.registry.press (layer.pickAnchorWindow x y) := by
    unfold placeStroke
    dsimp only
    split
    next win hpick =>
      rw [hpick]
      exact registry_ensureWindowInk
    next hpick =>
      rw [hpick]
      rfl
  unfold beginStroke
  dsimp only
  split_ifs
  · exact hplaced
  · exact (registry_appendInkPoint _ _).trans hplaced

omit [Scalar K] in
theorem registry_handleToolModifierPress {event : ClutterEvent K} {pressed : Bool}
    (h : layer.handleToolModifierPress event pressed = some layer') : layer'.registry = layer.registry := by
  unfold handleToolModifierPress at h
  split_ifs at h
  · cases h
    rfl
  · cases h
    rfl

theorem registry_continueAt (event : ClutterEvent K) : (layer.continueAt event).registry = layer.registry :=
  registry_continueStroke ..

theorem registry_cancelTapBeyondRadius (event : ClutterEvent K) :
    (layer.cancelTapBeyondRadius event).registry = layer.registry := by
  unfold cancelTapBeyondRadius
  split_ifs <;> rfl

theorem registry_releaseAt (event : ClutterEvent K) (nowUs : ℤ) :
    (layer.releaseAt event nowUs).registry = layer.registry := by
  unfold releaseAt
  dsimp only
  rw [registry_endStroke, registry_noteTapRelease]
  split_ifs
  · exact registry_continueAt event
  · rfl

/-- An event that does not press leaves the registry alone. -/
theorem registry_handleEvent_of_not_begins {event : ClutterEvent K} {nowUs : ℤ}
    (hbegins : layer.begins event = false) : (layer.handleEvent event nowUs).1.registry = layer.registry := by
  have hcontinued : ((layer.continueAt event).cancelTapBeyondRadius event).registry = layer.registry :=
    (registry_cancelTapBeyondRadius event).trans (registry_continueAt event)
  unfold begins at hbegins
  unfold handleEvent
  cases htakes : layer.takesEvents with
  | false => rfl
  | true =>
    simp only [htakes, Bool.true_and, Bool.not_true, Bool.false_eq_true, if_false] at hbegins ⊢
    cases htype : event.type with
    | buttonPress =>
      simp only [htype] at hbegins
      dsimp only
      unfold handleButtonPress
      split_ifs with hbutton
      · rfl
      · split
        next layer' hmodifier => exact registry_handleToolModifierPress hmodifier
        next hmodifier =>
          rw [hmodifier, Option.isNone_none, Bool.and_true, Bool.not_eq_false', Bool.and_eq_true,
            decide_eq_true_eq] at hbegins
          exact absurd hbegins hbutton
    | motion =>
      simp only [htype] at hbegins
      dsimp only
      unfold handleMotion
      dsimp only
      split_ifs with hdown hpen
      · simp [hdown, hpen] at hbegins
      · rfl
      · exact hcontinued
      · exact registry_endStroke.trans hcontinued
    | buttonRelease =>
      dsimp only
      unfold handleButtonRelease
      split
      next layer' hmodifier => exact registry_handleToolModifierPress hmodifier
      next => exact registry_releaseAt event nowUs
    | touchBegin => simp [htype] at hbegins
    | touchUpdate =>
      dsimp only
      unfold handleTouchUpdate
      split_ifs
      · exact hcontinued
      · rfl
    | touchEnd => exact registry_releaseAt event nowUs
    | touchCancel => exact registry_endStroke
    | _ => rfl

/-- An event sets up the record of the window that a press picks. -/
theorem registry_handleEvent (event : ClutterEvent K) (nowUs : ℤ) :
    (layer.handleEvent event nowUs).1.registry =
      if layer.begins event then layer.registry.press (layer.pickAnchorWindow event.x event.y)
      else layer.registry := by
  split_ifs with hbegins
  · rcases handleEvent_of_begins nowUs hbegins with h | h
    · rw [h]
      exact registry_beginStroke ..
    · rw [h]
      exact registry_beginStroke ..
  · exact registry_handleEvent_of_not_begins (Bool.eq_false_iff.mpr hbegins)

end MetaAnnotationLayer

end Annotations
