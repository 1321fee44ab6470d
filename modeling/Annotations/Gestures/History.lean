import Annotations.Anchors.Pointers
import Annotations.Gestures.Recent

/-! Tap gestures. Which operations the layer takes for a tap, the gesture it then finds in
the history of taps, and what the gesture does to the history and to the ink. -/

namespace Annotations

variable {K : Type} [Scalar K]

/-! ### The history -/

/-- What a gesture clears. -/
inductive TapGesture where
  | all
  | canvas (c : Canvas)
  deriving DecidableEq

/-- The gesture that `check_tap_gestures` finds in a history. -/
def tapGesture (history : List TapRecord) : Option TapGesture :=
  if tapHistorySize ≤ history.length then some .all
  else
    match history.reverse with
    | c :: b :: a :: _ =>
      if a.anchor = b.anchor ∧ b.anchor = c.anchor ∧ c.timeUs - a.timeUs ≤ tripleTapWindowUs then
        some (.canvas c.anchor)
      else none
    | _ => none

/-- The history that `note_tap_release` checks: pruned at the time of the tap, with the tap appended. -/
def recordedTap (history : List TapRecord) (r : TapRecord) : List TapRecord :=
  let pruned := Recent.pruned TapRecord.timeUs quadTapWindowUs r.timeUs history
  (if pruned.length = tapHistorySize then pruned.tail else pruned) ++ [r]

namespace MetaAnnotationLayer

variable (layer : MetaAnnotationLayer K)

/-- What `check_tap_gestures` does on a gesture. -/
def perform : TapGesture → MetaAnnotationLayer K
  | .all => layer.clear.tapHistoryReset
  | .canvas c => (layer.clearInkForAnchor c).tapHistoryReset

omit [Scalar K] in
theorem checkTapGestures_eq : layer.checkTapGestures =
    match tapGesture layer.tapHistory with
    | some gesture => layer.perform gesture
    | none => layer := by
  unfold checkTapGestures tapGesture
  split_ifs with hfull
  · rfl
  · generalize layer.tapHistory.reverse = newest
    rcases newest with _ | ⟨c, _ | ⟨b, _ | ⟨a, rest⟩⟩⟩
    · rfl
    · rfl
    · rfl
    · dsimp only
      split_ifs <;> rfl

/-! ### Taps -/

/-- The tap that `note_tap_release` records at a release, if it counts as one. -/
def tapAt (stageX stageY : K) (nowUs : ℤ) : Option TapRecord :=
  if layer.pendingTap ∧ nowUs - layer.pendingTapPressUs ≤ tapMaxDurationUs ∧ ¬ layer.beyondTapRadius stageX stageY then
    some ⟨nowUs, layer.pendingTapAnchor⟩
  else none

/-- The event is a release that reaches `note_tap_release`. -/
def releases (event : ClutterEvent K) : Bool :=
  layer.takesEvents &&
    match event.type with
    | .buttonRelease => (layer.handleToolModifierPress event false).isNone
    | .touchEnd => true
    | _ => false

/-- The layer at a release, before the tap is looked at. -/
def releasing (event : ClutterEvent K) : MetaAnnotationLayer K :=
  if layer.strokeActive then layer.continueAt event else layer

/-- The tap that an operation adds. -/
def acceptedTap : LayerOp K → Option TapRecord
  | .handleEvent event nowUs =>
    if layer.releases event then (layer.releasing event).tapAt event.x event.y nowUs else none
  | _ => none

/-- The gesture that an operation completes. -/
def gestureAt (op : LayerOp K) : Option TapGesture :=
  (layer.acceptedTap op).bind fun r => tapGesture (recordedTap layer.tapHistory r)

variable {layer} {c : Canvas} {op : LayerOp K} {r : TapRecord} {gesture : TapGesture}

theorem pointers_releasing (event : ClutterEvent K) : (layer.releasing event).pointers = layer.pointers := by
  unfold releasing
  split_ifs
  · exact pointers_continueStroke ..
  · rfl

omit [Scalar K] in
theorem tapHistory_of_pointers {layer' : MetaAnnotationLayer K} (h : layer'.pointers = layer.pointers) :
    layer'.tapHistory = layer.tapHistory := congrArg Pointers.tapHistory h

omit [Scalar K] in
theorem tapHistory_perform : (layer.perform gesture).tapHistory = [] := by
  cases gesture <;> rfl

/-- A release that counts as a tap records it, and performs the gesture if there is one. -/
theorem noteTapRelease_of_tap {stageX stageY : K} {nowUs : ℤ} (h : layer.tapAt stageX stageY nowUs = some r) :
    layer.noteTapRelease stageX stageY nowUs =
      MetaAnnotationLayer.checkTapGestures { layer with
        pendingTap := false, tapHistory := recordedTap layer.tapHistory r } := by
  unfold tapAt at h
  split_ifs at h with htap
  obtain ⟨hpending, hshort, hnear⟩ := htap
  obtain rfl := Option.some.inj h
  have hnear' : (MetaAnnotationLayer.beyondTapRadius { layer with pendingTap := false } stageX stageY) = false :=
    eq_false_of_ne_true hnear
  unfold noteTapRelease
  simp only [hpending, Bool.not_true, Bool.false_eq_true, if_false, if_neg (not_lt.mpr hshort), hnear']
  rfl

/-- A release that does not count as a tap leaves all but the pending tap alone. -/
theorem noteTapRelease_of_none {stageX stageY : K} {nowUs : ℤ} (h : layer.tapAt stageX stageY nowUs = none) :
    layer.noteTapRelease stageX stageY nowUs = { layer with pendingTap := false } := by
  unfold tapAt at h
  unfold noteTapRelease
  cases hpending : layer.pendingTap with
  | false =>
    simp only [Bool.not_false, if_true]
    rw [← hpending]
  | true =>
    simp only [hpending, true_and, ite_eq_right_iff, reduceCtorEq, imp_false, not_and, not_not] at h
    simp only [Bool.not_true, Bool.false_eq_true, if_false]
    split_ifs with hlong hfar
    · rfl
    · rfl
    · exact absurd (h (not_lt.mp hlong)) hfar

theorem releaseAt_eq (event : ClutterEvent K) (nowUs : ℤ) :
    layer.releaseAt event nowUs = ((layer.releasing event).noteTapRelease event.x event.y nowUs).endStroke := rfl

theorem exec_of_releases {event : ClutterEvent K} {nowUs : ℤ} (h : layer.releases event) :
    layer.exec (.handleEvent event nowUs) = layer.releaseAt event nowUs := by
  simp only [releases, Bool.and_eq_true] at h
  obtain ⟨htakes, hrelease⟩ := h
  change (layer.handleEvent event nowUs).1 = _
  unfold handleEvent
  simp only [htakes, Bool.not_true, Bool.false_eq_true, if_false]
  cases htype : event.type with
  | buttonRelease =>
    rw [htype] at hrelease
    dsimp only
    unfold handleButtonRelease
    rw [Option.isNone_iff_eq_none.mp hrelease]
  | touchEnd => rfl
  | _ => simp [htype] at hrelease

/-- A tap is a release. -/
theorem exists_of_acceptedTap (h : layer.acceptedTap op = some r) : ∃ event nowUs, op = .handleEvent event nowUs ∧
    layer.releases event ∧ (layer.releasing event).tapAt event.x event.y nowUs = some r := by
  cases op with
  | handleEvent event nowUs =>
    change (if layer.releases event then (layer.releasing event).tapAt event.x event.y nowUs else none) = some r at h
    split_ifs at h with hreleases
    exact ⟨event, nowUs, rfl, hreleases, h⟩
  | _ => cases h

/-- A tap is stamped with the time of its release. -/
theorem timeUs_of_tapAt {stageX stageY : K} {nowUs : ℤ} (h : layer.tapAt stageX stageY nowUs = some r) :
    r.timeUs = nowUs := by
  unfold tapAt at h
  split_ifs at h
  rw [← Option.some.inj h]

omit [Scalar K] in
theorem tapHistory_endStroke : layer.endStroke.tapHistory = layer.tapHistory :=
  tapHistory_of_pointers pointers_scheduleRecompose

/-- After a tap the history holds it, unless a gesture has emptied it. -/
theorem tapHistory_exec_of_tap (h : layer.acceptedTap op = some r) : (layer.exec op).tapHistory =
    if (layer.gestureAt op).isSome then [] else recordedTap layer.tapHistory r := by
  have hgesture : layer.gestureAt op = tapGesture (recordedTap layer.tapHistory r) := by
    rw [gestureAt, h, Option.bind_some]
  obtain ⟨event, nowUs, rfl, hreleases, htap⟩ := exists_of_acceptedTap h
  have hhistory : (layer.releasing event).tapHistory = layer.tapHistory :=
    tapHistory_of_pointers (pointers_releasing event)
  rw [exec_of_releases hreleases, releaseAt_eq, tapHistory_endStroke, noteTapRelease_of_tap htap,
    checkTapGestures_eq, hgesture]
  simp only [hhistory]
  cases tapGesture (recordedTap layer.tapHistory r) with
  | none => rfl
  | some gesture => exact tapHistory_perform

/-! ### Operations that are no taps -/

theorem tapHistory_undoLast : layer.undoLast.tapHistory = layer.tapHistory := by
  unfold undoLast
  split_ifs
  · rfl
  · dsimp only
    split
    · exact (tapHistory_of_pointers pointers_scheduleRecompose).trans rfl
    · exact (tapHistory_of_pointers pointers_scheduleRecompose).trans rfl
    next s rest _ =>
      have hpopped : (((layer.severAt layer.lastInkAnchor).setCanvasStrokes layer.lastInkAnchor
          (s :: rest).dropLast).modifyCanvasSurface layer.lastInkAnchor fun surface =>
          rasterizeAllStrokesWithInk surface (s :: rest).dropLast
            ((layer.severAt layer.lastInkAnchor).anchorInk layer.lastInkAnchor)).pointers = layer.pointers :=
        (pointers_modifyCanvasSurface _).trans ((pointers_setCanvasStrokes _).trans pointers_severAt)
      rw [tapHistory_of_pointers pointers_scheduleRecompose]
      split_ifs
      · exact congrArg Pointers.tapHistory hpopped
      · exact congrArg Pointers.tapHistory hpopped

/-- Of all calls, only the end of a window touches the history. -/
theorem tapHistory_execCall (call : Call K) (hstay : ∀ win, call ≠ .windowUnmanaged win) :
    (layer.execCall call).tapHistory = layer.tapHistory := by
  cases call with
  | setActive active =>
    change (layer.setActive active).tapHistory = layer.tapHistory
    unfold setActive
    dsimp only
    rw [tapHistory_of_pointers pointers_updateActorVisibility]
    split_ifs <;> rfl
  | setPaused paused =>
    change (layer.setPaused paused).tapHistory = layer.tapHistory
    unfold setPaused
    dsimp only
    rw [tapHistory_of_pointers pointers_updateActorVisibility]
    split_ifs <;> rfl
  | setColor rgba => rfl
  | clear => exact congrArg Pointers.tapHistory pointers_clear
  | undoLast => exact tapHistory_undoLast
  | setWindowEditorRegion pid x y w h =>
    change (layer.setWindowEditorRegion pid x y w h).tapHistory = layer.tapHistory
    unfold setWindowEditorRegion
    dsimp only
    split_ifs
    · rfl
    · exact tapHistory_of_pointers
        (pointers_scheduleRecompose.trans (pointers_foldl (fun _ _ => pointers_setEditorRegionOf x y w h) _))
  | setWindowScroll pid scrollX scrollY =>
    change (layer.setWindowScroll pid scrollX scrollY).tapHistory = layer.tapHistory
    unfold setWindowScroll
    dsimp only
    split_ifs
    · rfl
    · exact tapHistory_of_pointers
        (pointers_scheduleRecompose.trans (pointers_foldl (fun _ _ => pointers_setScrollOf scrollX scrollY) _))
  | setChromeRegions regions => exact tapHistory_of_pointers pointers_scheduleRecompose
  | clearChromeRegions => exact tapHistory_of_pointers pointers_scheduleRecompose
  | stageSizeChanged width height => exact tapHistory_of_pointers pointers_onStageSizeChanged
  | windowFrameChanged win frame => exact tapHistory_of_pointers (pointers_windowFrameChanged frame)
  | windowMinimized win minimized =>
    exact tapHistory_of_pointers (pointers_onSignal fun _ => pointers_scheduleRecompose)
  | windowWorkspaceChanged win workspace onAll =>
    exact tapHistory_of_pointers (pointers_onSignal fun _ => pointers_scheduleRecompose)
  | windowHidden win hidden restacked =>
    change (layer.windowHidden win hidden restacked).tapHistory = layer.tapHistory
    unfold windowHidden
    dsimp only
    split_ifs
    · exact tapHistory_of_pointers pointers_scheduleRecompose
    · rfl
  | windowManaged win data =>
    change (layer.windowManaged win data).tapHistory = layer.tapHistory
    unfold windowManaged
    split_ifs
    · rfl
    · exact tapHistory_of_pointers pointers_scheduleRecompose
  | windowUnmanaged win => exact absurd rfl (hstay win)
  | windowFinalized win =>
    change (layer.windowFinalized win).tapHistory = layer.tapHistory
    unfold windowFinalized
    dsimp only
    split_ifs <;> rfl
  | restacked stacking => exact tapHistory_of_pointers pointers_scheduleRecompose
  | activeWorkspaceChanged workspace => exact tapHistory_of_pointers pointers_scheduleRecompose
  | recomposeIdle =>
    change (layer.recomposeIdleCb).tapHistory = layer.tapHistory
    unfold recomposeIdleCb
    split_ifs
    · exact tapHistory_of_pointers pointers_recompose
    · rfl

omit [Scalar K] in
theorem tapHistory_windowUnmanaged (win : WindowId) :
    (layer.windowUnmanaged win).tapHistory = layer.tapHistory ∨ (layer.windowUnmanaged win).tapHistory = [] := by
  unfold windowUnmanaged
  rw [onDisplayRestacked, tapHistory_of_pointers pointers_scheduleRecompose]
  change (layer.onSignal win (·.onWindowUnmanaged win)).tapHistory = layer.tapHistory ∨
    (layer.onSignal win (·.onWindowUnmanaged win)).tapHistory = []
  unfold onSignal
  split_ifs
  · have hwithout : (layer.onWindowUnmanaged win).tapHistory = (layer.pointers.without win).tapHistory :=
      congrArg Pointers.tapHistory pointers_onWindowUnmanaged
    rw [hwithout]
    unfold Pointers.without
    dsimp only
    split_ifs
    · exact .inr rfl
    · exact .inl rfl
  · exact .inl rfl

theorem tapHistory_beginStroke (x y : K) (pressure tiltFactor : Option K) (erase : Bool) :
    (layer.beginStroke x y pressure tiltFactor erase).tapHistory = layer.tapHistory := by
  have hpointers : (layer.beginStroke x y pressure tiltFactor erase).tapHistory =
      (if erase then layer.pointers
        else { layer.pointers with lastInkAnchor := layer.pickAnchorWindow x y, lastInkPresent := true }).tapHistory :=
    congrArg Pointers.tapHistory (pointers_beginStroke ..)
  rw [hpointers]
  split_ifs <;> rfl

theorem tapHistory_continued (event : ClutterEvent K) :
    ((layer.continueAt event).cancelTapBeyondRadius event).tapHistory = layer.tapHistory := by
  have hcontinue : (layer.continueAt event).tapHistory = layer.tapHistory :=
    tapHistory_of_pointers (pointers_continueStroke ..)
  unfold cancelTapBeyondRadius
  split_ifs <;> exact hcontinue

theorem tapHistory_releaseAt_of_none {event : ClutterEvent K} {nowUs : ℤ}
    (h : (layer.releasing event).tapAt event.x event.y nowUs = none) :
    (layer.releaseAt event nowUs).tapHistory = layer.tapHistory := by
  have hreleasing : (layer.releasing event).tapHistory = layer.tapHistory :=
    tapHistory_of_pointers (pointers_releasing event)
  rw [releaseAt_eq, tapHistory_endStroke, noteTapRelease_of_none h]
  exact hreleasing

theorem tapHistory_pressAt (event : ClutterEvent K) (nowUs : ℤ) :
    (layer.pressAt event nowUs).tapHistory = layer.tapHistory := tapHistory_beginStroke ..

/-- An event that adds no tap leaves the history alone. -/
theorem tapHistory_handleEvent {event : ClutterEvent K} {nowUs : ℤ}
    (h : layer.acceptedTap (.handleEvent event nowUs) = none) :
    (layer.handleEvent event nowUs).1.tapHistory = layer.tapHistory := by
  change (if layer.releases event then (layer.releasing event).tapAt event.x event.y nowUs else none) = none at h
  unfold handleEvent
  cases htakes : layer.takesEvents with
  | false => rfl
  | true =>
    simp only [releases, htakes, Bool.true_and] at h
    simp only [Bool.not_true, Bool.false_eq_true, if_false]
    cases htype : event.type with
    | buttonPress =>
      dsimp only
      unfold handleButtonPress
      split_ifs
      · rfl
      · split
        next _ hmodifier => exact tapHistory_of_pointers (pointers_handleToolModifierPress hmodifier)
        next => exact tapHistory_pressAt event nowUs
    | motion =>
      dsimp only
      unfold handleMotion
      dsimp only
      split_ifs
      · exact tapHistory_beginStroke ..
      · rfl
      · exact tapHistory_continued event
      · rw [tapHistory_endStroke]
        exact tapHistory_continued event
    | buttonRelease =>
      simp only [htype] at h
      dsimp only
      unfold handleButtonRelease
      split
      next _ hmodifier => exact tapHistory_of_pointers (pointers_handleToolModifierPress hmodifier)
      next hmodifier =>
        rw [hmodifier, Option.isNone_none, if_pos rfl] at h
        exact tapHistory_releaseAt_of_none h
    | touchBegin => exact tapHistory_pressAt event nowUs
    | touchUpdate =>
      dsimp only
      unfold handleTouchUpdate
      split_ifs
      · exact tapHistory_continued event
      · rfl
    | touchEnd =>
      simp only [htype, if_true] at h
      exact tapHistory_releaseAt_of_none h
    | touchCancel => exact tapHistory_endStroke
    | _ => rfl

/-- The end of a window may empty the history. -/
def unmanages : LayerOp K → Prop
  | .call (.windowUnmanaged _) => True
  | _ => False

theorem tapHistory_exec_of_quiet (htap : layer.acceptedTap op = none) (hstay : ¬ unmanages op) :
    (layer.exec op).tapHistory = layer.tapHistory := by
  cases op with
  | call call => exact tapHistory_execCall call fun win heq => hstay (heq ▸ trivial)
  | handleEvent event nowUs => exact tapHistory_handleEvent htap
  | setChromePressActive id => rfl
  | clearChromePress => rfl

theorem tapHistory_exec_of_unmanages (h : unmanages op) :
    (layer.exec op).tapHistory = layer.tapHistory ∨ (layer.exec op).tapHistory = [] := by
  cases op with
  | call call =>
    cases call with
    | windowUnmanaged win => exact tapHistory_windowUnmanaged win
    | _ => exact h.elim
  | _ => exact h.elim

end MetaAnnotationLayer

end Annotations
