import Annotations.Publishing.Carried

/-! The pointers to windows that the layer keeps outside its table of records: the undo
target, the pending tap and the history of taps. What each function does to them: most
leave them alone, some drop them, and only a press points at a window anew. -/

namespace Annotations

variable {K : Type}

/-- The pointers, with the flags that tell whether they mean anything. -/
@[ext] structure Pointers where
  lastInkAnchor : Canvas
  lastInkPresent : Bool
  pendingTap : Bool
  pendingTapAnchor : Canvas
  tapHistory : List TapRecord

namespace Pointers

variable (p : Pointers)

def forgetInk : Pointers := { p with lastInkAnchor := none, lastInkPresent := false }

def cancelTap : Pointers := { p with pendingTap := false }

/-- What is left when a window goes. -/
def without (win : WindowId) : Pointers where
  lastInkAnchor := if p.lastInkAnchor = some win then none else p.lastInkAnchor
  lastInkPresent := if p.lastInkAnchor = some win then false else p.lastInkPresent
  pendingTap := p.pendingTap && p.pendingTapAnchor ≠ some win
  pendingTapAnchor := p.pendingTapAnchor
  tapHistory := if p.tapHistory.any (·.anchor = some win) then [] else p.tapHistory

/-- No pointer is new: the undo target stays or is forgotten, and taps are taken from the
history or the pending one. -/
structure From (p q : Pointers) : Prop where
  lastInk : q.lastInkAnchor = p.lastInkAnchor ∧ q.lastInkPresent = p.lastInkPresent ∨
    q.lastInkAnchor = none ∧ q.lastInkPresent = false
  pending : q.pendingTap → p.pendingTap ∧ q.pendingTapAnchor = p.pendingTapAnchor
  history : ∀ t ∈ q.tapHistory, t ∈ p.tapHistory ∨ p.pendingTap ∧ t.anchor = p.pendingTapAnchor

variable {p} {q r : Pointers}

theorem From.refl : p.From p := ⟨.inl ⟨rfl, rfl⟩, fun h => ⟨h, rfl⟩, fun _ h => .inl h⟩

theorem From.of_eq (h : q = p) : p.From q := h ▸ From.refl

theorem From.trans (h : p.From q) (h' : q.From r) : p.From r where
  lastInk := by
    rcases h'.lastInk with ⟨hanchor, hpresent⟩ | hnone
    · exact h.lastInk.imp (fun hp => ⟨hanchor.trans hp.1, hpresent.trans hp.2⟩)
        fun hp => ⟨hanchor.trans hp.1, hpresent.trans hp.2⟩
    · exact .inr hnone
  pending hr := by
    obtain ⟨hq, hanchor⟩ := h'.pending hr
    obtain ⟨hp, hanchor'⟩ := h.pending hq
    exact ⟨hp, hanchor.trans hanchor'⟩
  history t ht := by
    rcases h'.history t ht with ht | ⟨hq, hanchor⟩
    · exact h.history t ht
    · obtain ⟨hp, hanchor'⟩ := h.pending hq
      exact .inr ⟨hp, hanchor.trans hanchor'⟩

theorem from_forgetInk : p.From p.forgetInk := ⟨.inr ⟨rfl, rfl⟩, fun h => ⟨h, rfl⟩, fun _ h => .inl h⟩

theorem from_cancelTap : p.From p.cancelTap := ⟨.inl ⟨rfl, rfl⟩, nofun, fun _ h => .inl h⟩

theorem from_without (win : WindowId) : p.From (p.without win) where
  lastInk := by
    simp only [without]
    split_ifs
    · exact .inr ⟨rfl, rfl⟩
    · exact .inl ⟨rfl, rfl⟩
  pending h := ⟨(Bool.and_eq_true _ _ ▸ h).1, rfl⟩
  history t ht := by
    simp only [without] at ht
    split_ifs at ht
    · cases ht
    · exact .inl ht

end Pointers

namespace MetaAnnotationLayer

def pointers (layer : MetaAnnotationLayer K) : Pointers :=
  ⟨layer.lastInkAnchor, layer.lastInkPresent, layer.pendingTap, layer.pendingTapAnchor, layer.tapHistory⟩

variable {layer layer' : MetaAnnotationLayer K} {c : Canvas} {win : WindowId}

/-! ### Functions that leave the pointers alone -/

@[simp] theorem pointers_scheduleRecompose : layer.scheduleRecompose.pointers = layer.pointers := by
  rw [scheduleRecompose_eq]
  rfl

@[simp] theorem pointers_recompose : layer.recompose.pointers = layer.pointers := by
  rw [recompose_eq]
  rfl

@[simp] theorem pointers_setCanvasStrokes (strokes : List (Stroke K)) :
    (layer.setCanvasStrokes c strokes).pointers = layer.pointers := by
  cases c <;> rfl

@[simp] theorem pointers_modifyCanvasSurface (f : Surface K → Surface K) :
    (layer.modifyCanvasSurface c f).pointers = layer.pointers := by
  cases c <;> rfl

@[simp] theorem pointers_updateActorVisibility : layer.updateActorVisibility.pointers = layer.pointers := by
  unfold updateActorVisibility
  split_ifs
  · exact pointers_recompose
  · rfl
  · rfl

theorem pointers_severAt : (layer.severAt c).pointers = layer.pointers := by
  unfold severAt
  split_ifs <;> rfl

theorem pointers_onSignal {handler : MetaAnnotationLayer K → MetaAnnotationLayer K}
    (h : ∀ layer, (handler layer).pointers = layer.pointers) :
    (layer.onSignal win handler).pointers = layer.pointers := by
  unfold onSignal
  split_ifs
  · exact h layer
  · rfl

theorem pointers_foldl {f : MetaAnnotationLayer K → WindowId → MetaAnnotationLayer K}
    (hf : ∀ layer win, (f layer win).pointers = layer.pointers) (wins : List WindowId) :
    (wins.foldl f layer).pointers = layer.pointers := by
  induction wins generalizing layer with
  | nil => rfl
  | cons win wins ih => rw [List.foldl_cons, ih, hf]

variable [Scalar K]

theorem pointers_onStageSizeChanged {width height : ℤ} :
    (layer.onStageSizeChanged width height).pointers = layer.pointers := by
  unfold onStageSizeChanged recreateBuffers
  dsimp only
  split_ifs
  · rfl
  · exact pointers_scheduleRecompose

theorem pointers_ensureWindowInk : (layer.ensureWindowInk win).pointers = layer.pointers := by
  rw [ensureWindowInk_eq rfl rfl]
  rfl

theorem pointers_setEditorRegionOf (x y w h : ℤ) : (layer.setEditorRegionOf x y w h win).pointers = layer.pointers := by
  unfold setEditorRegionOf
  dsimp only
  split
  · exact pointers_ensureWindowInk
  · split_ifs <;> exact pointers_ensureWindowInk

theorem pointers_setScrollOf (scrollX scrollY : ℤ) : (layer.setScrollOf scrollX scrollY win).pointers = layer.pointers := by
  unfold setScrollOf
  split
  · rfl
  · split_ifs
    · rfl
    · dsimp only
      split_ifs <;> rfl

theorem pointers_appendInkPoint (pt : InkPoint K) (followScroll : Bool) :
    (layer.appendInkPoint c pt followScroll).pointers = layer.pointers := by
  unfold appendInkPoint
  split
  · rfl
  next strokes _ =>
    have hopen : (layer.openStroke c strokes followScroll).pointers = layer.pointers := pointers_setCanvasStrokes _
    dsimp only
    split_ifs <;> split
    · exact hopen
    · exact hopen
    · rfl
    · rfl

theorem pointers_continueStroke (x y : K) (pressure tiltFactor : Option K) (erase : Bool) :
    (layer.continueStroke x y pressure tiltFactor erase).pointers = layer.pointers := by
  have herase : ∀ x y p t : K, (layer.continueErase x y p t).pointers = layer.pointers := fun x y p t => by
    unfold continueErase
    dsimp only
    split
    · split_ifs
      · rw [pointers_modifyCanvasSurface, pointers_setCanvasStrokes]
        rfl
      · rfl
    · rfl
  have hink : ∀ x y p t : K, (layer.continueInk x y p t).pointers = layer.pointers := fun x y p t => by
    unfold continueInk
    dsimp only
    split
    · rw [pointers_appendInkPoint]
      split_ifs
      · exact (pointers_appendInkPoint _ _).trans (pointers_modifyCanvasSurface _)
      · exact pointers_modifyCanvasSurface _
    · rfl
  unfold continueStroke
  dsimp only
  rw [pointers_scheduleRecompose]
  cases erase with
  | true => exact herase ..
  | false => exact hink ..

theorem pointers_windowFrameChanged (frame : MtkRectangle) :
    (layer.windowFrameChanged win frame).pointers = layer.pointers := by
  have hmoved : ∀ layer : MetaAnnotationLayer K,
      (layer.onSignal win (·.onWindowPositionChanged)).pointers = layer.pointers :=
    fun _ => pointers_onSignal fun _ => pointers_scheduleRecompose
  have hsized : ∀ layer : MetaAnnotationLayer K,
      (layer.onSignal win (·.onWindowSizeChanged win)).pointers = layer.pointers := fun _ =>
    pointers_onSignal fun layer => by
      rw [onWindowSizeChanged, pointers_scheduleRecompose]
      unfold windowInkResizeToFrame
      dsimp only
      split_ifs <;> rfl
  unfold windowFrameChanged
  dsimp only
  split_ifs
  · exact (hsized _).trans (hmoved _)
  · exact hsized _
  · exact hmoved _
  · rfl

/-! ### Functions that drop pointers -/

omit [Scalar K] in
theorem pointers_clear : layer.clear.pointers = layer.pointers.forgetInk := pointers_recompose

omit [Scalar K] in
theorem from_clearInkForAnchor : layer.pointers.From (layer.clearInkForAnchor c).pointers := by
  have hcleared : ((layer.setCanvasStrokes c []).modifyCanvasSurface c surfaceClear).pointers = layer.pointers :=
    (pointers_modifyCanvasSurface _).trans (pointers_setCanvasStrokes _)
  unfold clearInkForAnchor
  rw [pointers_scheduleRecompose]
  generalize (layer.setCanvasStrokes c []).modifyCanvasSurface c surfaceClear = cleared at hcleared
  rw [← hcleared]
  split_ifs
  · exact Pointers.from_forgetInk
  · exact .refl
  · exact Pointers.from_forgetInk
  · exact .refl

omit [Scalar K] in
theorem mem_tapHistoryPrune {t : TapRecord} {nowUs : ℤ} (h : t ∈ (layer.tapHistoryPrune nowUs).tapHistory) :
    t ∈ layer.tapHistory := (List.dropWhile_sublist _).subset h

omit [Scalar K] in
theorem mem_tapHistoryAppend {t : TapRecord} {nowUs : ℤ} (h : t ∈ (layer.tapHistoryAppend nowUs c).tapHistory) :
    t ∈ layer.tapHistory ∨ t.anchor = c := by
  unfold tapHistoryAppend at h
  rcases List.mem_append.mp h with h | h
  · split_ifs at h
    · exact .inl (List.mem_of_mem_tail h)
    · exact .inl h
  · exact .inr (by rw [List.mem_singleton.mp h])

/-- A tap that counts joins the history, which may be pruned, emptied or acted upon. -/
theorem from_noteTapRelease (x y : K) (nowUs : ℤ) :
    layer.pointers.From (layer.noteTapRelease x y nowUs).pointers := by
  have hreset : ∀ u : MetaAnnotationLayer K, u.pointers.From u.tapHistoryReset.pointers := fun u =>
    ⟨.inl ⟨rfl, rfl⟩, fun h => ⟨h, rfl⟩, fun _ h => by cases h⟩
  have hcheck : ∀ u : MetaAnnotationLayer K, u.pointers.From u.checkTapGestures.pointers := by
    intro u
    unfold checkTapGestures
    split_ifs
    · exact (Pointers.From.trans (.of_eq rfl) (pointers_clear ▸ Pointers.from_forgetInk)).trans (hreset _)
    · split
      · split_ifs
        · exact from_clearInkForAnchor.trans (hreset _)
        · exact .refl
      · exact .refl
  unfold noteTapRelease
  cases hpending : layer.pendingTap with
  | false => exact .refl
  | true =>
    dsimp only
    split_ifs
    · exact .refl
    · exact Pointers.from_cancelTap
    · exact Pointers.from_cancelTap
    · refine Pointers.From.trans ?_ (hcheck _)
      refine ⟨.inl ⟨rfl, rfl⟩, nofun, fun t ht => ?_⟩
      rcases mem_tapHistoryAppend ht with ht | ht
      · exact .inl (mem_tapHistoryPrune ht)
      · exact .inr ⟨hpending, ht⟩

theorem from_undoLast : layer.pointers.From layer.undoLast.pointers := by
  unfold undoLast
  split_ifs
  · exact .refl
  · dsimp only
    split
    · rw [pointers_scheduleRecompose]
      exact Pointers.from_forgetInk
    · rw [pointers_scheduleRecompose]
      exact Pointers.from_forgetInk
    · have hpopped : ∀ (strokes : List (Stroke K)) (f : Surface K → Surface K),
          (((layer.severAt layer.lastInkAnchor).setCanvasStrokes layer.lastInkAnchor strokes).modifyCanvasSurface
            layer.lastInkAnchor f).pointers = layer.pointers := fun strokes f =>
        (pointers_modifyCanvasSurface _).trans ((pointers_setCanvasStrokes _).trans pointers_severAt)
      rw [pointers_scheduleRecompose]
      split_ifs
      · refine Pointers.From.trans (.of_eq (hpopped _ _)) Pointers.from_forgetInk
      · exact .of_eq (hpopped _ _)

omit [Scalar K] in
theorem pointers_onWindowUnmanaged : (layer.onWindowUnmanaged win).pointers = layer.pointers.without win := by
  have hsealed : (if layer.strokeAnchor = some win then layer.sealStroke layer.strokeFollowScroll else layer).pointers =
      layer.pointers := by
    split_ifs <;> rfl
  unfold onWindowUnmanaged
  dsimp only
  rw [pointers_scheduleRecompose, ← hsealed]
  generalize (if layer.strokeAnchor = some win then _ else _ : MetaAnnotationLayer K) = stroke
  have hsame : stroke.pointers.lastInkAnchor = stroke.lastInkAnchor := rfl
  unfold Pointers.without
  rw [hsame]
  by_cases hlast : stroke.lastInkAnchor = some win
  · rw [if_pos hlast, if_pos hlast, if_pos hlast]
    rfl
  · rw [if_neg hlast, if_neg hlast, if_neg hlast]
    rfl

/-- No call points at a window anew. Those of a window that goes are dropped with it. -/
theorem from_execCall (call : Call K) (hfinal : ∀ win, call ≠ .windowFinalized win) :
    layer.pointers.From (layer.execCall call).pointers := by
  cases call with
  | setActive active =>
    change layer.pointers.From (layer.setActive active).pointers
    unfold setActive
    dsimp only
    rw [pointers_updateActorVisibility]
    split_ifs
    · exact .refl
    · exact Pointers.from_forgetInk
  | setPaused paused =>
    change layer.pointers.From (layer.setPaused paused).pointers
    unfold setPaused
    dsimp only
    rw [pointers_updateActorVisibility]
    split_ifs <;> exact .refl
  | setColor rgba => exact .refl
  | clear => exact pointers_clear ▸ Pointers.from_forgetInk
  | undoLast => exact from_undoLast
  | setWindowEditorRegion pid x y w h =>
    change layer.pointers.From (layer.setWindowEditorRegion pid x y w h).pointers
    unfold setWindowEditorRegion
    dsimp only
    split_ifs
    · exact .refl
    · exact .of_eq (pointers_scheduleRecompose.trans (pointers_foldl (fun _ _ => pointers_setEditorRegionOf x y w h) _))
  | setWindowScroll pid scrollX scrollY =>
    change layer.pointers.From (layer.setWindowScroll pid scrollX scrollY).pointers
    unfold setWindowScroll
    dsimp only
    split_ifs
    · exact .refl
    · exact .of_eq (pointers_scheduleRecompose.trans (pointers_foldl (fun _ _ => pointers_setScrollOf scrollX scrollY) _))
  | setChromeRegions regions => exact .of_eq pointers_scheduleRecompose
  | clearChromeRegions => exact .of_eq pointers_scheduleRecompose
  | stageSizeChanged width height =>
    exact .of_eq pointers_onStageSizeChanged
  | windowFrameChanged win frame => exact .of_eq (pointers_windowFrameChanged frame)
  | windowMinimized win minimized => exact .of_eq (pointers_onSignal fun _ => pointers_scheduleRecompose)
  | windowWorkspaceChanged win workspace onAll => exact .of_eq (pointers_onSignal fun _ => pointers_scheduleRecompose)
  | windowHidden win hidden restacked =>
    change layer.pointers.From (layer.windowHidden win hidden restacked).pointers
    unfold windowHidden
    dsimp only
    split_ifs
    · exact .of_eq pointers_scheduleRecompose
    · exact .refl
  | windowManaged win data =>
    change layer.pointers.From (layer.windowManaged win data).pointers
    unfold windowManaged
    split_ifs
    · exact .refl
    · exact .of_eq pointers_scheduleRecompose
  | windowUnmanaged win =>
    change layer.pointers.From (layer.windowUnmanaged win).pointers
    unfold windowUnmanaged
    dsimp only
    rw [onDisplayRestacked, pointers_scheduleRecompose]
    unfold onSignal
    split_ifs
    · exact pointers_onWindowUnmanaged ▸ Pointers.from_without win
    · exact .refl
  | windowFinalized win => exact absurd rfl (hfinal win)
  | restacked stacking => exact .of_eq pointers_scheduleRecompose
  | activeWorkspaceChanged workspace => exact .of_eq pointers_scheduleRecompose
  | recomposeIdle =>
    change layer.pointers.From (layer.recomposeIdleCb).pointers
    unfold recomposeIdleCb
    split_ifs
    · exact .of_eq pointers_recompose
    · exact .refl

/-! ### Events -/

/-- A press that inks makes its window the undo target. -/
theorem pointers_beginStroke (x y : K) (pressure tiltFactor : Option K) (erase : Bool) :
    (layer.beginStroke x y pressure tiltFactor erase).pointers =
      if erase then layer.pointers
      else { layer.pointers with lastInkAnchor := layer.pickAnchorWindow x y, lastInkPresent := true } := by
  have hplaced : (layer.placeStroke x y pressure tiltFactor).pointers = layer.pointers := by
    unfold placeStroke
    dsimp only
    split
    · rw [ensureWindowInk_eq rfl rfl]
      rfl
    · rfl
  unfold beginStroke
  dsimp only
  split_ifs
  · exact hplaced
  · rw [pointers_appendInkPoint, ← placeStroke_strokeAnchor x y pressure tiltFactor, ← hplaced]
    rfl

theorem from_cancelTapBeyondRadius (event : ClutterEvent K) :
    layer.pointers.From (layer.cancelTapBeyondRadius event).pointers := by
  unfold cancelTapBeyondRadius
  split_ifs
  · exact Pointers.from_cancelTap
  · exact .refl

theorem from_releaseAt (event : ClutterEvent K) (nowUs : ℤ) :
    layer.pointers.From (layer.releaseAt event nowUs).pointers := by
  unfold releaseAt
  dsimp only
  have hend : ∀ u : MetaAnnotationLayer K, u.endStroke.pointers = u.pointers := fun _ => pointers_scheduleRecompose
  rw [hend]
  split_ifs
  · exact Pointers.From.trans (.of_eq (pointers_continueStroke ..)) (from_noteTapRelease ..)
  · exact from_noteTapRelease ..

omit [Scalar K] in
theorem pointers_handleToolModifierPress {event : ClutterEvent K} {pressed : Bool}
    (h : layer.handleToolModifierPress event pressed = some layer') : layer'.pointers = layer.pointers := by
  unfold handleToolModifierPress at h
  split_ifs at h
  · cases h
    rfl
  · cases h
    rfl

/-- An event that does not press points at no window anew. -/
theorem from_handleEvent_of_not_begins {event : ClutterEvent K} {nowUs : ℤ} (hbegins : layer.begins event = false) :
    layer.pointers.From (layer.handleEvent event nowUs).1.pointers := by
  have hcontinued : layer.pointers.From ((layer.continueAt event).cancelTapBeyondRadius event).pointers :=
    Pointers.From.trans (.of_eq (pointers_continueStroke ..)) (from_cancelTapBeyondRadius event)
  have hend : ∀ u : MetaAnnotationLayer K, u.endStroke.pointers = u.pointers := fun _ => pointers_scheduleRecompose
  unfold begins at hbegins
  unfold handleEvent
  cases htakes : layer.takesEvents with
  | false => exact .refl
  | true =>
    simp only [htakes, Bool.true_and, Bool.not_true, Bool.false_eq_true, if_false] at hbegins ⊢
    cases htype : event.type with
    | buttonPress =>
      simp only [htype] at hbegins
      dsimp only
      unfold handleButtonPress
      split_ifs with hbutton
      · exact .refl
      · split
        next layer' hmodifier => exact .of_eq (pointers_handleToolModifierPress hmodifier)
        next hmodifier =>
          rw [hmodifier, Option.isNone_none, Bool.and_true, Bool.not_eq_false', Bool.and_eq_true,
            decide_eq_true_eq] at hbegins
          exact absurd hbegins hbutton
    | motion =>
      simp only [htype] at hbegins
      dsimp only
      unfold handleMotion
      dsimp only
      split_ifs with hdown hpen
      · simp [hdown, hpen] at hbegins
      · exact .refl
      · exact hcontinued
      · rw [hend]
        exact hcontinued
    | buttonRelease =>
      dsimp only
      unfold handleButtonRelease
      split
      next layer' hmodifier => exact .of_eq (pointers_handleToolModifierPress hmodifier)
      next => exact from_releaseAt event nowUs
    | touchBegin => simp [htype] at hbegins
    | touchUpdate =>
      dsimp only
      unfold handleTouchUpdate
      split_ifs
      · exact hcontinued
      · exact .refl
    | touchEnd => exact from_releaseAt event nowUs
    | touchCancel =>
      change layer.pointers.From layer.cancelTapPending.endStroke.pointers
      rw [hend]
      exact Pointers.from_cancelTap
    | _ => exact .refl

end MetaAnnotationLayer

end Annotations
