import Annotations.Composite.Freshness
import Annotations.Ink.InFlight

/-! No recompose is lost. What changes a canvas, the chrome regions or the stage buffer
leaves the idle source or the dirty flag behind, and these trade places until a compose
completes. -/

namespace Annotations

open Runs

variable {K : Type}

/-- The canvases, the chrome regions and the stage buffer. -/
structure Content (K : Type) where
  canvasAt : Canvas → ℤ → ℤ → Pixel K
  chromeRegions : List ChromeRegion
  stageWidth : ℤ
  stageHeight : ℤ
  surface : Option (Composite K)

namespace MetaAnnotationLayer

def content (layer : MetaAnnotationLayer K) : Content K :=
  ⟨layer.canvasAt, layer.chromeRegions, layer.stageWidth, layer.stageHeight, layer.surface⟩

/-- A recompose is pending, if there is anything to compose on. -/
def Owed (layer : MetaAnnotationLayer K) : Prop :=
  layer.surface.isSome → layer.recomposeIdle ∨ layer.recomposeDirty

/-- The layer can compose. -/
def Composable (layer : MetaAnnotationLayer K) : Prop :=
  layer.surface.isSome ∧ layer.active ∧ layer.paused = false

/-- The operation ends with a compose that completes. The compose of a triple tap does
not count: the end of the stroke schedules another one after it. -/
def Composes (layer : MetaAnnotationLayer K) : LayerOp K → Prop
  | .call .recomposeIdle => layer.recomposeIdle ∧ layer.Composable
  | .call .clear => layer.Composable
  | .call (.setActive active) =>
    layer.recomposeDirty ∧ Composable { layer with active := active }
  | .call (.setPaused paused) =>
    layer.recomposeDirty ∧ Composable { layer with paused := paused }
  | _ => False

/-- The dirty flag is for a layer that has a surface. -/
def Backed (layer : MetaAnnotationLayer K) : Prop := layer.recomposeDirty → layer.surface.isSome

/-- Either nothing changes, and what is owed stays so, or a recompose is owed. -/
structure Minds (layer layer' : MetaAnnotationLayer K) : Prop where
  owed : layer'.content = layer.content ∧ (layer.Owed → layer'.Owed) ∨ layer'.Owed
  backed : layer.Backed → layer'.Backed

variable {layer layer' layer'' : MetaAnnotationLayer K} {win : WindowId} {c : Canvas}

theorem Minds.trans (h : Minds layer layer') (h' : Minds layer' layer'') : Minds layer layer'' := by
  refine ⟨?_, h'.backed ∘ h.backed⟩
  rcases h'.owed with ⟨hcontent', howed'⟩ | howed'
  · rcases h.owed with ⟨hcontent, howed⟩ | howed
    · exact .inl ⟨hcontent'.trans hcontent, howed' ∘ howed⟩
    · exact .inr (howed' howed)
  · exact .inr howed'

theorem minds_of_same (hcontent : layer'.content = layer.content) (hdirty : layer'.recomposeDirty = layer.recomposeDirty)
    (hidle : layer'.recomposeIdle = layer.recomposeIdle) : Minds layer layer' := by
  have hsurface : layer'.surface = layer.surface := congrArg Content.surface hcontent
  refine ⟨.inl ⟨hcontent, fun howed => ?_⟩, fun hbacked => ?_⟩
  · rwa [Owed, hsurface, hidle, hdirty]
  · rwa [Backed, hsurface, hdirty]

theorem Minds.refl : Minds layer layer := minds_of_same rfl rfl rfl

theorem minds_of_quiet (h : Quiet layer layer') : Minds layer layer' := by
  obtain ⟨_, _, hsurface, hdirty, hidle⟩ := Easel.mk.inj h.easel
  obtain ⟨_, hwidth, hheight, hchrome, hcanvas⟩ := Picture.mk.inj h.picture
  refine minds_of_same ?_ hdirty hidle
  rw [content, hcanvas, hchrome, hwidth, hheight, hsurface, content]

theorem Backed.of_easel (h : layer.Backed) (heasel : layer'.easel = layer.easel) : layer'.Backed := by
  obtain ⟨_, _, hsurface, hdirty, _⟩ := Easel.mk.inj heasel
  rwa [Backed, hsurface, hdirty]

/-! ### Scheduling and recomposing -/

theorem owed_scheduleRecompose : layer.scheduleRecompose.Owed := by
  intro hsurface
  unfold scheduleRecompose at hsurface ⊢
  split_ifs at hsurface ⊢ with hnone hhidden
  · rw [Option.isNone_iff_eq_none.mp hnone] at hsurface
    cases hsurface
  · exact .inr rfl
  · exact .inl rfl

theorem backed_scheduleRecompose (h : layer.Backed) : layer.scheduleRecompose.Backed := by
  unfold scheduleRecompose
  split_ifs with hnone
  · exact h
  · exact fun _ => Option.isSome_iff_ne_none.mpr fun hsurface => hnone (Option.isNone_iff_eq_none.mpr hsurface)
  · exact h

/-- What is scheduled is minded, whatever it was. -/
theorem minds_scheduleRecompose (heasel : layer'.easel = layer.easel) : Minds layer layer'.scheduleRecompose :=
  ⟨.inr owed_scheduleRecompose, fun hbacked => backed_scheduleRecompose (hbacked.of_easel heasel)⟩

theorem backed_recompose (h : layer.Backed) : layer.recompose.Backed := by
  unfold recompose
  cases hsurface : layer.surface with
  | none => exact h
  | some surface =>
    dsimp only
    split_ifs
    · exact fun _ => rfl
    · exact fun _ => rfl

/-- A compose that does not complete is owed. -/
theorem owed_recompose (h : ¬ layer.Composable) : layer.recompose.Owed := by
  intro hsurface
  unfold recompose at hsurface ⊢
  cases hnone : layer.surface with
  | none => simp [hnone] at hsurface
  | some surface =>
    have hhidden : (!layer.active || layer.paused) = true := by
      by_contra hlive
      simp only [Bool.not_eq_true, Bool.or_eq_false_iff, Bool.not_eq_false'] at hlive
      exact h ⟨by simp [hnone], hlive⟩
    dsimp only
    rw [if_pos hhidden]
    exact .inr rfl

theorem minds_updateActorVisibility (h : ¬ (layer.recomposeDirty ∧ layer.Composable)) :
    Minds layer layer.updateActorVisibility := by
  unfold updateActorVisibility
  cases hlive : (layer.active && !layer.paused) with
  | false => exact minds_of_same rfl rfl rfl
  | true =>
    cases hdirty : layer.recomposeDirty with
    | false =>
      dsimp only
      rw [if_pos rfl, if_neg Bool.false_ne_true]
      exact minds_of_same rfl rfl rfl
    | true =>
      have howed : layer.dropIdle.recompose.Owed := owed_recompose fun hcomposable => h ⟨hdirty, hcomposable⟩
      have hbacked : layer.Backed → layer.dropIdle.recompose.Backed := fun hbacked => backed_recompose hbacked
      exact ⟨.inr howed, hbacked⟩

theorem minds_setDisplay (display : MetaDisplay) : Minds layer (layer.setDisplay display) := minds_of_same rfl rfl rfl

theorem minds_onSignal {handler : MetaAnnotationLayer K → MetaAnnotationLayer K}
    (h : ∀ layer, Minds layer (handler layer)) : Minds layer (layer.onSignal win handler) := by
  unfold onSignal
  split_ifs
  · exact h layer
  · exact .refl

/-! ### Events -/

theorem backed_clear (h : layer.Backed) : layer.clear.Backed := by
  refine backed_recompose fun hdirty => ?_
  have hwiped : (layer.surface.map Composite.clear).isSome := by rw [Option.isSome_map, h hdirty]
  exact hwiped

theorem backed_clearInkForAnchor (h : layer.Backed) : (layer.clearInkForAnchor c).Backed := by
  unfold clearInkForAnchor
  refine backed_scheduleRecompose (h.of_easel ?_)
  split_ifs <;> exact (easel_modifyCanvasSurface _).trans (quiet_setCanvasStrokes _).easel

theorem backed_noteTapRelease [Scalar K] (h : layer.Backed) (x y : K) (nowUs : ℤ) :
    (layer.noteTapRelease x y nowUs).Backed := by
  have hcheck : ∀ layer : MetaAnnotationLayer K, layer.Backed → layer.checkTapGestures.Backed := by
    intro layer h
    unfold checkTapGestures
    split_ifs
    · exact (backed_clear h).of_easel rfl
    · split
      · split_ifs
        · exact (backed_clearInkForAnchor h).of_easel rfl
        · exact h
      · exact h
  unfold noteTapRelease
  dsimp only
  split_ifs
  · exact h
  · exact h.of_easel rfl
  · exact h.of_easel rfl
  · exact hcheck _ (h.of_easel rfl)

variable [Scalar K]

theorem minds_continueAt (event : ClutterEvent K) : Minds layer (layer.continueAt event) := by
  unfold continueAt continueStroke
  refine minds_scheduleRecompose ?_
  cases layer.eraseIsActive event with
  | true => exact easel_continueErase ..
  | false => exact easel_continueInk ..

/-- An event that changes a canvas schedules. -/
theorem minds_handleEvent (event : ClutterEvent K) (nowUs : ℤ) : Minds layer (layer.handleEvent event nowUs).1 := by
  have hend : ∀ layer : MetaAnnotationLayer K, Minds layer layer.endStroke := fun _ => minds_scheduleRecompose rfl
  have hcontinue : Minds layer ((layer.continueAt event).cancelTapBeyondRadius event) := by
    refine (minds_continueAt event).trans ?_
    unfold cancelTapBeyondRadius
    split_ifs
    · exact minds_of_same rfl rfl rfl
    · exact .refl
  have hpress : Minds layer (layer.pressAt event nowUs) :=
    minds_of_quiet ((quiet_beginStroke ..).trans ⟨rfl, rfl⟩)
  have hrelease : Minds layer (layer.releaseAt event nowUs) := by
    refine ⟨.inr owed_scheduleRecompose, fun hbacked => ?_⟩
    unfold releaseAt
    dsimp only
    refine (hend _).backed (backed_noteTapRelease ?_ event.x event.y nowUs)
    split_ifs
    · exact (minds_continueAt event).backed hbacked
    · exact hbacked
  unfold handleEvent
  split_ifs
  · exact .refl
  · cases event.type with
    | buttonPress =>
      dsimp only [handleButtonPress]
      split_ifs
      · exact .refl
      · split
        next hmodifier => exact minds_of_quiet (quiet_handleToolModifierPress hmodifier)
        · exact hpress
    | motion =>
      dsimp only [handleMotion]
      split_ifs
      · exact minds_of_quiet ((quiet_beginStroke ..).trans ⟨rfl, rfl⟩)
      · exact .refl
      · exact hcontinue
      · exact hcontinue.trans (hend _)
    | buttonRelease =>
      dsimp only [handleButtonRelease]
      split
      next hmodifier => exact minds_of_quiet (quiet_handleToolModifierPress hmodifier)
      · exact hrelease
    | touchBegin => exact hpress
    | touchUpdate =>
      dsimp only [handleTouchUpdate]
      split_ifs
      · exact hcontinue
      · exact .refl
    | touchEnd => exact hrelease
    | touchCancel =>
      have hcancelled : Minds layer layer.cancelTapPending := minds_of_same rfl rfl rfl
      exact hcancelled.trans (hend _)
    | _ => exact .refl

/-! ### Calls -/

theorem minds_undoLast : Minds layer layer.undoLast := by
  have hsever : (layer.severAt layer.lastInkAnchor).easel = layer.easel := by
    unfold severAt
    split_ifs <;> rfl
  unfold undoLast
  split_ifs
  · exact .refl
  · dsimp only
    split
    · exact minds_scheduleRecompose rfl
    · exact minds_scheduleRecompose rfl
    · refine minds_scheduleRecompose ?_
      split_ifs <;> exact (easel_modifyCanvasSurface _).trans ((quiet_setCanvasStrokes _).easel.trans hsever)

theorem minds_windowFrameChanged (frame : MtkRectangle) : Minds layer (layer.windowFrameChanged win frame) := by
  have hmoved : ∀ layer : MetaAnnotationLayer K, Minds layer (layer.onSignal win (·.onWindowPositionChanged)) :=
    fun _ => minds_onSignal fun _ => minds_scheduleRecompose rfl
  have hsized : ∀ layer : MetaAnnotationLayer K, Minds layer (layer.onSignal win (·.onWindowSizeChanged win)) :=
    fun _ => minds_onSignal fun _ => minds_scheduleRecompose easel_windowInkResizeToFrame
  have hset : Minds layer (layer.setDisplay
      (layer.display.modifyWindow win fun w => { w with frameRect := frame })) := minds_setDisplay _
  unfold windowFrameChanged
  dsimp only
  split_ifs
  · exact (hset.trans (hmoved _)).trans (hsized _)
  · exact hset.trans (hsized _)
  · exact hset.trans (hmoved _)
  · exact hset

omit [Scalar K] in
theorem minds_windowUnmanaged : Minds layer (layer.windowUnmanaged win) := by
  have hhandled : Minds layer (layer.onSignal win (·.onWindowUnmanaged win)) := by
    refine minds_onSignal fun layer => ?_
    unfold onWindowUnmanaged
    refine minds_scheduleRecompose ?_
    split_ifs <;> rfl
  exact hhandled.trans (minds_scheduleRecompose rfl)

theorem minds_onStageSizeChanged (width height : ℤ) : Minds layer (layer.onStageSizeChanged width height) := by
  unfold onStageSizeChanged recreateBuffers
  dsimp only
  split_ifs
  · exact minds_of_same rfl rfl rfl
  · have hscheduled : ∀ layer' : MetaAnnotationLayer K, layer'.surface.isSome → Minds layer layer'.scheduleRecompose :=
      fun _ hsome => ⟨.inr owed_scheduleRecompose, fun _ => backed_scheduleRecompose fun _ => hsome⟩
    exact (hscheduled _ rfl).trans (minds_of_same rfl rfl rfl)

/-- One operation minds what it changes, unless it composes. -/
theorem minds_step {op : LayerOp K} (hop : ¬ layer.Composes op) : Minds layer (layer.step op) := by
  refine Minds.trans (?_ : Minds layer (layer.exec op)) (minds_of_same rfl rfl rfl)
  cases op with
  | handleEvent event nowUs => exact minds_handleEvent event nowUs
  | setChromePressActive id => exact minds_of_same rfl rfl rfl
  | clearChromePress => exact minds_of_same rfl rfl rfl
  | call call =>
    cases call with
    | setActive active =>
      change Minds layer (layer.setActive active)
      unfold setActive
      refine Minds.trans ?_ (minds_updateActorVisibility ?_)
      · cases active <;> exact minds_of_same rfl rfl rfl
      · cases active <;> exact hop
    | setPaused paused =>
      change Minds layer (layer.setPaused paused)
      unfold setPaused
      dsimp only
      refine Minds.trans ?_ (minds_updateActorVisibility ?_)
      · split_ifs <;> exact minds_of_same rfl rfl rfl
      · split_ifs <;> exact hop
    | setColor rgba => exact minds_of_same rfl rfl rfl
    | clear =>
      refine ⟨.inr (owed_recompose fun hcomposable => hop ⟨?_, hcomposable.2⟩), backed_clear⟩
      have hwiped : (layer.surface.map Composite.clear).isSome := hcomposable.1
      rwa [Option.isSome_map] at hwiped
    | undoLast => exact minds_undoLast
    | setWindowEditorRegion pid x y w ht =>
      change Minds layer (layer.setWindowEditorRegion pid x y w ht)
      unfold setWindowEditorRegion
      dsimp only
      split_ifs
      · exact .refl
      · exact minds_scheduleRecompose (easel_foldl (fun _ _ => easel_setEditorRegionOf ..) _)
    | setWindowScroll pid scrollX scrollY =>
      change Minds layer (layer.setWindowScroll pid scrollX scrollY)
      unfold setWindowScroll
      dsimp only
      split_ifs
      · exact .refl
      · exact minds_scheduleRecompose (easel_foldl (fun _ _ => easel_setScrollOf ..) _)
    | setChromeRegions regions => exact minds_scheduleRecompose rfl
    | clearChromeRegions => exact minds_scheduleRecompose rfl
    | stageSizeChanged width height => exact minds_onStageSizeChanged width height
    | windowFrameChanged win frame => exact minds_windowFrameChanged frame
    | windowMinimized win minimized =>
      exact (minds_setDisplay _).trans (minds_onSignal fun _ => minds_scheduleRecompose rfl)
    | windowWorkspaceChanged win workspace onAll =>
      exact (minds_setDisplay _).trans (minds_onSignal fun _ => minds_scheduleRecompose rfl)
    | windowHidden win hidden restacked =>
      change Minds layer (layer.windowHidden win hidden restacked)
      unfold windowHidden
      dsimp only
      split_ifs
      · exact minds_scheduleRecompose rfl
      · exact minds_of_same rfl rfl rfl
    | windowManaged win data =>
      change Minds layer (layer.windowManaged win data)
      unfold windowManaged
      split_ifs
      · exact .refl
      · exact minds_scheduleRecompose rfl
    | windowUnmanaged win => exact minds_windowUnmanaged
    | windowFinalized win =>
      change Minds layer (layer.windowFinalized win)
      unfold windowFinalized
      dsimp only
      split_ifs <;> exact minds_of_same rfl rfl rfl
    | restacked stacking => exact minds_scheduleRecompose rfl
    | activeWorkspaceChanged workspace => exact minds_scheduleRecompose rfl
    | recomposeIdle =>
      change Minds layer layer.recomposeIdleCb
      unfold recomposeIdleCb
      split_ifs with hidle
      · exact ⟨.inr (owed_recompose fun hcomposable => hop ⟨hidle, hcomposable⟩), fun hbacked => backed_recompose hbacked⟩
      · exact .refl

/-! ### What composes -/

/-- The composite has just been computed, and nothing is owed. -/
def Composed (layer : MetaAnnotationLayer K) : Prop :=
  layer.recomposeIdle = false ∧ layer.recomposeDirty = false ∧
    ∃ composite, layer.surface = some (layer.recomposeSurface composite)

omit [Scalar K] in
theorem composed_recompose (hidle : layer.recomposeIdle = false) (h : layer.Composable) :
    layer.recompose.Composed := by
  obtain ⟨hsome, hactive, hpaused⟩ := h
  obtain ⟨surface, hsurface⟩ := Option.isSome_iff_exists.mp hsome
  have hhidden : (!layer.active || layer.paused) = false := by simp [hactive, hpaused]
  unfold recompose
  rw [hsurface]
  dsimp only
  rw [hhidden, if_neg Bool.false_ne_true]
  exact ⟨hidle, rfl, surface, rfl⟩

omit [Scalar K] in
theorem composed_updateActorVisibility (hdirty : layer.recomposeDirty) (h : layer.Composable) :
    layer.updateActorVisibility.Composed := by
  have hlive : (layer.active && !layer.paused) = true := by simp [h.2.1, h.2.2]
  have hcomposed : layer.dropIdle.recompose.Composed := composed_recompose rfl h
  unfold updateActorVisibility
  rw [if_pos hlive, if_pos hdirty]
  exact hcomposed

/-- An operation that composes leaves nothing to do. -/
theorem composed_step {op : LayerOp K} (hop : layer.Composes op) : (layer.step op).Composed := by
  suffices h : (layer.exec op).Composed from h
  cases op with
  | handleEvent event nowUs => cases hop
  | setChromePressActive id => cases hop
  | clearChromePress => cases hop
  | call call =>
    cases call with
    | recomposeIdle =>
      change layer.recomposeIdleCb.Composed
      unfold recomposeIdleCb
      rw [if_pos hop.1]
      exact composed_recompose rfl hop.2
    | clear =>
      refine composed_recompose rfl ⟨?_, hop.2⟩
      have hwiped : (layer.surface.map Composite.clear).isSome := by rw [Option.isSome_map, hop.1]
      exact hwiped
    | setActive active =>
      change (layer.setActive active).Composed
      unfold setActive
      obtain rfl : active = true := hop.2.2.1
      exact composed_updateActorVisibility hop.1 hop.2
    | setPaused paused =>
      change (layer.setPaused paused).Composed
      unfold setPaused
      obtain rfl : paused = false := hop.2.2.2
      dsimp only
      rw [Bool.and_false, Bool.false_and, if_neg Bool.false_ne_true, if_neg Bool.false_ne_true]
      exact composed_updateActorVisibility hop.1 hop.2
    | _ => cases hop

/-! ### Runs -/

/-- From the step `i` on, no operation composes. -/
def Uncomposed (start : MetaAnnotationLayer K) (ops : List (LayerOp K)) (i : ℕ) : Prop :=
  ∀ j, i ≤ j → ∀ op, ops[j]? = some op → ¬ (stateAt step start ops j).Composes op

/-- What is owed stays owed until a compose. -/
theorem owed_of_uncomposed {start : MetaAnnotationLayer K} {ops : List (LayerOp K)} {i k : ℕ}
    (howed : (stateAt step start ops i).Owed) (hops : Uncomposed start ops i) (hik : i ≤ k) (hk : k ≤ ops.length) :
    (stateAt step start ops k).Owed := by
  induction k, hik using Nat.le_induction with
  | base => exact howed
  | succ k hik ih =>
    have hget : ops[k]? = some ops[k] := List.getElem?_eq_getElem (by omega)
    rw [stateAt_succ hget]
    rcases minds_step (hops k hik _ hget) with ⟨_, hkeep⟩ | hnow
    · exact hkeep (ih (by omega))
    · exact hnow

/-- The dirty flag is for a layer that has a surface, in every state. -/
theorem backed_after (display : MetaDisplay) (input : AnnotationInput K) (width height : ℤ) (ops : List (LayerOp K)) :
    (after display input width height ops).Backed := by
  refine run_invariant (P := Backed) (fun layer op hbacked => ?_)
    ((minds_onStageSizeChanged width height).backed nofun)
  by_cases hop : layer.Composes op
  · obtain ⟨_, _, composite, hsurface⟩ := composed_step hop
    exact fun _ => Option.isSome_iff_exists.mpr ⟨_, hsurface⟩
  · exact (minds_step hop).backed hbacked

/-- In every state with a surface, a recompose is pending if none has completed since the
creation or since a change; and the actor is shown with a dirty layer only together with
a composite that has just been computed. -/
theorem owed_after (display : MetaDisplay) (input : AnnotationInput K) (width height : ℤ) (ops : List (LayerOp K)) :
    let start := metaAnnotationLayerNew display input width height
    let layer := after display input width height ops
    (layer.surface.isSome →
      (Uncomposed start ops 0 ∨ ∃ i < ops.length, Uncomposed start ops i ∧
        (stateAt step start ops (i + 1)).content ≠ (stateAt step start ops i).content) →
      layer.recomposeIdle ∨ layer.recomposeDirty) ∧
    ∀ op : LayerOp K, ((∃ active, op = .call (.setActive active)) ∨ ∃ paused, op = .call (.setPaused paused)) →
      layer.recomposeDirty → (layer.step op).actorShown → (layer.step op).Composed := by
  intro start layer
  constructor
  · intro hsurface hsince
    have hstate : stateAt step start ops ops.length = layer := stateAt_length
    suffices howed : (stateAt step start ops ops.length).Owed by
      rw [hstate] at howed
      exact howed hsurface
    rcases hsince with hsince | ⟨i, hi, hsince, hchange⟩
    · refine owed_of_uncomposed ?_ hsince (Nat.zero_le _) le_rfl
      have hnew : Minds (metaAnnotationLayerZero display input) start := minds_onStageSizeChanged width height
      rcases hnew.owed with ⟨_, hkeep⟩ | hnow
      · exact hkeep nofun
      · exact hnow
    · have hget : ops[i]? = some ops[i] := List.getElem?_eq_getElem hi
      refine owed_of_uncomposed (i := i + 1) ?_ (fun j hj => hsince j (by omega)) (by omega) le_rfl
      rw [stateAt_succ hget] at hchange ⊢
      rcases (minds_step (hsince i le_rfl _ hget)).owed with ⟨hsame, _⟩ | hnow
      · exact absurd hsame hchange
      · exact hnow
  · rintro op hop hdirty hshown
    have hsurface : layer.surface.isSome := backed_after display input width height ops hdirty
    have hvisible : ∀ u : MetaAnnotationLayer K, u.updateActorVisibility.actorShown → u.active ∧ u.paused = false := by
      intro u hu
      unfold updateActorVisibility at hu
      split_ifs at hu with hlive
      · simpa using hlive
      · simpa using hlive
    refine composed_step ?_
    rcases hop with ⟨active, rfl⟩ | ⟨paused, rfl⟩
    · have hlive := hvisible _ hshown
      refine ⟨hdirty, hsurface, ?_⟩
      cases active <;> exact hlive
    · have hlive := hvisible _ hshown
      refine ⟨hdirty, hsurface, ?_⟩
      dsimp only at hlive
      split_ifs at hlive <;> exact hlive

end MetaAnnotationLayer

end Annotations
