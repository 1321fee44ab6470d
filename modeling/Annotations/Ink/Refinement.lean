import Annotations.Ink.Simulation

/-! Every operation of the layer is a sequence of moves of the pen over its sheets, of
the kinds that `allows` names. -/

namespace Annotations

open Sheets

variable {K : Type} [Scalar K]

namespace MetaAnnotationLayer

variable {layer : MetaAnnotationLayer K} {L : Kind → Prop} {c : Canvas} {win : WindowId}

/-! ### Clearing and undoing -/

omit [Scalar K] in
theorem sheets_wipe :
    layer.wipe.sheets = { layer.sheets with ink := fun c => (layer.sheets.ink c).map fun _ => [] } := by
  refine State.ext rfl rfl rfl rfl rfl rfl (funext fun c => ?_) rfl rfl rfl rfl rfl
  cases c with
  | none => rfl
  | some win => simp [sheets, canvasStrokes, wipe, Function.comp_def]

section Quiet
variable (hq : L .quiet)
include hq

omit [Scalar K] in
theorem moves_clear : Moves L layer.sheets layer.clear.sheets := by
  have hlift : Moves L layer.sheets (layer.sealStroke layer.strokeFollowScroll).sheets :=
    moves_sealStroke hq layer.strokeFollowScroll
  have hshrink := (Move.shrink (s := layer.sheets.lift none layer.strokeFollowScroll)
    (fun c => (layer.sheets.ink c).map fun _ => [])
    (fun c => ⟨by simp [State.lift], by cases h : layer.sheets.ink c <;> simp [h]⟩) (.inl rfl)).moves hq
  have hforget := (Move.forget (s := { layer.sheets.lift none layer.strokeFollowScroll with
    ink := fun c => (layer.sheets.ink c).map fun _ => [] })).moves hq
  convert (hlift.trans hshrink).trans hforget using 1
  rw [clear, sheets_recompose, sheets_dropIdle, sheets_forget, sheets_sealStroke, sheets_wipe]
  rfl

omit hq [Scalar K] in
/-- Once severed, the stroke pointer is NULL or belongs to another canvas. -/
theorem severAt_spec (hwf : WellFormed layer.sheets) (c : Canvas) :
    (layer.severAt c).canvasStrokes = layer.canvasStrokes ∧
      ((layer.severAt c).currentStroke = none ∨
        layer.severAt c = layer ∧ layer.strokeAnchor ≠ c) := by
  unfold severAt
  split_ifs with hin
  · exact ⟨funext fun c => by cases c <;> rfl, .inl rfl⟩
  · refine ⟨rfl, ?_⟩
    by_cases hanchor : layer.strokeAnchor = c
    · left
      cases hcur : layer.currentStroke with
      | none => rfl
      | some addr =>
        have hdown : layer.strokeActive := (hwf.inFlight addr hcur).1
        simp [hdown, hanchor] at hin
    · exact .inr ⟨rfl, hanchor⟩

theorem moves_undoLast (hwf : WellFormed layer.sheets) :
    Moves L layer.sheets layer.undoLast.sheets := by
  unfold undoLast
  split_ifs with hpresent
  · exact .refl
  dsimp only
  split
  · rw [sheets_scheduleRecompose]
    exact moves_forget hq
  · rw [sheets_scheduleRecompose]
    exact moves_forget hq
  next s rest hcanvas =>
    obtain ⟨hsame, hcur⟩ := severAt_spec hwf layer.lastInkAnchor
    have hcur' : (layer.severAt layer.lastInkAnchor).currentStroke = none ∨
        (layer.severAt layer.lastInkAnchor).strokeAnchor ≠ layer.lastInkAnchor := by
      rcases hcur with hcur | ⟨hself, hne⟩
      · exact .inl hcur
      · exact .inr (by rwa [hself])
    have hsever : Moves L layer.sheets (layer.severAt layer.lastInkAnchor).sheets := by
      unfold severAt
      split_ifs
      · exact moves_sealStroke hq false
      · exact .refl
    generalize layer.severAt layer.lastInkAnchor = sealed at hsame hcur' hsever
    have hsub : (s :: rest).dropLast.Sublist ((sealed.canvasStrokes layer.lastInkAnchor).getD []) := by
      rw [hsame, hcanvas]
      exact List.dropLast_sublist _
    have hshrink := hsever.trans (moves_setCanvasStrokes hq hsub hcur')
    rw [sheets_scheduleRecompose]
    split_ifs
    · refine hshrink.trans ?_
      rw [sheets_forget, sheets_modifyCanvasSurface]
      exact Move.forget.moves hq
    · rwa [sheets_modifyCanvasSurface]

omit [Scalar K] in
theorem moves_clearInkForAnchor : Moves L layer.sheets (layer.clearInkForAnchor c).sheets := by
  unfold clearInkForAnchor
  dsimp only
  rw [sheets_scheduleRecompose]
  have hnil : [].Sublist ((layer.canvasStrokes c).getD []) := List.nil_sublist _
  obtain ⟨ink, hink, _, heq⟩ := sheets_setCanvasStrokes_shrinks hnil
  generalize hemptied : (layer.setCanvasStrokes c []).modifyCanvasSurface c surfaceClear = emptied
  have hsheets : emptied.sheets = { layer.sheets with ink := ink } := by
    rw [← hemptied, sheets_modifyCanvasSurface, heq]
  generalize hsealed : (if emptied.strokeAnchor = c then emptied.sealStroke emptied.strokeFollowScroll
    else emptied) = sealed
  have hmoves : Moves L layer.sheets sealed.sheets := by
    rw [← hsealed]
    split_ifs with hanchor
    · have hlift : Moves L layer.sheets (layer.sheets.lift none emptied.strokeFollowScroll) :=
        moves_sealStroke hq emptied.strokeFollowScroll
      have hsealed : (emptied.sealStroke emptied.strokeFollowScroll).sheets =
          { layer.sheets.lift none emptied.strokeFollowScroll with ink := ink } := by
        rw [sheets_sealStroke, hsheets]
        rfl
      rw [hsealed]
      exact hlift.trans (Move.moves (Move.shrink ink hink (.inl rfl)) hq)
    · have hne : layer.strokeAnchor ≠ c := fun h =>
        hanchor ((congrArg State.anchor hsheets).trans h)
      rw [← hemptied, sheets_modifyCanvasSurface]
      exact moves_setCanvasStrokes hq (List.nil_sublist _) (.inr hne)
  split_ifs
  · exact hmoves.trans (moves_forget hq)
  · exact hmoves

/-! ### Taps -/

omit [Scalar K] in
theorem moves_checkTapGestures : Moves L layer.sheets layer.checkTapGestures.sheets := by
  unfold checkTapGestures
  split_ifs
  · exact moves_clear hq
  · split
    · split_ifs
      · exact moves_clearInkForAnchor hq
      · exact .refl
    · exact .refl

theorem moves_noteTapRelease (x y : K) (nowUs : ℤ) :
    Moves L layer.sheets (layer.noteTapRelease x y nowUs).sheets := by
  unfold noteTapRelease
  dsimp only
  split_ifs
  · exact .refl
  · exact .refl
  · exact .refl
  · generalize htapped : MetaAnnotationLayer.tapHistoryAppend _ _ _ = tapped
    have hsheets : tapped.sheets = layer.sheets := by
      rw [← htapped]
      rfl
    rw [← hsheets]
    exact moves_checkTapGestures hq

/-! ### Scroll-following -/

omit hq [Scalar K] in
theorem moves_foldl {f : MetaAnnotationLayer K → WindowId → MetaAnnotationLayer K}
    {display : MetaDisplay} {wins : List WindowId}
    (hf : ∀ layer : MetaAnnotationLayer K, layer.display = display → ∀ win ∈ wins,
      Moves L layer.sheets (f layer win).sheets ∧ (f layer win).display = display)
    (hdisplay : layer.display = display) : Moves L layer.sheets (wins.foldl f layer).sheets := by
  induction wins generalizing layer with
  | nil => exact .refl
  | cons win wins ih =>
    obtain ⟨hmoves, hdisplay'⟩ := hf layer hdisplay win (by simp)
    exact hmoves.trans (ih (fun layer' h win' hwin' => hf layer' h win' (by simp [hwin'])) hdisplay')

theorem moves_setEditorRegionOf (x y w h : ℤ) (hwin : win ∈ layer.display.windows) :
    Moves L layer.sheets (layer.setEditorRegionOf x y w h win).sheets := by
  refine (moves_ensureWindowInk hq hwin).trans ?_
  unfold setEditorRegionOf
  dsimp only
  generalize layer.ensureWindowInk win = ensured
  split
  · exact .refl
  next ink hink =>
    generalize hregion : (if w ≤ 0 ∨ h ≤ 0 then _ else _ : WindowInk K) = region
    have hstrokes : region.strokes = ink.strokes := by
      rw [← hregion]
      split_ifs <;> rfl
    generalize hrepainted : (if (ink.hasEditorRegion || region.hasEditorRegion) = true then _ else _ :
      WindowInk K) = repainted
    have hstrokes' : repainted.strokes = ink.strokes := by
      rw [← hrepainted, ← hstrokes]
      split_ifs <;> rfl
    generalize hrewritten : (ensured.modifyInk win fun _ => repainted) = rewritten
    have hsheets : rewritten.sheets = ensured.sheets := by
      rw [← hrewritten]
      refine sheets_modifyInk fun ink' hink' => ?_
      rw [hstrokes', Option.some.inj (hink.symm.trans hink')]
    rw [← hsheets]
    split_ifs
    · exact moves_sealStroke hq false
    · exact .refl

omit hq in
theorem setEditorRegionOf_display (x y w h : ℤ) :
    (layer.setEditorRegionOf x y w h win).display = layer.display := by
  have hensure : (layer.ensureWindowInk win).display = layer.display := by
    rw [ensureWindowInk_eq rfl rfl]
  unfold setEditorRegionOf
  dsimp only
  split
  · exact hensure
  · split_ifs <;> exact hensure

omit hq [Scalar K] in
theorem mem_windows_of_mem_collectWindowsForPid {display : MetaDisplay} {pid : ℕ}
    (h : win ∈ display.collectWindowsForPid pid) : win ∈ display.windows := by
  unfold MetaDisplay.collectWindowsForPid at h
  split_ifs at h
  · simp at h
  · rw [List.mem_reverse] at h
    exact List.mem_of_mem_filter h

theorem moves_setWindowEditorRegion (pid : ℕ) (x y w h : ℤ) :
    Moves L layer.sheets (layer.setWindowEditorRegion pid x y w h).sheets := by
  unfold setWindowEditorRegion
  dsimp only
  split_ifs
  · exact .refl
  rw [sheets_scheduleRecompose]
  refine moves_foldl (fun layer' hdisplay win hwin => ⟨?_, ?_⟩) rfl
  · refine moves_setEditorRegionOf hq x y w h ?_
    rw [hdisplay]
    exact mem_windows_of_mem_collectWindowsForPid hwin
  · rw [setEditorRegionOf_display, hdisplay]

theorem moves_setScrollOf (scrollX scrollY : ℤ) :
    Moves L layer.sheets (layer.setScrollOf scrollX scrollY win).sheets := by
  unfold setScrollOf
  split
  · exact .refl
  next ink hink =>
    split_ifs
    · exact .refl
    dsimp only
    generalize hrewritten : (layer.modifyInk win fun _ => _) = rewritten
    have hsheets : rewritten.sheets = layer.sheets := by
      rw [← hrewritten]
      refine sheets_modifyInk fun ink' hink' => ?_
      rw [Option.some.inj (hink.symm.trans hink')]
    rw [← hsheets]
    split_ifs
    · exact moves_sealStroke hq false
    · exact .refl

omit hq in
theorem setScrollOf_display (scrollX scrollY : ℤ) :
    (layer.setScrollOf scrollX scrollY win).display = layer.display := by
  unfold setScrollOf
  split
  · rfl
  · split_ifs
    · rfl
    · dsimp only
      split_ifs <;> rfl

theorem moves_setWindowScroll (pid : ℕ) (scrollX scrollY : ℤ) :
    Moves L layer.sheets (layer.setWindowScroll pid scrollX scrollY).sheets := by
  unfold setWindowScroll
  dsimp only
  split_ifs
  · exact .refl
  rw [sheets_scheduleRecompose]
  refine moves_foldl (fun layer' hdisplay win _ => ⟨moves_setScrollOf hq _ _, ?_⟩) rfl
  rw [setScrollOf_display, hdisplay]

/-! ### Activation and pause -/

omit [Scalar K] in
theorem moves_setActive (active : Bool)
    (hhalt : active = false → layer.strokeActive → L .halt) :
    Moves L layer.sheets (layer.setActive active).sheets := by
  unfold setActive
  rw [sheets_updateActorVisibility]
  cases active with
  | true =>
    refine Move.moves (Move.setLive (!layer.paused) fun _ => ?_) hq
    cases hpaused : layer.paused with
    | true => exact .inr (by simp [sheets, hpaused])
    | false => exact .inl rfl
  | false =>
    have hlive : Moves L layer.sheets { layer.sheets with live := false } := by
      by_cases hdown : layer.strokeActive
      · exact Move.moves (Move.halt hdown) (hhalt rfl hdown)
      · exact Move.moves (Move.setLive false fun h => absurd h hdown) hq
    have hdrop : Moves L { layer.sheets with live := false }
        { layer.sheets with live := false, current := none } := Move.drop.moves hq
    have hforget : Moves L { layer.sheets with live := false, current := none }
        { layer.sheets with live := false, current := none, remembered := none } :=
      Move.forget.moves hq
    exact (hlive.trans hdrop).trans hforget

omit hq [Scalar K] in
theorem sheets_setPaused (paused : Bool) : (layer.setPaused paused).sheets =
    { (if !layer.paused && paused && layer.strokeActive then
        layer.sheets.lift none layer.strokeFollowScroll else layer.sheets) with
      live := layer.active && !paused } := by
  unfold setPaused
  rw [sheets_updateActorVisibility]
  dsimp only
  cases hwas : !layer.paused && paused with
  | false => rfl
  | true =>
    simp only [Bool.true_and, if_true]
    split_ifs <;> rfl

omit [Scalar K] in
theorem moves_setPaused (paused : Bool) : Moves L layer.sheets (layer.setPaused paused).sheets := by
  rw [sheets_setPaused]
  split_ifs with hseal
  · have hlift : Moves L layer.sheets (layer.sheets.lift none layer.strokeFollowScroll) :=
      moves_sealStroke hq layer.strokeFollowScroll
    exact hlift.trans (Move.moves (Move.setLive _ fun h => absurd h (by simp [State.lift])) hq)
  · refine Move.moves (Move.setLive _ fun hdown => ?_) hq
    have hdown' : layer.strokeActive = true := hdown
    cases hactive : layer.active <;> cases hwas : layer.paused <;> cases paused <;>
      simp_all [sheets]

/-! ### The stage and the windows -/

theorem moves_onStageSizeChanged (width height : ℤ) :
    Moves L layer.sheets (layer.onStageSizeChanged width height).sheets := by
  have hbuffers : (layer.recreateBuffers width height).sheets = layer.sheets := by
    unfold recreateBuffers
    split_ifs
    · rfl
    · exact sheets_scheduleRecompose
  unfold onStageSizeChanged
  rw [sheets_sealStroke, hbuffers]
  exact moves_sealStroke hq _

omit hq [Scalar K] in
theorem sheets_onSignal {handler : MetaAnnotationLayer K → MetaAnnotationLayer K}
    (h : (handler layer).sheets = layer.sheets) :
    (layer.onSignal win handler).sheets = layer.sheets := by
  unfold onSignal
  split_ifs
  · exact h
  · rfl

omit hq in
theorem sheets_onWindowSizeChanged : (layer.onWindowSizeChanged win).sheets = layer.sheets := by
  unfold onWindowSizeChanged windowInkResizeToFrame
  rw [sheets_scheduleRecompose]
  dsimp only
  split_ifs
  · rfl
  · refine sheets_modifyInk fun ink _ => ?_
    split_ifs <;> rfl

omit hq in
theorem sheets_windowFrameChanged (frame : MtkRectangle) :
    (layer.windowFrameChanged win frame).sheets = layer.sheets := by
  unfold windowFrameChanged
  dsimp only
  generalize hmoved : layer.setDisplay _ = moved
  have hmoved' : moved.sheets = layer.sheets := by
    rw [← hmoved]
    exact sheets_setDisplay rfl
  have hpos : ∀ l : MetaAnnotationLayer K,
      (l.onSignal win (·.onWindowPositionChanged)).sheets = l.sheets := fun l =>
    sheets_onSignal sheets_scheduleRecompose
  have hsize : ∀ l : MetaAnnotationLayer K,
      (l.onSignal win (·.onWindowSizeChanged win)).sheets = l.sheets := fun l =>
    sheets_onSignal sheets_onWindowSizeChanged
  split_ifs <;> simp only [hpos, hsize, hmoved']

omit hq [Scalar K] in
theorem sheets_windowMinimized (minimized : Bool) :
    (layer.windowMinimized win minimized).sheets = layer.sheets :=
  (sheets_onSignal sheets_scheduleRecompose).trans (sheets_setDisplay rfl)

omit hq [Scalar K] in
theorem sheets_windowWorkspaceChanged (workspace : Option ℕ) (onAllWorkspaces : Bool) :
    (layer.windowWorkspaceChanged win workspace onAllWorkspaces).sheets = layer.sheets :=
  (sheets_onSignal sheets_scheduleRecompose).trans (sheets_setDisplay rfl)

omit hq [Scalar K] in
theorem sheets_windowHidden (hidden restacked : Bool) :
    (layer.windowHidden win hidden restacked).sheets = layer.sheets := by
  unfold windowHidden
  dsimp only
  split_ifs
  · exact sheets_scheduleRecompose.trans (sheets_setDisplay rfl)
  · exact sheets_setDisplay rfl

omit hq [Scalar K] in
theorem sheets_restacked (stacking : WindowId → ℤ × ℤ) :
    (layer.restacked stacking).sheets = layer.sheets :=
  sheets_scheduleRecompose.trans (sheets_setDisplay rfl)

omit hq [Scalar K] in
theorem sheets_activeWorkspaceChanged (workspace : Option ℕ) :
    (layer.activeWorkspaceChanged workspace).sheets = layer.sheets :=
  sheets_scheduleRecompose.trans (sheets_setDisplay rfl)

omit [Scalar K] in
/-- More room. -/
theorem moves_windowManaged (hwf : WellFormed layer.sheets) (data : MetaWindow) :
    Moves L layer.sheets (layer.windowManaged win data).sheets := by
  unfold windowManaged
  split_ifs
  · exact .refl
  · refine Moves.trans (Move.moves (Move.settle {c | ∀ w, c = some w →
      w ∈ (layer.display.insertWindow win data).windows} fun c hc w hw => ?_) hq) ?_
    · exact List.mem_cons_of_mem _ (hwf.roomy c hc w hw)
    · rw [onDisplayRestacked, sheets_scheduleRecompose]
      exact .refl

omit [Scalar K] in
/-- The stroke in flight and the undo target leave the canvas of the window, and the
canvas goes. -/
theorem moves_onWindowUnmanaged :
    Moves L layer.sheets (layer.onWindowUnmanaged win).sheets ∧
      (layer.onWindowUnmanaged win).sheets.ink (some win) = none := by
  unfold onWindowUnmanaged
  dsimp only
  rw [sheets_scheduleRecompose]
  generalize hsealed : (if layer.strokeAnchor = some win then layer.sealStroke layer.strokeFollowScroll
    else layer) = sealed
  have hseal : Moves L layer.sheets sealed.sheets ∧ sealed.strokeAnchor ≠ some win := by
    rw [← hsealed]
    split_ifs with hanchor
    · exact ⟨moves_sealStroke hq _, by simp [sealStroke]⟩
    · exact ⟨.refl, hanchor⟩
  generalize hforgotten : (if sealed.lastInkAnchor = some win then sealed.setLastInkAnchor none false
    else sealed) = forgotten
  have hforget : Moves L sealed.sheets forgotten.sheets ∧
      forgotten.strokeAnchor = sealed.strokeAnchor ∧
      forgotten.sheets.remembered ≠ some (some win) := by
    rw [← hforgotten]
    split_ifs with hlast
    · exact ⟨moves_forget hq, rfl, by simp [sheets, setLastInkAnchor]⟩
    · refine ⟨.refl, rfl, ?_⟩
      simp only [sheets]
      split_ifs <;> simp [hlast]
  obtain ⟨hmoves, hanchor⟩ := hseal
  obtain ⟨hmoves', hanchor', hrem⟩ := hforget
  have hdetach := Move.moves (Move.detach (some win) (hanchor'.trans_ne hanchor).symm hrem) hq
  have hremoved : ({ forgotten with
      pendingTap := forgotten.pendingTap && forgotten.pendingTapAnchor ≠ some win
      tapHistory := if forgotten.tapHistory.any (·.anchor = some win) then [] else forgotten.tapHistory
      perWindow := Function.update forgotten.perWindow win none } : MetaAnnotationLayer K).sheets =
      forgotten.sheets.setInk (some win) none := by
    refine State.ext rfl rfl rfl rfl rfl rfl (funext fun c => ?_) rfl rfl rfl rfl rfl
    cases c with
    | none => rfl
    | some w =>
      by_cases hw : w = win
      · subst hw
        simp [sheets, canvasStrokes, State.setInk]
      · simp [sheets, canvasStrokes, State.setInk, hw]
  refine ⟨(hmoves.trans hmoves').trans ?_, ?_⟩
  · rwa [hremoved]
  · rw [hremoved]
    simp [State.setInk]

omit [Scalar K] in
/-- The canvas of the window is removed, then the room it was in. -/
theorem moves_windowUnmanaged (hwf : WellFormed layer.sheets) :
    Moves L layer.sheets (layer.windowUnmanaged win).sheets := by
  unfold windowUnmanaged
  dsimp only
  generalize hleft : layer.onSignal win (·.onWindowUnmanaged win) = left
  have hmoves : Moves L layer.sheets left.sheets ∧ left.sheets.ink (some win) = none := by
    rw [← hleft, onSignal]
    split_ifs with hink
    · exact moves_onWindowUnmanaged hq
    · exact ⟨.refl, by simpa [sheets, canvasStrokes] using hink⟩
  obtain ⟨hmoves, habsent⟩ := hmoves
  have hwf' := hmoves.wellFormed hwf
  rw [onDisplayRestacked, sheets_scheduleRecompose]
  refine hmoves.trans (Move.moves (Move.settle _ fun c hc w hw => ?_) hq)
  have hmem := hwf'.roomy c hc w hw
  have hne : w ≠ win := by
    rintro rfl
    rw [hw, habsent] at hc
    simp at hc
  exact List.mem_filter.mpr ⟨hmem, by simpa using hne⟩

omit hq [Scalar K] in
/-- No canvas of a window that is not managed is anchored or remembered. -/
theorem sheets_windowFinalized (hwf : WellFormed layer.sheets) :
    (layer.windowFinalized win).sheets = layer.sheets := by
  unfold windowFinalized
  by_cases hwin : win ∈ layer.display.windows
  · rw [if_pos hwin]
  rw [if_neg hwin]
  have hnoink : (layer.sheets.ink (some win)).isSome → False := fun h =>
    hwin (hwf.roomy _ h win rfl)
  have hanchor : layer.strokeAnchor ≠ some win := by
    intro h
    have hanchored := hwf.anchored
    rw [show layer.sheets.anchor = some win from h] at hanchored
    exact hnoink hanchored
  dsimp only
  rw [if_neg hanchor]
  split_ifs with hlast
  · have habsent : layer.lastInkPresent = false := by
      cases hpresent : layer.lastInkPresent with
      | false => rfl
      | true => exact (hnoink (hwf.recalled _ (by simp [sheets, hpresent, hlast]))).elim
    rw [habsent, sheets_forget]
    refine State.ext rfl rfl rfl rfl rfl ?_ rfl rfl rfl rfl rfl rfl
    simp [sheets, habsent]
  · rfl

/-! ### Events -/

omit hq [Scalar K] in
theorem sheets_handleToolModifierPress {event : ClutterEvent K} {pressed : Bool}
    {layer' : MetaAnnotationLayer K}
    (h : layer.handleToolModifierPress event pressed = some layer') :
    layer'.sheets = layer.sheets := by
  unfold handleToolModifierPress at h
  split_ifs at h
  · rw [← Option.some.inj h]
  · rw [← Option.some.inj h]
    rfl

omit hq in
theorem sheets_cancelTapBeyondRadius (event : ClutterEvent K) :
    (layer.cancelTapBeyondRadius event).sheets = layer.sheets := by
  unfold cancelTapBeyondRadius
  split_ifs <;> rfl

variable (hpen : L .pen)
include hpen

theorem moves_pressAt (hlive : layer.sheets.live) (hwf : WellFormed layer.sheets)
    (event : ClutterEvent K) (nowUs : ℤ) :
    Moves L layer.sheets (layer.pressAt event nowUs).sheets :=
  moves_beginStroke hq hpen hlive hwf ..

theorem moves_continueAt (hdown : layer.strokeActive) (hwf : WellFormed layer.sheets)
    (event : ClutterEvent K)
    (hstray : layer.eraseIsActive event = false → layer.remembersElsewhere → L .stray) :
    Moves L layer.sheets (layer.continueAt event).sheets :=
  moves_continueStroke hq hpen hdown hwf _ _ _ _ _ hstray

theorem moves_releaseAt (hwf : WellFormed layer.sheets) (event : ClutterEvent K) (nowUs : ℤ)
    (hstray : layer.strokeActive → layer.eraseIsActive event = false →
      layer.remembersElsewhere → L .stray) :
    Moves L layer.sheets (layer.releaseAt event nowUs).sheets := by
  unfold releaseAt
  dsimp only
  generalize hcontinued : (if layer.strokeActive then layer.continueAt event else layer) = continued
  have hmoves : Moves L layer.sheets continued.sheets := by
    rw [← hcontinued]
    split_ifs with hdown
    · exact moves_continueAt hq hpen hdown hwf event (hstray hdown)
    · exact .refl
  rw [endStroke, sheets_scheduleRecompose]
  exact (hmoves.trans (moves_noteTapRelease hq _ _ _)).trans (moves_sealStroke hq false)

theorem moves_handleButtonPress (hlive : layer.sheets.live) (hwf : WellFormed layer.sheets)
    (event : ClutterEvent K) (nowUs : ℤ) :
    Moves L layer.sheets (layer.handleButtonPress event nowUs).sheets := by
  unfold handleButtonPress
  split_ifs
  · exact .refl
  split
  next layer' hmodifier =>
    rw [sheets_handleToolModifierPress hmodifier]
    exact .refl
  · exact moves_pressAt hq hpen hlive hwf event nowUs

theorem moves_handleMotion (hlive : layer.sheets.live) (hwf : WellFormed layer.sheets)
    (event : ClutterEvent K)
    (hstray : layer.strokeActive → layer.eraseIsActive event = false →
      layer.remembersElsewhere → L .stray) :
    Moves L layer.sheets (layer.handleMotion event).sheets := by
  unfold handleMotion
  cases hdown : layer.strokeActive with
  | false =>
    simp only [Bool.not_false, if_true]
    split_ifs
    · exact moves_beginStroke hq hpen hlive hwf ..
    · exact .refl
  | true =>
    simp only [Bool.not_true, Bool.false_eq_true, if_false]
    have hcontinue :
        Moves L layer.sheets ((layer.continueAt event).cancelTapBeyondRadius event).sheets := by
      rw [sheets_cancelTapBeyondRadius]
      exact moves_continueAt hq hpen hdown hwf event (hstray hdown)
    split_ifs
    · exact hcontinue
    · rw [endStroke, sheets_scheduleRecompose]
      exact hcontinue.trans (moves_sealStroke hq false)

theorem moves_handleButtonRelease (hwf : WellFormed layer.sheets) (event : ClutterEvent K)
    (nowUs : ℤ)
    (hstray : layer.handleToolModifierPress event false = none → layer.strokeActive →
      layer.eraseIsActive event = false → layer.remembersElsewhere → L .stray) :
    Moves L layer.sheets (layer.handleButtonRelease event nowUs).sheets := by
  unfold handleButtonRelease
  split
  next layer' hmodifier =>
    rw [sheets_handleToolModifierPress hmodifier]
    exact .refl
  next hmodifier => exact moves_releaseAt hq hpen hwf event nowUs (hstray hmodifier)

theorem moves_handleTouchUpdate (hwf : WellFormed layer.sheets) (event : ClutterEvent K)
    (hstray : layer.strokeActive → layer.eraseIsActive event = false →
      layer.remembersElsewhere → L .stray) :
    Moves L layer.sheets (layer.handleTouchUpdate event).sheets := by
  unfold handleTouchUpdate
  split_ifs with hdown
  · rw [sheets_cancelTapBeyondRadius]
    exact moves_continueAt hq hpen hdown hwf event (hstray hdown)
  · exact .refl

/-- An event draws with the pen, and inks elsewhere than on the remembered canvas only
as `inksElsewhere` says. -/
theorem moves_handleEvent (hwf : WellFormed layer.sheets) (event : ClutterEvent K) (nowUs : ℤ)
    (hstray : layer.inksElsewhere event → L .stray) :
    Moves L layer.sheets (layer.handleEvent event nowUs).1.sheets := by
  unfold handleEvent
  split_ifs with htakes
  · exact .refl
  rw [Bool.not_eq_true, Bool.not_eq_false'] at htakes
  have hlive : layer.sheets.live := by
    simp only [takesEvents, Bool.and_eq_true] at htakes
    simpa [sheets] using htakes.1
  have hinks : layer.continues event → layer.eraseIsActive event = false → layer.remembersElsewhere → L .stray := by
    intro hcontinues herase helsewhere
    refine hstray ?_
    simp only [inksElsewhere, hcontinues, herase, helsewhere, Bool.not_false, Bool.and_true]
  split
  next htype => exact moves_handleButtonPress hq hpen hlive hwf event nowUs
  next htype =>
    exact moves_handleMotion hq hpen hlive hwf event fun hdown =>
      hinks (by simp [continues, htakes, hdown, htype])
  next htype =>
    exact moves_handleButtonRelease hq hpen hwf event nowUs
      fun hmodifier hdown => hinks (by simp [continues, htakes, hdown, htype, hmodifier])
  next htype => exact moves_pressAt hq hpen hlive hwf event nowUs
  next htype =>
    exact moves_handleTouchUpdate hq hpen hwf event fun hdown =>
      hinks (by simp [continues, htakes, hdown, htype])
  next htype =>
    exact moves_releaseAt hq hpen hwf event nowUs fun hdown =>
      hinks (by simp [continues, htakes, hdown, htype])
  next htype =>
    rw [handleTouchCancel, endStroke, sheets_scheduleRecompose]
    exact moves_sealStroke hq false
  · exact .refl

end Quiet

/-! ### Operations -/

/-- The kinds of moves an operation makes from a state: a pen moves in events alone, it
strays where the event inks elsewhere, and it is halted by a deactivation while down. -/
def allows (layer : MetaAnnotationLayer K) : LayerOp K → Kind → Prop
  | _, .quiet => True
  | .handleEvent _ _, .pen => True
  | .handleEvent event _, .stray => layer.inksElsewhere event
  | .call (.setActive false), .halt => layer.strokeActive
  | _, _ => False

variable {op : LayerOp K}

omit [Scalar K] in
theorem allows_pen (h : layer.allows op .pen ∨ layer.allows op .stray) :
    ∃ event nowUs, op = .handleEvent event nowUs := by
  cases op with
  | handleEvent event nowUs => exact ⟨event, nowUs, rfl⟩
  | _ => simp [allows] at h

omit [Scalar K] in
theorem allows_stray (h : layer.allows op .stray) :
    ∃ event nowUs, op = .handleEvent event nowUs ∧ layer.inksElsewhere event := by
  cases op with
  | handleEvent event nowUs => exact ⟨event, nowUs, rfl, h⟩
  | _ => simp [allows] at h

omit [Scalar K] in
theorem allows_halt (h : layer.allows op .halt) :
    op = .call (.setActive false) ∧ layer.strokeActive := by
  unfold allows at h
  split at h <;> simp_all

theorem moves_execCall (hwf : WellFormed layer.sheets) (call : Call K) :
    Moves (layer.allows (.call call)) layer.sheets (layer.execCall call).sheets := by
  have hq : layer.allows (.call call) .quiet := by simp [allows]
  have of_eq : ∀ {layer' : MetaAnnotationLayer K}, layer'.sheets = layer.sheets →
      Moves (layer.allows (.call call)) layer.sheets layer'.sheets := fun h => h ▸ .refl
  cases call with
  | setActive active =>
    refine moves_setActive hq active fun hactive hdown => ?_
    subst hactive
    exact hdown
  | setPaused paused => exact moves_setPaused hq paused
  | setColor rgba => exact .refl
  | clear => exact moves_clear hq
  | undoLast => exact moves_undoLast hq hwf
  | setWindowEditorRegion pid x y w h => exact moves_setWindowEditorRegion hq pid x y w h
  | setWindowScroll pid scrollX scrollY => exact moves_setWindowScroll hq pid scrollX scrollY
  | setChromeRegions regions => exact of_eq sheets_scheduleRecompose
  | clearChromeRegions => exact of_eq sheets_scheduleRecompose
  | stageSizeChanged width height => exact moves_onStageSizeChanged hq width height
  | windowFrameChanged win frame => exact of_eq (sheets_windowFrameChanged frame)
  | windowMinimized win minimized => exact of_eq (sheets_windowMinimized minimized)
  | windowWorkspaceChanged win workspace onAllWorkspaces =>
    exact of_eq (sheets_windowWorkspaceChanged workspace onAllWorkspaces)
  | windowHidden win hidden restacked => exact of_eq (sheets_windowHidden hidden restacked)
  | windowManaged win data => exact moves_windowManaged hq hwf data
  | windowUnmanaged win => exact moves_windowUnmanaged hq hwf
  | windowFinalized win => exact of_eq (sheets_windowFinalized hwf)
  | restacked stacking => exact of_eq (sheets_restacked stacking)
  | activeWorkspaceChanged workspace => exact of_eq (sheets_activeWorkspaceChanged workspace)
  | recomposeIdle => exact of_eq sheets_recomposeIdleCb

/-- The layer refines the pen over sheets. -/
theorem moves_exec (hwf : WellFormed layer.sheets) (op : LayerOp K) :
    Moves (layer.allows op) layer.sheets (layer.exec op).sheets := by
  cases op with
  | call call => exact moves_execCall hwf call
  | handleEvent event nowUs =>
    exact moves_handleEvent (by simp [allows]) (by simp [allows]) hwf event nowUs (by simp [allows])
  | setChromePressActive id => exact .refl
  | clearChromePress => exact .refl

omit [Scalar K] in
theorem wellFormed_tick (h : WellFormed layer.sheets) : WellFormed layer.tick.sheets :=
  ⟨h.roomy, h.anchored, h.recalled, h.distinct, h.inFlight⟩

theorem wellFormed_step (hwf : WellFormed layer.sheets) (op : LayerOp K) :
    WellFormed (layer.step op).sheets :=
  wellFormed_tick ((moves_exec hwf op).wellFormed hwf)

theorem every_sheets_zero (display : MetaDisplay) (input : AnnotationInput K) (P : Line → Prop) :
    (metaAnnotationLayerZero display input).sheets.Every P := by
  intro c lines hlines m hm
  cases c with
  | none => simp_all [sheets, canvasStrokes, metaAnnotationLayerZero]
  | some win => simp [sheets, canvasStrokes, metaAnnotationLayerZero] at hlines

/-- A new layer has one empty canvas, that of the desktop. -/
theorem wellFormed_zero (display : MetaDisplay) (input : AnnotationInput K) :
    WellFormed (metaAnnotationLayerZero display input).sheets := by
  refine ⟨fun c hc w hw => ?_, rfl, by simp [sheets, metaAnnotationLayerZero],
    .of_empty fun c => by cases c <;> rfl, by simp [sheets, metaAnnotationLayerZero]⟩
  subst hw
  simp [sheets, canvasStrokes, metaAnnotationLayerZero] at hc

theorem moves_new (display : MetaDisplay) (input : AnnotationInput K) (width height : ℤ) :
    Moves (fun k => k = .quiet) (metaAnnotationLayerZero display input).sheets
      (metaAnnotationLayerNew display input width height).sheets :=
  moves_onStageSizeChanged (L := fun k => k = .quiet) rfl width height

theorem wellFormed_new (display : MetaDisplay) (input : AnnotationInput K) (width height : ℤ) :
    WellFormed (metaAnnotationLayerNew display input width height).sheets :=
  (moves_new display input width height).wellFormed (wellFormed_zero display input)

end MetaAnnotationLayer

end Annotations
