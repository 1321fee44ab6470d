import Annotations.Dock.State
import Annotations.Tracing.Strokes

/-! The operations that clear and repaint canvases, seal the stroke in flight or change
the windows, as moves of the drawing. -/

namespace Annotations

open Sheets

variable {K : Type} [Scalar K]

namespace MetaAnnotationLayer

variable {layer : MetaAnnotationLayer K} {L : Permit K} {c : Canvas} {win : WindowId}

/-! ### Clearing and undoing -/

omit [Scalar K] in
theorem drawing_sealStroke (followScroll : Bool) :
    (layer.sealStroke followScroll).drawing = layer.drawing.lift followScroll := rfl

theorem traces_sealStroke (followScroll : Bool) (hstrand : layer.drawing.Stranded → L.strand) :
    Traces L layer.drawing (layer.sealStroke followScroll).drawing :=
  (Move.lift followScroll hstrand).traces

omit [Scalar K] in
theorem drawing_endStroke : layer.endStroke.drawing = layer.drawing.lift false := by
  rw [endStroke, drawing_scheduleRecompose, drawing_sealStroke]

omit [Scalar K] in
theorem drawing_clear :
    layer.clear.drawing = (layer.drawing.wipe fun _ => true).liftFrom fun _ => true := by
  rw [clear, drawing_recompose, ← drawing_wipe]
  rfl

omit [Scalar K] in
/-- One canvas is emptied; a window without a record has none. -/
theorem drawing_emptyCanvas :
    ((layer.setCanvasStrokes c []).modifyCanvasSurface c surfaceClear).drawing =
      layer.drawing.wipe (· = c) := by
  cases c with
  | none =>
    refine Drawing.ext rfl rfl rfl rfl rfl rfl rfl rfl (funext fun c => ?_) (funext fun c => ?_)
      (funext fun c => ?_) <;> cases c <;> rfl
  | some win =>
    have hink : (layer.setCanvasStrokes (some win) []).modifyCanvasSurface (some win) surfaceClear =
        { layer with perWindow := Function.update layer.perWindow win ((layer.perWindow win).map fun ink =>
          { ink with strokes := [], surface := surfaceClear ink.surface }) } := by
      simp [setCanvasStrokes, modifyCanvasSurface, modifyInk, Function.comp_def]
    rw [hink, drawing_updateRecord]
    refine Drawing.ext rfl rfl rfl rfl rfl rfl rfl rfl (funext fun c => ?_) (funext fun c => ?_)
      (funext fun c => ?_)
    · by_cases hc : c = some win
      · subst hc
        simp [Drawing.setPage, Drawing.wipe, drawing, canvasStrokes, Function.comp_def]
      · simp [Drawing.setPage, Drawing.wipe, hc]
    · by_cases hc : c = some win
      · subst hc
        simp [Drawing.setPage, Drawing.wipe, drawing, canvasSurface, Function.comp_def]
      · simp [Drawing.setPage, Drawing.wipe, hc]
    · by_cases hc : c = some win
      · subst hc
        simp [Drawing.setPage, Drawing.wipe, drawing, anchorInk, Function.comp_def]
        rfl
      · simp [Drawing.setPage, Drawing.wipe, hc]

omit [Scalar K] in
theorem drawing_clearInkForAnchor :
    (layer.clearInkForAnchor c).drawing = (layer.drawing.wipe (· = c)).liftFrom (· = c) := by
  unfold clearInkForAnchor
  dsimp only
  rw [drawing_scheduleRecompose, ← drawing_emptyCanvas, ← drawing_sealAt]
  split_ifs <;> rfl

/-- Undo repaints the canvas it shortens, severed from the stroke in flight. -/
theorem traces_undoLast (hrepaint : L.repaint) (hwf : WellFormed layer.sheets) :
    Traces L layer.drawing layer.undoLast.drawing := by
  unfold undoLast
  split_ifs with hpresent
  · exact .refl
  dsimp only
  split
  · rw [drawing_scheduleRecompose]
    exact .refl
  · rw [drawing_scheduleRecompose]
    exact .refl
  next s rest hcanvas =>
    generalize layer.lastInkAnchor = target at hcanvas
    have hsub : (s :: rest).dropLast.Sublist (s :: rest) := List.dropLast_sublist _
    generalize s :: rest = all at hcanvas hsub
    generalize hpopped : ((layer.severAt target).setCanvasStrokes target all.dropLast).modifyCanvasSurface
      target _ = popped
    have hmoves : Traces L layer.drawing popped.drawing := by
      have hsevered : layer.severAt target =
          if layer.strokeActive && layer.strokeAnchor = target then layer.sealStroke false else layer := rfl
      rw [← hpopped, hsevered]
      split_ifs with hin
      · obtain rfl : layer.strokeAnchor = target := by simp at hin; exact hin.2
        have hcanvas' : (layer.sealStroke false).canvasStrokes layer.strokeAnchor = some all := hcanvas
        rw [drawing_setCanvas (hcanvas' ▸ rfl), drawing_sealStroke]
        exact Traces.liftRepaint hrepaint hcanvas hsub (fun _ => ops_of_rasterizeAllStrokesWithInk)
          Option.map_eq_none_iff.mp false fun h => absurd rfl h
      · have hcur : target = layer.strokeAnchor → layer.currentStroke = none := by
          rintro rfl
          by_contra hcur
          obtain ⟨addr, haddr⟩ := Option.ne_none_iff_exists'.mp hcur
          have hdown : layer.strokeActive := (hwf.inFlight addr haddr).1
          simp [hdown] at hin
        rw [drawing_setCanvas (hcanvas ▸ rfl)]
        exact (Move.repaint target all all.dropLast _ _ hrepaint hcanvas hsub (fun h => .inl (hcur h))
          (fun _ => ops_of_rasterizeAllStrokesWithInk) Option.map_eq_none_iff.mp fun h => absurd rfl h).traces
    rw [drawing_scheduleRecompose]
    split_ifs
    · exact hmoves
    · exact hmoves

/-! ### Taps -/

omit [Scalar K] in
/-- A tap gesture clears canvases or does nothing. -/
theorem drawing_checkTapGestures : layer.checkTapGestures.drawing = layer.drawing ∨
    ∃ C, layer.checkTapGestures.drawing = (layer.drawing.wipe C).liftFrom C := by
  unfold checkTapGestures
  split_ifs
  · exact .inr ⟨_, drawing_clear⟩
  · split
    · split_ifs
      · exact .inr ⟨_, drawing_clearInkForAnchor⟩
      · exact .inl rfl
    · exact .inl rfl

theorem drawing_noteTapRelease (x y : K) (nowUs : ℤ) :
    (layer.noteTapRelease x y nowUs).drawing = layer.drawing ∨
      ∃ C, (layer.noteTapRelease x y nowUs).drawing = (layer.drawing.wipe C).liftFrom C := by
  unfold noteTapRelease
  dsimp only
  split_ifs
  · exact .inl rfl
  · exact .inl rfl
  · exact .inl rfl
  · generalize htapped : MetaAnnotationLayer.tapHistoryAppend _ _ _ = tapped
    have hdrawing : tapped.drawing = layer.drawing := by
      rw [← htapped]
      rfl
    rw [← hdrawing]
    exact drawing_checkTapGestures

theorem traces_noteTapRelease (x y : K) (nowUs : ℤ) :
    Traces L layer.drawing (layer.noteTapRelease x y nowUs).drawing := by
  rcases layer.drawing_noteTapRelease x y nowUs with heq | ⟨C, heq⟩
  · exact heq ▸ .refl
  · exact heq ▸ (Move.wipe C).traces

theorem stranded_noteTapRelease {x y : K} {nowUs : ℤ}
    (h : (layer.noteTapRelease x y nowUs).drawing.Stranded) : layer.drawing.Stranded := by
  rcases layer.drawing_noteTapRelease x y nowUs with heq | ⟨C, heq⟩
  · rwa [heq] at h
  · rw [heq] at h
    exact h.of_wipe

/-! ### Scroll-following -/

/-- A call clears the region of the window the pen is on, which has none, and seals the
stroke in flight without repainting. -/
def ClearsNoRegion (layer : MetaAnnotationLayer K) (w h : ℤ) (win : WindowId) : Prop :=
  layer.strokeActive ∧ layer.strokeAnchor = some win ∧ (w ≤ 0 ∨ h ≤ 0) ∧
    ∃ ink, layer.perWindow win = some ink ∧ ink.hasEditorRegion = false

section Records
variable {ink ink' : WindowInk K} (hink : layer.perWindow win = some ink)
include hink

omit [Scalar K] in
theorem drawing_modifyInk_const : (layer.modifyInk win fun _ => ink').drawing =
    layer.drawing.setPage (some win) (some ink'.strokes) (some ink'.surface) (some ink'.frame) :=
  drawing_putInk (by rw [hink]; rfl)

omit [Scalar K] in
theorem drawing_strokes_some : layer.drawing.strokes (some win) = some ink.strokes := by
  simp [drawing, canvasStrokes, hink]

omit [Scalar K] in
theorem drawing_surface_some : layer.drawing.surface (some win) = some ink.surface := by
  simp [drawing, canvasSurface, hink]

omit [Scalar K] in
theorem drawing_frame_some : layer.drawing.frame (some win) = some ink.frame := by
  simp [drawing, anchorInk, hink]

section Repainting
variable (hrepaint : L.repaint) (hstrokes : ink'.strokes = ink.strokes)
  (hsurface : ink'.surface.ops = printed (some ink'.frame) ink.strokes)
include hrepaint hstrokes hsurface

/-- The record of a window gets another frame, and its canvas is repainted. -/
theorem traces_repaintInk
    (hreframe : ink'.frame ≠ ink.frame → L.reframe ∧
      (layer.strokeAnchor = some win → layer.strokeActive → layer.strokeFollowScroll = false)) :
    Traces L layer.drawing (layer.modifyInk win fun _ => ink').drawing := by
  rw [drawing_modifyInk_const hink, hstrokes]
  refine (Move.repaint (some win) ink.strokes ink.strokes _ _ hrepaint (drawing_strokes_some hink)
    (List.Sublist.refl _) (fun _ => .inr rfl) (fun target htarget => ?_)
    (fun h => absurd h (Option.some_ne_none _)) fun hne => ?_).traces
  · rw [← Option.some.inj htarget, hsurface]
  · rw [drawing_frame_some hink] at hne ⊢
    obtain ⟨hL, hfree⟩ := hreframe fun h => hne (congrArg some h)
    exact ⟨hL, rfl, rfl, fun h => hfree h.symm⟩

/-- The same with the pen lifted from that canvas. -/
theorem traces_repaintInk_sealed (hreframe : L.reframe) (hanchor : layer.strokeAnchor = some win) :
    Traces L layer.drawing ((layer.modifyInk win fun _ => ink').sealStroke false).drawing := by
  have hsealed : ((layer.modifyInk win fun _ => ink').sealStroke false).drawing =
      (layer.drawing.lift false).setPage layer.drawing.anchor (some ink.strokes)
        (some ink'.surface) (some ink'.frame) := by
    rw [drawing_sealStroke, drawing_modifyInk_const hink, hstrokes]
    exact congrArg (fun c => (layer.drawing.lift false).setPage c _ _ _) hanchor.symm
  rw [hsealed]
  have hanchor' : layer.drawing.anchor = some win := hanchor
  refine Traces.liftRepaint hrepaint ?_ (List.Sublist.refl _) (fun target htarget => ?_)
    (fun h => absurd h (Option.some_ne_none _)) false fun hne => ?_
  · rw [hanchor']
    exact drawing_strokes_some hink
  · rw [← Option.some.inj htarget, hsurface]
  · rw [hanchor', drawing_frame_some hink] at hne ⊢
    exact ⟨hreframe, rfl, rfl⟩

end Repainting

section Reframing
variable (hreframe : L.reframe) (hstrokes : ink'.strokes = ink.strokes)
  (hsurface : ink'.surface = ink.surface) (hno : ink.frame.hasRegion = false)
  (hno' : ink'.frame.hasRegion = false)
include hreframe hstrokes hsurface hno hno'

/-- A record without a region gets another frame without one. -/
theorem traces_reframeInk : Traces L layer.drawing (layer.modifyInk win fun _ => ink').drawing := by
  have hframed : (layer.modifyInk win fun _ => ink').drawing = { layer.drawing with
      frame := Function.update layer.drawing.frame (some win) (some ink'.frame) } := by
    rw [drawing_modifyInk_const hink, hstrokes, hsurface, ← drawing_strokes_some hink,
      ← drawing_surface_some hink]
    simp [Drawing.setPage]
  rw [hframed]
  exact (Move.reframe (some win) ink.frame ink'.frame hreframe (drawing_frame_some hink) hno hno').traces

theorem traces_reframeInk_sealed (hstrand : layer.drawing.Stranded → L.strand) :
    Traces L layer.drawing ((layer.modifyInk win fun _ => ink').sealStroke false).drawing := by
  have hsealed : (layer.sealStroke false).perWindow win = some ink := hink
  exact (traces_sealStroke false hstrand).trans
    (traces_reframeInk hsealed hreframe hstrokes hsurface hno hno')

end Reframing

end Records

theorem clearsNoRegion_ensureWindowInk {w h : ℤ} (hclears : (layer.ensureWindowInk win).ClearsNoRegion w h win)
    (hstranded : (layer.ensureWindowInk win).drawing.Stranded) : layer.ClearsNoRegion w h win := by
  unfold ensureWindowInk at hclears hstranded
  cases hink : layer.perWindow win with
  | some ink => simpa only [hink] using hclears
  | none =>
    simp only [hink] at hclears hstranded
    split_ifs at hclears hstranded
    · exact hclears
    · obtain ⟨_, hanchor, _⟩ := hclears
      obtain ⟨surface, _, hnot⟩ := hstranded
      refine absurd (fun p hp => ?_) hnot
      obtain ⟨before, s, q, _, hs, _⟩ := hp.2
      have hanchor' : layer.strokeAnchor = some win := hanchor
      simp [drawing, canvasStrokes, hanchor'] at hs

theorem traces_setEditorRegionOf (hrepaint : L.repaint) (hreframe : L.reframe) (x y w h : ℤ)
    (hstrand : layer.ClearsNoRegion w h win → layer.drawing.Stranded → L.strand) :
    Traces L layer.drawing (layer.setEditorRegionOf x y w h win).drawing := by
  have hstrand' : (layer.ensureWindowInk win).ClearsNoRegion w h win →
      (layer.ensureWindowInk win).drawing.Stranded → L.strand := fun hclears hstranded =>
    hstrand (clearsNoRegion_ensureWindowInk hclears hstranded) (stranded_ensureWindowInk hstranded)
  have hensure : Traces L layer.drawing (layer.ensureWindowInk win).drawing := traces_ensureWindowInk
  refine hensure.trans ?_
  unfold setEditorRegionOf
  dsimp only
  generalize layer.ensureWindowInk win = ensured at hstrand'
  split
  · exact .refl
  next ink hink =>
    generalize hregion : (if w ≤ 0 ∨ h ≤ 0 then _ else _ : WindowInk K) = region
    have hstrokes : region.strokes = ink.strokes ∧ region.surface = ink.surface := by
      rw [← hregion]
      split_ifs <;> exact ⟨rfl, rfl⟩
    have hcleared : region.hasEditorRegion = false → w ≤ 0 ∨ h ≤ 0 := by
      intro hno
      by_contra hpos
      rw [← hregion, if_neg hpos] at hno
      exact absurd hno (by simp)
    obtain ⟨hstrokes, hsurface⟩ := hstrokes
    cases hflags : ink.hasEditorRegion || region.hasEditorRegion with
    | true =>
      simp only [if_true]
      generalize hrepainted : WindowInk.mk _ region.strokes _ _ _ _ _ _ _ _ _ = repainted
      have hstrokes' : repainted.strokes = ink.strokes := by rw [← hrepainted, hstrokes]
      have hsurface' : repainted.surface.ops = printed (some repainted.frame) ink.strokes := by
        simp only [← hrepainted, hstrokes, rasterizeAllStrokesWithInk_eq]
        rfl
      split_ifs with hsealed
      · have hanchor : ensured.strokeAnchor = some win := by
          simp only [Bool.and_eq_true, decide_eq_true_eq] at hsealed
          exact hsealed.2
        exact traces_repaintInk_sealed hink hrepaint hstrokes' hsurface' hreframe hanchor
      · refine traces_repaintInk hink hrepaint hstrokes' hsurface' fun _ => ⟨hreframe, fun hanchor hdown => ?_⟩
        simp_all [modifyInk]
    | false =>
      simp only [Bool.false_eq_true, if_false]
      obtain ⟨hno, hno'⟩ := Bool.or_eq_false_iff.mp hflags
      have hnone : ink.frame.hasRegion = false := by simp [Frame.hasRegion, WindowInk.frame, hno]
      have hnone' : region.frame.hasRegion = false := by simp [Frame.hasRegion, WindowInk.frame, hno']
      split_ifs with hsealed
      · refine traces_reframeInk_sealed hink hreframe hstrokes hsurface hnone hnone' (hstrand' ?_)
        simp only [Bool.and_eq_true, decide_eq_true_eq] at hsealed
        exact ⟨hsealed.1, hsealed.2, hcleared hno', ink, hink, hno⟩
      · exact traces_reframeInk hink hreframe hstrokes hsurface hnone hnone'

theorem traces_setScrollOf (hrepaint : L.repaint) (hreframe : L.reframe) (scrollX scrollY : ℤ) :
    Traces L layer.drawing (layer.setScrollOf scrollX scrollY win).drawing := by
  unfold setScrollOf
  split
  · exact .refl
  next ink hink =>
    split_ifs
    · exact .refl
    dsimp only
    split_ifs with hsealed
    · have hanchor : layer.strokeAnchor = some win := by
        simp only [Bool.and_eq_true, decide_eq_true_eq] at hsealed
        exact hsealed.1.2
      exact traces_repaintInk_sealed hink hrepaint rfl
        (by rw [rasterizeAllStrokesWithInk_eq]; rfl) hreframe hanchor
    · refine traces_repaintInk hink hrepaint rfl (by rw [rasterizeAllStrokesWithInk_eq]; rfl)
        fun _ => ⟨hreframe, fun hanchor hdown => ?_⟩
      simp_all [modifyInk]

theorem traces_foldl {f : MetaAnnotationLayer K → WindowId → MetaAnnotationLayer K}
    {P : MetaAnnotationLayer K → Prop} {wins : List WindowId}
    (hf : ∀ layer win, win ∈ wins → P layer → Traces L layer.drawing (f layer win).drawing ∧ P (f layer win))
    (hP : P layer) : Traces L layer.drawing (wins.foldl f layer).drawing := by
  induction wins generalizing layer with
  | nil => exact .refl
  | cons win wins ih =>
    obtain ⟨htraces, hP'⟩ := hf layer win (by simp) hP
    exact htraces.trans (ih (fun layer' win' hwin' => hf layer' win' (by simp [hwin'])) hP')

/-- The stroke in flight is still that of `layer`, on the same record. -/
def SameFlight (layer layer' : MetaAnnotationLayer K) : Prop :=
  layer'.strokeActive → layer.strokeActive ∧ layer'.strokeAnchor = layer.strokeAnchor ∧
    layer'.currentStroke = layer.currentStroke ∧
    ∀ win, layer.strokeAnchor = some win → layer'.perWindow win = layer.perWindow win

theorem setEditorRegionOf_cases (x y w h : ℤ) :
    (layer.setEditorRegionOf x y w h win = layer.ensureWindowInk win ∧
      (layer.ensureWindowInk win).perWindow win = none) ∨
    ∃ ink : WindowInk K, layer.setEditorRegionOf x y w h win =
      if layer.strokeActive && layer.strokeAnchor = some win then
        ((layer.ensureWindowInk win).modifyInk win fun _ => ink).sealStroke false
      else (layer.ensureWindowInk win).modifyInk win fun _ => ink := by
  have hself : layer.ensureWindowInk win =
      { layer with perWindow := (layer.ensureWindowInk win).perWindow } := ensureWindowInk_eq rfl rfl
  unfold setEditorRegionOf
  dsimp only
  split
  next hink => exact .inl ⟨rfl, hink⟩
  · right
    rw [hself]
    exact ⟨_, rfl⟩

theorem sameFlight_setEditorRegionOf (x y w h : ℤ) : SameFlight layer (layer.setEditorRegionOf x y w h win) := by
  have hself : layer.ensureWindowInk win =
      { layer with perWindow := (layer.ensureWindowInk win).perWindow } := ensureWindowInk_eq rfl rfl
  have hother : ∀ win', win' ≠ win → (layer.ensureWindowInk win).perWindow win' = layer.perWindow win' := by
    intro win' hne
    unfold ensureWindowInk
    cases layer.perWindow win with
    | some ink => rfl
    | none =>
      dsimp only
      split_ifs
      · rfl
      · exact Function.update_of_ne hne ..
  have hkept : ∀ ink, layer.perWindow win = some ink →
      (layer.ensureWindowInk win).perWindow win = some ink := by
    intro ink hink
    rw [ensureWindowInk, hink]
    exact hink
  rcases layer.setEditorRegionOf_cases x y w h with ⟨heq, hnone⟩ | ⟨ink, heq⟩
  · rw [heq]
    intro hdown
    rw [hself] at hdown
    refine ⟨hdown, by rw [hself], by rw [hself], fun win' _ => ?_⟩
    by_cases hne : win' = win
    · subst hne
      rw [hnone, eq_comm, Option.eq_none_iff_forall_ne_some]
      intro ink hsome
      simp [hkept ink hsome] at hnone
    · exact hother win' hne
  · rw [heq]
    split_ifs with hsealed
    · intro hdown
      simp [sealStroke] at hdown
    · intro hdown
      rw [hself] at hdown
      have hdown' : layer.strokeActive := hdown
      refine ⟨hdown', by rw [hself]; rfl, by rw [hself]; rfl, fun win' hanchor => ?_⟩
      have hne : win' ≠ win := by
        rintro rfl
        simp [hdown', hanchor] at hsealed
      exact (Function.update_of_ne hne ..).trans (hother win' hne)

omit [Scalar K] in
theorem SameFlight.trans {layer' layer'' : MetaAnnotationLayer K} (h : SameFlight layer layer')
    (h' : SameFlight layer' layer'') : SameFlight layer layer'' := by
  intro hdown
  obtain ⟨hdown', hanchor', hcur', hrecord'⟩ := h' hdown
  obtain ⟨hdown, hanchor, hcur, hrecord⟩ := h hdown'
  exact ⟨hdown, hanchor'.trans hanchor, hcur'.trans hcur,
    fun win hwin => (hrecord' win (hanchor.trans hwin)).trans (hrecord win hwin)⟩

/-- What strands a point later would strand it now. -/
theorem SameFlight.strands {layer' : MetaAnnotationLayer K} (h : SameFlight layer layer') {w h' : ℤ}
    (hclears : layer'.ClearsNoRegion w h' win) (hstranded : layer'.drawing.Stranded) :
    layer.ClearsNoRegion w h' win ∧ layer.drawing.Stranded := by
  obtain ⟨hdown', hanchor', hsize, ink, hink, hno⟩ := hclears
  obtain ⟨hdown, hanchor, hcur, hrecord⟩ := h hdown'
  have hwin : layer.strokeAnchor = some win := hanchor.symm.trans hanchor'
  have hsame := hrecord win hwin
  refine ⟨⟨hdown, hwin, hsize, ink, hsame ▸ hink, hno⟩, hstranded.congr hanchor hcur ?_ ?_ ?_⟩ <;>
    simp [hwin, drawing, canvasStrokes, canvasSurface, anchorInk, hsame]

theorem traces_setWindowEditorRegion (hrepaint : L.repaint) (hreframe : L.reframe) (pid : ℕ) (x y w h : ℤ)
    (hstrand : ∀ win ∈ layer.display.collectWindowsForPid pid,
      layer.ClearsNoRegion w h win → layer.drawing.Stranded → L.strand) :
    Traces L layer.drawing (layer.setWindowEditorRegion pid x y w h).drawing := by
  unfold setWindowEditorRegion
  dsimp only
  split_ifs
  · exact .refl
  rw [drawing_scheduleRecompose]
  refine traces_foldl (P := SameFlight layer) (fun layer' win hwin hsame => ⟨?_, ?_⟩)
    fun hdown => ⟨hdown, rfl, rfl, fun _ _ => rfl⟩
  · refine traces_setEditorRegionOf hrepaint hreframe x y w h fun hclears hstranded => ?_
    obtain ⟨hclears', hstranded'⟩ := hsame.strands hclears hstranded
    exact hstrand win hwin hclears' hstranded'
  · exact hsame.trans (sameFlight_setEditorRegionOf x y w h)

theorem traces_setWindowScroll (hrepaint : L.repaint) (hreframe : L.reframe) (pid : ℕ)
    (scrollX scrollY : ℤ) :
    Traces L layer.drawing (layer.setWindowScroll pid scrollX scrollY).drawing := by
  unfold setWindowScroll
  dsimp only
  split_ifs
  · exact .refl
  rw [drawing_scheduleRecompose]
  exact traces_foldl (P := fun _ => True)
    (fun _ _ _ _ => ⟨traces_setScrollOf hrepaint hreframe scrollX scrollY, trivial⟩) trivial

/-! ### Activation and pause -/

theorem traces_setActive (active : Bool)
    (hstrand : active = false → layer.drawing.Stranded → L.strand) :
    Traces L layer.drawing (layer.setActive active).drawing := by
  unfold setActive
  rw [drawing_updateActorVisibility]
  cases active with
  | true => exact .refl
  | false => exact (Move.drop (hstrand rfl)).traces

theorem traces_setPaused (paused : Bool)
    (hstrand : layer.paused = false → paused → layer.strokeActive → layer.drawing.Stranded → L.strand) :
    Traces L layer.drawing (layer.setPaused paused).drawing := by
  unfold setPaused
  rw [drawing_updateActorVisibility]
  dsimp only
  cases hwas : !layer.paused && paused with
  | false => exact .refl
  | true =>
    simp only [Bool.true_and, if_true]
    simp only [Bool.and_eq_true, Bool.not_eq_true'] at hwas
    split_ifs with hdown
    · exact (Move.lift layer.strokeFollowScroll (hstrand hwas.1 hwas.2 hdown)).traces
    · exact .refl

/-! ### The stage and the windows -/

/-- The desktop is repainted at its new size, then the pen lifted. -/
theorem traces_onStageSizeChanged (hrepaint : L.repaint) (width height : ℤ)
    (hstrand : layer.strokeAnchor ≠ none ∨ width < 1 ∨ height < 1 → layer.drawing.Stranded → L.strand) :
    Traces L layer.drawing (layer.onStageSizeChanged width height).drawing := by
  unfold onStageSizeChanged recreateBuffers
  split_ifs with hsize
  · exact traces_sealStroke _ (hstrand (.inr hsize))
  dsimp only
  rw [drawing_sealStroke, drawing_scheduleRecompose]
  let shown : Surface K :=
    rasterizeAllStrokes (cairoSurfaceNewCleared width height) layer.unattachedStrokes
  have hops : ∀ target, some shown = some target → target.ops = printed none layer.unattachedStrokes := by
    intro target htarget
    rw [← Option.some.inj htarget]
    exact congrArg Surface.ops (rasterizeAllStrokesWithInk_eq _ _ none)
  have hdrawing : (layer.drawing.lift layer.strokeFollowScroll).setPage none
      (some layer.unattachedStrokes) (some shown) none =
      ({ layer with
        surface := some (⟨width, height, fun _ _ => []⟩ : Composite K)
        unattachedSurface := some shown
        stageWidth := width
        stageHeight := height } : MetaAnnotationLayer K).drawing.lift layer.strokeFollowScroll := by
    refine Drawing.ext rfl rfl rfl rfl rfl rfl rfl rfl (funext fun c => ?_) (funext fun c => ?_)
      (funext fun c => ?_) <;> cases c <;> rfl
  have hrepainted : Traces L layer.drawing ((layer.drawing.lift layer.strokeFollowScroll).setPage none
      (some layer.unattachedStrokes) (some shown) none) := by
    by_cases hanchor : layer.drawing.anchor = none
    · have htraces := Traces.liftRepaint (L := L) (d := layer.drawing) hrepaint (by rw [hanchor]; rfl)
        (List.Sublist.refl _) hops nofun layer.strokeFollowScroll fun h => absurd (by rw [hanchor]; rfl) h
      rwa [hanchor] at htraces
    · refine Traces.trans (traces_sealStroke layer.strokeFollowScroll (hstrand (.inl hanchor))) ?_
      exact (Move.repaint none _ _ _ _ hrepaint rfl (List.Sublist.refl _) (fun _ => .inl rfl) hops nofun
        fun h => absurd rfl h).traces
  rwa [hdrawing] at hrepainted

/-- Resizing a window repaints its canvas. -/
theorem traces_onWindowSizeChanged (hrepaint : L.repaint) :
    Traces L layer.drawing (layer.onWindowSizeChanged win).drawing := by
  unfold onWindowSizeChanged windowInkResizeToFrame
  rw [drawing_scheduleRecompose]
  dsimp only
  split_ifs
  · exact .refl
  · cases hink : layer.perWindow win with
    | none =>
      rw [modifyInk, hink, Option.map_none, Function.update_eq_self_iff.mpr hink.symm]
      exact .refl
    | some ink =>
      by_cases hsize : ink.width = (layer.frameRect win).width ∧ ink.height = (layer.frameRect win).height
      · rw [modifyInk, hink, Option.map_some, if_pos hsize, Function.update_eq_self_iff.mpr hink.symm]
        exact .refl
      · have hresized : ∀ ink', ({ layer with perWindow := Function.update layer.perWindow win (some ink') } :
            MetaAnnotationLayer K) = layer.modifyInk win fun _ => ink' := by
          intro ink'
          rw [modifyInk, hink, Option.map_some]
        rw [modifyInk, hink, Option.map_some, if_neg hsize, hresized]
        exact traces_repaintInk hink hrepaint rfl (by rw [rasterizeAllStrokesWithInk_eq]; rfl)
          fun h => absurd rfl h

theorem traces_onSignal {handler : MetaAnnotationLayer K → MetaAnnotationLayer K}
    (h : Traces L layer.drawing (handler layer).drawing) :
    Traces L layer.drawing (layer.onSignal win handler).drawing := by
  unfold onSignal
  split_ifs
  · exact h
  · exact .refl

theorem traces_windowFrameChanged (hrepaint : L.repaint) (frame : MtkRectangle) :
    Traces L layer.drawing (layer.windowFrameChanged win frame).drawing := by
  unfold windowFrameChanged
  dsimp only
  generalize hmoved : layer.setDisplay _ = moved
  have hmoved' : moved.drawing = layer.drawing := by
    rw [← hmoved]
    exact drawing_setDisplay _
  rw [← hmoved']
  have hpos : (moved.onSignal win (·.onWindowPositionChanged)).drawing = moved.drawing :=
    drawing_onSignal fun _ => drawing_scheduleRecompose
  have hsize : ∀ l : MetaAnnotationLayer K,
      Traces L l.drawing (l.onSignal win (·.onWindowSizeChanged win)).drawing := fun l =>
    traces_onSignal (traces_onWindowSizeChanged hrepaint)
  split_ifs
  · exact hpos ▸ hsize _
  · exact hsize _
  · rw [hpos]
    exact .refl
  · exact .refl

/-- The canvas of the window is removed, and the pen lifted from it. -/
theorem traces_onWindowUnmanaged : Traces L layer.drawing (layer.onWindowUnmanaged win).drawing := by
  unfold onWindowUnmanaged
  dsimp only
  rw [drawing_scheduleRecompose]
  generalize hsealed : (if layer.strokeAnchor = some win then _ else _ : MetaAnnotationLayer K) = sealed
  generalize hforgotten : (if sealed.lastInkAnchor = some win then _ else _ : MetaAnnotationLayer K) =
    forgotten
  have hforget : forgotten.drawing = layer.drawing.liftFrom (· = some win) := by
    rw [← drawing_sealAt, hsealed, ← hforgotten]
    split_ifs <;> rfl
  have hremoved : ({ forgotten with perWindow := Function.update forgotten.perWindow win none } :
      MetaAnnotationLayer K).drawing = _ := drawing_updateRecord none
  rw [hforget, Option.map_none, Option.map_none, Option.map_none, ← Drawing.liftFrom_setPage] at hremoved
  have hdetach := (Move.detach (L := L) (d := layer.drawing) win).traces
  rw [← hremoved] at hdetach
  exact hdetach

theorem traces_windowUnmanaged : Traces L layer.drawing (layer.windowUnmanaged win).drawing := by
  unfold windowUnmanaged
  dsimp only
  rw [onDisplayRestacked, drawing_scheduleRecompose, drawing_setDisplay]
  exact traces_onSignal traces_onWindowUnmanaged

omit [Scalar K] in
/-- No canvas of a window that is not managed is anchored. -/
theorem drawing_windowFinalized (hwf : WellFormed layer.sheets) :
    (layer.windowFinalized win).drawing = layer.drawing := by
  unfold windowFinalized
  by_cases hwin : win ∈ layer.display.windows
  · rw [if_pos hwin]
  rw [if_neg hwin]
  have hanchor : layer.strokeAnchor ≠ some win := by
    intro hanchor
    have hanchored := hwf.anchored
    rw [show layer.sheets.anchor = some win from hanchor] at hanchored
    exact hwin (hwf.roomy _ hanchored win rfl)
  dsimp only
  rw [if_neg hanchor]
  split_ifs <;> rfl

end MetaAnnotationLayer

end Annotations
