import Annotations.Ink.Album
import Annotations.Tracing.Permits

/-! Ink is kept. A stroke is gone only if it was cleared, undone, rubbed out or its window was unmanaged,
and it changes only by the pen that draws it: everything else that may happen to the layer, from pauses
to resized windows, leaves the strokes of every canvas as they are. -/

namespace Annotations

open Albums Runs Sheets

variable {K : Type} [Scalar K]

namespace MetaAnnotationLayer

section
variable (layer : MetaAnnotationLayer K)

/-- The eraser touches the stroke on its way to the point. -/
def rubsOut (tip : InkPoint K) (c : Canvas) (s : Stroke K) : Bool :=
  c = layer.strokeAnchor && strokeHitBySegment (layer.anchorInk layer.strokeAnchor) layer.strokeLastX
    layer.strokeLastY tip.x tip.y (eraserRadius tip.pressure tip.tiltFactor) s

/-- The event moves the eraser over the stroke. -/
def erases (event : ClutterEvent K) (c : Canvas) (s : Stroke K) : Bool :=
  layer.continues event && layer.eraseIsActive event && layer.rubsOut (layer.eventTip event) c s

/-- The operation takes the stroke off the canvas: it clears the canvas, undoes the stroke, ends its
window, rubs it out, or is the last tap of a gesture. -/
def takes (op : LayerOp K) (c : Canvas) (s : Stroke K) : Bool :=
  match op with
  | .call .clear => true
  | .call .undoLast => layer.lastInkPresent && layer.lastInkAnchor = c &&
      (layer.inkOn c).getLast?.any fun last => last.addr = s.addr
  | .call (.windowUnmanaged win) => c = some win
  | .handleEvent event nowUs => layer.erases event c s ||
      (layer.gestureAt (.handleEvent event nowUs)).any fun gesture => gesture.wipes c
  | _ => false

end

variable {layer layer' : MetaAnnotationLayer K} {c : Canvas} {win : WindowId} {event : ClutterEvent K} {nowUs : ℤ}

/-! ### Calls that take ink -/

omit [Scalar K] in
theorem turn_clear : Turn (Stroke.growth K) (fun _ _ => true) layer.album layer.clear.album := by
  have hdrawing : layer.clear.drawing = (layer.drawing.wipe fun _ => true).liftFrom fun _ => true := drawing_clear
  refine .of_page (fun c => ?_) (congrArg Drawing.next hdrawing) (.inr (congrArg Drawing.current hdrawing))
  have hpage : layer.clear.canvasStrokes c = (layer.canvasStrokes c).map fun _ => [] :=
    congrFun (congrArg Drawing.strokes hdrawing) c
  change layer.clear.inkOn c = _
  rw [inkOn, hpage]
  cases layer.canvasStrokes c <;> simp

omit [Scalar K] in
/-- Without the last stroke of a page, which no other has the address of. -/
theorem dropLast_eq_filter {strokes : List (Stroke K)} (hnodup : (strokes.map Stroke.addr).Nodup) :
    strokes.dropLast = strokes.filter fun s => !strokes.getLast?.any fun last => last.addr = s.addr := by
  induction strokes using List.reverseRecOn with
  | nil => rfl
  | append_singleton before last _ =>
    rw [List.map_append, List.map_singleton, List.nodup_append] at hnodup
    have hbefore : before.filter (fun s => !decide (last.addr = s.addr)) = before := by
      refine List.filter_eq_self.mpr fun s hs => ?_
      have hne := hnodup.2.2 s.addr (List.mem_map_of_mem hs) last.addr (List.mem_singleton_self _)
      simpa using hne.symm
    simp [hbefore]

/-- Where there is no ink to undo, nothing is taken. -/
theorem takes_undoLast_of_empty (hempty : layer.inkOn layer.lastInkAnchor = [] ∨ layer.lastInkPresent = false) :
    layer.takes (.call .undoLast) = fun _ _ => false := by
  funext c s
  change (layer.lastInkPresent && layer.lastInkAnchor = c && (layer.inkOn c).getLast?.any _) = false
  rcases hempty with hempty | hpresent
  · by_cases hc : layer.lastInkAnchor = c
    · simp [← hc, hempty]
    · simp [hc]
  · simp [hpresent]

omit [Scalar K] in
/-- Severing the stroke in flight at most lifts the pen. -/
theorem strokes_severAt (layer : MetaAnnotationLayer K) (c : Canvas) : (layer.severAt c).nextStroke = layer.nextStroke ∧
    ((layer.severAt c).currentStroke = layer.currentStroke ∨ (layer.severAt c).currentStroke = none) := by
  unfold severAt
  split_ifs
  · exact ⟨rfl, .inr rfl⟩
  · exact ⟨rfl, .inl rfl⟩

/-- The page of the last ink loses its last stroke. -/
theorem turn_undone (hwf : WellFormed layer.sheets) (hpresent : layer.lastInkPresent = true) {all : List (Stroke K)}
    (hcanvas : layer.canvasStrokes layer.lastInkAnchor = some all) (f : Surface K → Surface K) :
    Turn (Stroke.growth K) (layer.takes (.call .undoLast)) layer.album
      (((layer.severAt layer.lastInkAnchor).setCanvasStrokes layer.lastInkAnchor all.dropLast).modifyCanvasSurface
        layer.lastInkAnchor f).album := by
  have hsame : (layer.severAt layer.lastInkAnchor).canvasStrokes = layer.canvasStrokes :=
    (severAt_spec hwf layer.lastInkAnchor).1
  obtain ⟨hnext, hcurrent⟩ := layer.strokes_severAt layer.lastInkAnchor
  generalize layer.severAt layer.lastInkAnchor = severed at hsame hnext hcurrent
  have hsome : (severed.canvasStrokes layer.lastInkAnchor).isSome := by
    rw [hsame, hcanvas]
    rfl
  have hink : severed.inkOn = layer.inkOn := funext fun c => congrArg (·.getD []) (congrFun hsame c)
  have hpage : layer.inkOn layer.lastInkAnchor = all := by rw [inkOn, hcanvas, Option.getD_some]
  have hnodup := hwf.distinct.nodup layer.lastInkAnchor
  rw [addrs_sheets hcanvas] at hnodup
  rw [album_setCanvas hsome, hink]
  refine .of_page (fun c => ?_) hnext hcurrent
  change Function.update layer.inkOn layer.lastInkAnchor all.dropLast c = (layer.inkOn c).filter fun s =>
    !(layer.lastInkPresent && layer.lastInkAnchor = c && (layer.inkOn c).getLast?.any fun last => last.addr = s.addr)
  by_cases hc : layer.lastInkAnchor = c
  · subst hc
    simpa [hpage, hpresent] using dropLast_eq_filter hnodup
  · simp [Ne.symm hc, hc]

theorem turn_undoLast (hwf : WellFormed layer.sheets) :
    Turn (Stroke.growth K) (layer.takes (.call .undoLast)) layer.album layer.undoLast.album := by
  unfold undoLast
  cases hpresent : layer.lastInkPresent with
  | false =>
    rw [takes_undoLast_of_empty (.inr hpresent), Bool.not_false, if_pos rfl]
    exact Draws.refl
  | true =>
    simp only [Bool.not_true, Bool.false_eq_true, if_false]
    split
    next hcanvas =>
      rw [takes_undoLast_of_empty (.inl (by rw [inkOn, hcanvas, Option.getD_none]))]
      exact draws_of_drawing drawing_scheduleRecompose
    next hcanvas =>
      rw [takes_undoLast_of_empty (.inl (by rw [inkOn, hcanvas, Option.getD_some]))]
      exact draws_of_drawing drawing_scheduleRecompose
    next s rest hcanvas =>
      generalize s :: rest = all at hcanvas
      rw [album_of_drawing drawing_scheduleRecompose]
      split_ifs
      · exact turn_undone hwf hpresent hcanvas _
      · exact turn_undone hwf hpresent hcanvas _

omit [Scalar K] in
theorem turn_onWindowUnmanaged :
    Turn (Stroke.growth K) (fun c _ => c = some win) layer.album (layer.onWindowUnmanaged win).album := by
  unfold onWindowUnmanaged
  dsimp only
  rw [album_of_drawing drawing_scheduleRecompose]
  generalize hforgotten : (if MetaAnnotationLayer.lastInkAnchor _ = some win then _ else _ : MetaAnnotationLayer K) =
    forgotten
  have hforget : forgotten.drawing = layer.drawing.liftFrom (· = some win) := by
    rw [← drawing_sealAt, ← hforgotten]
    split_ifs <;> rfl
  have hpage : forgotten.canvasStrokes = layer.canvasStrokes :=
    (congrArg Drawing.strokes hforget).trans (Drawing.liftFrom_strokes ..)
  generalize hremoved : MetaAnnotationLayer.mk .. = removed
  have hink : ∀ c, removed.inkOn c = if c = some win then [] else forgotten.inkOn c := by
    intro c
    rw [← hremoved]
    cases c with
    | none => rfl
    | some w =>
      by_cases hw : w = win
      · subst hw
        simp [inkOn, canvasStrokes]
      · simp [inkOn, canvasStrokes, hw]
  refine .of_page (fun c => ?_) (Eq.trans (by rw [← hremoved]; rfl)
    ((congrArg Drawing.next hforget).trans (Drawing.liftFrom_next ..))) ?_
  · change removed.inkOn c = (layer.inkOn c).filter fun _ => !decide (c = some win)
    rw [hink c, inkOn, hpage, ← inkOn]
    by_cases hc : c = some win <;> simp [hc]
  · have hcurrent : forgotten.currentStroke = (layer.drawing.liftFrom (· = some win)).current :=
      congrArg Drawing.current hforget
    change removed.currentStroke = layer.currentStroke ∨ removed.currentStroke = none
    rw [← hremoved, hcurrent]
    unfold Drawing.liftFrom
    split_ifs
    · exact .inr rfl
    · exact .inl rfl

theorem turn_windowUnmanaged :
    Turn (Stroke.growth K) (layer.takes (.call (.windowUnmanaged win))) layer.album (layer.windowUnmanaged win).album := by
  unfold windowUnmanaged
  dsimp only
  rw [onDisplayRestacked, album_of_drawing drawing_scheduleRecompose, album_of_drawing (drawing_setDisplay _)]
  unfold onSignal
  split_ifs with hrecord
  · exact turn_onWindowUnmanaged
  · -- a window without a record has no ink
    refine .of_page (fun c => ?_) rfl (.inl rfl)
    change layer.inkOn c = (layer.inkOn c).filter fun _ => !decide (c = some win)
    by_cases hc : c = some win
    · have hempty : layer.inkOn c = [] := by
        rw [Bool.not_eq_true, Option.isSome_eq_false_iff, Option.isNone_iff_eq_none] at hrecord
        simp [hc, inkOn, canvasStrokes, hrecord]
      simp [hempty]
    · simp [hc]

/-! ### Events -/

theorem turn_continueErase (hready : layer.AnchorReady) (tip : InkPoint K) : Turn (Stroke.growth K) (layer.rubsOut tip)
    layer.album (layer.continueErase tip.x tip.y tip.pressure tip.tiltFactor).album := by
  obtain ⟨surface, hsurface⟩ := Option.isSome_iff_exists.mp hready
  have hsurface' : layer.dropStroke.canvasSurface layer.dropStroke.strokeAnchor = some surface := hsurface
  generalize hleft : eraseStrokesHitBySegment (layer.inkOn layer.strokeAnchor) layer.strokeLastX layer.strokeLastY
    tip.x tip.y (eraserRadius tip.pressure tip.tiltFactor) (layer.anchorInk layer.strokeAnchor) = left
  have hpage : ∀ c, (layer.inkOn c).filter (fun s => !layer.rubsOut tip c s) =
      if c = layer.strokeAnchor then left.1 else layer.inkOn c := by
    intro c
    split_ifs with hc
    · rw [hc, ← hleft, eraseStrokesHitBySegment_fst]
      simp [rubsOut]
    · simp [rubsOut, hc]
  unfold continueErase
  dsimp only
  cases hstrokes : layer.canvasStrokes layer.strokeAnchor with
  | none =>
    have hstrokes' : layer.dropStroke.canvasStrokes layer.dropStroke.strokeAnchor = none := hstrokes
    rw [hsurface', hstrokes']
    refine .of_page (fun c => Eq.trans ?_ (hpage c).symm) rfl (.inr rfl)
    have hempty : layer.inkOn layer.strokeAnchor = [] := by rw [inkOn, hstrokes, Option.getD_none]
    split_ifs with hc
    · rw [hc, ← hleft, hempty]
      exact hempty
    · rfl
  | some strokes =>
    have hstrokes' : layer.dropStroke.canvasStrokes layer.dropStroke.strokeAnchor = some strokes := hstrokes
    have hsome : (layer.dropStroke.canvasStrokes layer.dropStroke.strokeAnchor).isSome := by rw [hstrokes']; rfl
    obtain rfl : layer.inkOn layer.strokeAnchor = strokes := by rw [inkOn, hstrokes, Option.getD_some]
    rw [hsurface', hstrokes']
    change Turn _ _ _ (if 0 < (eraseStrokesHitBySegment (layer.inkOn layer.strokeAnchor) layer.strokeLastX
      layer.strokeLastY tip.x tip.y (eraserRadius tip.pressure tip.tiltFactor)
      (layer.anchorInk layer.strokeAnchor)).2 then _ else layer.dropStroke).album
    split_ifs with hhit
    · rw [album_setCanvas hsome]
      refine .of_page (fun c => Eq.trans ?_ (hpage c).symm) rfl (.inr rfl)
      rw [← hleft]
      exact Function.update_apply ..
    · refine .of_page (fun c => Eq.trans ?_ (hpage c).symm) rfl (.inr rfl)
      have hnone : left.1 = layer.inkOn layer.strokeAnchor := by
        rw [eraseStrokesHitBySegment_snd_pos] at hhit
        rw [← hleft, eraseStrokesHitBySegment_fst]
        exact List.filter_eq_self.mpr fun s hs => by
          simpa using fun hs' => hhit (List.any_eq_true.mpr ⟨s, hs, hs'⟩)
      split_ifs with hc
      · rw [hc, hnone]
        rfl
      · rfl

theorem turn_continueAt (hready : layer.AnchorReady) (event : ClutterEvent K) :
    Turn (Stroke.growth K) (fun c s => layer.eraseIsActive event && layer.rubsOut (layer.eventTip event) c s)
      layer.album (layer.continueAt event).album := by
  have hcontinue : (layer.continueAt event).album = (if layer.eraseIsActive event then
      layer.continueErase (layer.eventTip event).x (layer.eventTip event).y (layer.eventTip event).pressure
        (layer.eventTip event).tiltFactor
      else layer.continueInk (layer.eventTip event).x (layer.eventTip event).y (layer.eventTip event).pressure
        (layer.eventTip event).tiltFactor).album := by
    unfold continueAt continueStroke
    dsimp only
    rw [album_of_drawing drawing_scheduleRecompose]
    rfl
  rw [hcontinue]
  cases herase : layer.eraseIsActive event with
  | true => simpa using turn_continueErase hready _
  | false => simpa using draws_continueInk ..

omit [Scalar K] in
theorem next_of_wiped {d : Drawing K} (h : layer.drawing = d ∨ ∃ C, layer.drawing = (d.wipe C).liftFrom C) :
    layer.nextStroke = d.next := by
  rcases h with h | ⟨C, h⟩
  · exact congrArg Drawing.next h
  · exact (congrArg Drawing.next h).trans (Drawing.liftFrom_next ..)

omit [Scalar K] in
/-- A release continues the stroke in flight, if there is one. -/
theorem continues_of_releases (h : layer.releases event) : layer.continues event = layer.strokeActive := by
  simp only [releases, Bool.and_eq_true] at h
  obtain ⟨htakes, hrelease⟩ := h
  unfold continues
  cases htype : event.type with
  | buttonRelease => simp_all
  | touchEnd => simp [htakes]
  | _ => simp [htype] at hrelease

/-- A release draws, and may then complete a gesture. -/
theorem turn_release (hready : layer.AnchorReady) (hreleases : layer.releases event) :
    Turn (Stroke.growth K) (layer.takes (.handleEvent event nowUs)) layer.album
      (layer.exec (.handleEvent event nowUs)).album := by
  have hreleasing : Turn (Stroke.growth K) (layer.erases event) layer.album (layer.releasing event).album := by
    have herases : layer.erases event = fun c s =>
        layer.strokeActive && layer.eraseIsActive event && layer.rubsOut (layer.eventTip event) c s := by
      rw [← continues_of_releases hreleases]
      rfl
    rw [herases]
    unfold releasing
    cases layer.strokeActive with
    | true => simpa using turn_continueAt hready event
    | false => simpa using Draws.refl
  have hdrawn := (layer.releasing event).drawing_noteTapRelease event.x event.y nowUs
  refine hreleasing.empty (C := fun c => (layer.gestureAt (.handleEvent event nowUs)).any fun gesture => gesture.wipes c)
    (fun c => ?_) ?_ (.inr ?_)
  · change (layer.exec (.handleEvent event nowUs)).inkOn c = if _ then [] else (layer.releasing event).inkOn c
    split_ifs with hclears
    · have hcleared : layer.Clears (.handleEvent event nowUs) c := by
        cases hgesture : layer.gestureAt (.handleEvent event nowUs) with
        | none => simp [hgesture] at hclears
        | some gesture => exact ⟨gesture, hgesture, by simpa [hgesture] using hclears⟩
      unfold inkOn
      cases hstrokes : (layer.exec (.handleEvent event nowUs)).canvasStrokes c with
      | none => rfl
      | some strokes => exact (cleared_exec hcleared).1 strokes hstrokes
    · have hkept : ¬ layer.Clears (.handleEvent event nowUs) c := by
        rintro ⟨gesture, hgesture, hwipes⟩
        rw [hgesture] at hclears
        exact hclears hwipes
      exact congrArg (·.getD []) (ink_exec_of_release hreleases hkept).1
  · rw [exec_of_releases hreleases, releaseAt_eq, endStroke, album_of_drawing drawing_scheduleRecompose]
    exact next_of_wiped hdrawn
  · rw [exec_of_releases hreleases, releaseAt_eq, endStroke, album_of_drawing drawing_scheduleRecompose]
    rfl

theorem takes_of_not_continues (hcontinues : layer.continues event = false) (hreleases : layer.releases event = false) :
    layer.takes (.handleEvent event nowUs) = fun _ _ => false := by
  have hgesture : layer.gestureAt (.handleEvent event nowUs) = none := by
    unfold gestureAt acceptedTap
    simp [hreleases]
  funext c s
  simp [takes, erases, hcontinues, hgesture]

theorem takes_of_continues (hcontinues : layer.continues event) (hreleases : layer.releases event = false) :
    layer.takes (.handleEvent event nowUs) =
      fun c s => layer.eraseIsActive event && layer.rubsOut (layer.eventTip event) c s := by
  have hgesture : layer.gestureAt (.handleEvent event nowUs) = none := by
    unfold gestureAt acceptedTap
    simp [hreleases]
  funext c s
  simp [takes, erases, hcontinues, hgesture]

/-- A stroke goes on, and may end. -/
theorem turn_continued (hready : layer.AnchorReady) (hcontinues : layer.continues event)
    (hreleases : layer.releases event = false)
    (hdraws : Draws (Stroke.growth K) (layer.continueAt event).album layer'.album) :
    Turn (Stroke.growth K) (layer.takes (.handleEvent event nowUs)) layer.album layer'.album := by
  rw [takes_of_continues hcontinues hreleases]
  exact (turn_continueAt hready event).trans hdraws

theorem turn_handleEvent (h : Kept layer) : Turn (Stroke.growth K) (layer.takes (.handleEvent event nowUs)) layer.album
    (layer.handleEvent event nowUs).1.album := by
  have hdraws : ∀ {layer' : MetaAnnotationLayer K}, layer.continues event = false → layer.releases event = false →
      Draws (Stroke.growth K) layer.album layer'.album →
        Turn (Stroke.growth K) (layer.takes (.handleEvent event nowUs)) layer.album layer'.album :=
    fun hcontinues hreleases hdraws => by
      rw [takes_of_not_continues hcontinues hreleases]
      exact hdraws
  unfold handleEvent
  cases htakes : layer.takesEvents with
  | false => exact hdraws (by simp [continues, htakes]) (by simp [releases, htakes]) .refl
  | true =>
    have hready : layer.AnchorReady := anchorReady h.wellFormed h.surfaced htakes
    have hpress : Draws (Stroke.growth K) layer.album (layer.pressAt event nowUs).album := draws_beginStroke ..
    have hcontinued : ((layer.continueAt event).cancelTapBeyondRadius event).album = (layer.continueAt event).album :=
      album_of_drawing (drawing_cancelTapBeyondRadius event)
    simp only [Bool.not_true, Bool.false_eq_true, if_false]
    cases htype : event.type with
    | buttonPress =>
      refine hdraws (by simp [continues, htype]) (by simp [releases, htype]) ?_
      dsimp only
      unfold handleButtonPress
      split_ifs
      · exact .refl
      · split
        next hmodifier => exact draws_of_drawing (drawing_handleToolModifierPress hmodifier)
        next => exact hpress
    | motion =>
      dsimp only
      unfold handleMotion
      cases hdown : layer.strokeActive with
      | false =>
        refine hdraws (by simp [continues, hdown]) (by simp [releases, htype]) ?_
        simp only [Bool.not_false, if_true]
        split_ifs
        · exact draws_beginStroke ..
        · exact .refl
      | true =>
        refine turn_continued hready (by simp [continues, htakes, hdown, htype]) (by simp [releases, htype]) ?_
        simp only [Bool.not_true, Bool.false_eq_true, if_false]
        rw [← hcontinued]
        split_ifs
        · exact .refl
        · exact draws_of_lift drawing_endStroke
    | buttonRelease =>
      dsimp only
      unfold handleButtonRelease
      split
      next hmodifier =>
        exact hdraws (by simp [continues, htype, hmodifier]) (by simp [releases, htype, hmodifier])
          (draws_of_drawing (drawing_handleToolModifierPress hmodifier))
      next hmodifier =>
        have hreleases : layer.releases event := by simp [releases, htakes, htype, hmodifier]
        exact exec_of_releases hreleases ▸ turn_release hready hreleases
    | touchBegin => exact hdraws (by simp [continues, htype]) (by simp [releases, htype]) hpress
    | touchUpdate =>
      dsimp only
      unfold handleTouchUpdate
      split_ifs with hdown
      · refine turn_continued hready (by simp [continues, htakes, hdown, htype]) (by simp [releases, htype]) ?_
        rw [hcontinued]
        exact .refl
      · exact hdraws (by simp [continues, hdown]) (by simp [releases, htype]) .refl
    | touchEnd =>
      have hreleases : layer.releases event := by simp [releases, htakes, htype]
      exact exec_of_releases hreleases ▸ turn_release hready hreleases
    | touchCancel =>
      exact hdraws (by simp [continues, htype]) (by simp [releases, htype]) (draws_of_lift drawing_endStroke)
    | _ => exact hdraws (by simp [continues, htype]) (by simp [releases, htype]) .refl

/-! ### Runs -/

/-- What an operation takes is gone, what it does not take is kept. -/
theorem turn_exec (h : Kept layer) (op : LayerOp K) :
    Turn (Stroke.growth K) (layer.takes op) layer.album (layer.exec op).album := by
  cases op with
  | call call =>
    have of_eq : (layer.execCall call).drawing = layer.drawing →
        Draws (Stroke.growth K) layer.album (layer.execCall call).album := draws_of_drawing
    cases call with
    | setActive active => exact draws_setActive active
    | setPaused paused => exact draws_setPaused paused
    | setColor rgba => exact Draws.refl
    | clear => exact turn_clear
    | undoLast => exact turn_undoLast h.wellFormed
    | setWindowEditorRegion pid x y w h => exact draws_setWindowEditorRegion pid x y w h
    | setWindowScroll pid scrollX scrollY => exact draws_setWindowScroll pid scrollX scrollY
    | setChromeRegions regions => exact of_eq drawing_scheduleRecompose
    | clearChromeRegions => exact of_eq drawing_scheduleRecompose
    | stageSizeChanged width height => exact draws_onStageSizeChanged width height
    | windowFrameChanged win frame => exact draws_windowFrameChanged frame
    | windowMinimized win minimized => exact of_eq (drawing_windowMinimized minimized)
    | windowWorkspaceChanged win workspace onAllWorkspaces =>
      exact of_eq (drawing_windowWorkspaceChanged workspace onAllWorkspaces)
    | windowHidden win hidden restacked => exact of_eq (drawing_windowHidden hidden restacked)
    | windowManaged win data => exact of_eq (drawing_windowManaged data)
    | windowUnmanaged win => exact turn_windowUnmanaged
    | windowFinalized win => exact of_eq (drawing_windowFinalized h.wellFormed)
    | restacked stacking => exact of_eq drawing_scheduleRecompose
    | activeWorkspaceChanged workspace => exact of_eq drawing_scheduleRecompose
    | recomposeIdle => exact of_eq drawing_recomposeIdleCb
  | handleEvent event nowUs => exact turn_handleEvent h
  | setChromePressActive id => exact Draws.refl
  | clearChromePress => exact Draws.refl

theorem turn_step (h : Kept layer) (op : LayerOp K) :
    Turn (Stroke.growth K) (layer.takes op) layer.album (layer.step op).album := turn_exec h op

/-- The operation at the step takes the stroke off the canvas. -/
def takesAt (start : MetaAnnotationLayer K) (ops : List (LayerOp K)) (i : ℕ) (c : Canvas) (s : Stroke K) : Bool :=
  ops[i]?.any fun op => (stateAt step start ops i).takes op c s

theorem turn_stateAt {start : MetaAnnotationLayer K} {ops : List (LayerOp K)} {i : ℕ} (hstart : Kept start)
    (hi : i < ops.length) : Turn (Stroke.growth K) (takesAt start ops i) (stateAt step start ops i).album
      (stateAt step start ops (i + 1)).album := by
  have hget := List.getElem?_eq_getElem hi
  have htakes : takesAt start ops i = (stateAt step start ops i).takes ops[i] := by
    funext c s
    rw [takesAt, hget, Option.any_some]
  rw [stateAt_succ hget, htakes]
  exact turn_step (kept_stateAt hstart i) _

/-- A stroke of a run is still there some steps later, and then on the same canvas, just if no step between
takes it. It is the same stroke with points at its end, and has none if the pen had left it. -/
theorem ink_left_iff (display : MetaDisplay) (input : AnnotationInput K) (width height : ℤ)
    (ops : List (LayerOp K)) {j k : ℕ} {c c' : Canvas} {s : Stroke K} (hjk : j ≤ k) (hk : k ≤ ops.length)
    (hs : s ∈ (stateAt step (metaAnnotationLayerNew display input width height) ops j).inkOn c) :
    let layer := stateAt step (metaAnnotationLayerNew display input width height) ops
    ((∃ s' ∈ (layer k).inkOn c', s'.addr = s.addr) ↔ c' = c ∧ ∀ i, j ≤ i → i < k → ∀ t ∈ (layer i).inkOn c,
        t.addr = s.addr → takesAt (metaAnnotationLayerNew display input width height) ops i c t = false) ∧
      ∀ s' ∈ (layer k).inkOn c', s'.addr = s.addr →
        s'.rgba = s.rgba ∧ s'.followScroll = s.followScroll ∧ s.points <+: s'.points ∧
          ((layer j).currentStroke ≠ some s.addr → s' = s) := by
  intro layer
  have hkept : ∀ i, Kept (layer i) := kept_stateAt kept_new
  have hturn : ∀ i < ops.length, Turn (Stroke.growth K) (takesAt (metaAnnotationLayerNew display input width height) ops i)
      (layer i).album (layer (i + 1)).album := fun i hi => turn_stateAt kept_new hi
  have hnumbered : ∀ i ≤ ops.length, Numbered (Stroke.growth K) (layer i).album :=
    fun i _ => numbered_of_wellFormed (hkept i).wellFormed
  refine ⟨Albums.left_iff hturn hnumbered hs hjk hk, fun s' hs' haddr => ?_⟩
  obtain ⟨-, -, ⟨-, hrgba, hfollow, hpoints⟩, hsame⟩ :=
    Albums.origin hturn hnumbered hs hjk hk hs' haddr
  exact ⟨hrgba, hfollow, hpoints, hsame⟩

/-- A stroke goes on, ends, and stays while the layer is paused, its window minimized and the layer switched off. -/
theorem ink_left_iff_minimized :
    let ops : List (LayerOp ℚ) := [.call (.setActive true), .handleEvent (.pen .buttonPress 1 1 1 true) 0,
      .handleEvent (.pen .motion 2 2 0 true) 1, .handleEvent (.pen .buttonRelease 2 2 1 false) 2,
      .call (.setPaused true), .call (.windowMinimized 0 true), .call (.setActive false)]
    let layer := stateAt step (metaAnnotationLayerNew .oneWindow .initial 10 10) ops
    ∃ s ∈ (layer 2).inkOn (some 0), s.points.length = 1 ∧
      ((∃ s' ∈ (layer 7).inkOn (some 0), s'.addr = s.addr) ↔
        some 0 = some 0 ∧ ∀ i, 2 ≤ i → i < 7 → ∀ t ∈ (layer i).inkOn (some 0), t.addr = s.addr →
          takesAt (metaAnnotationLayerNew .oneWindow .initial 10 10) ops i (some 0) t = false) ∧
      ∀ s' ∈ (layer 7).inkOn (some 0), s'.addr = s.addr →
        s'.rgba = s.rgba ∧ s'.followScroll = s.followScroll ∧ s.points <+: s'.points ∧
          ((layer 2).currentStroke ≠ some s.addr → s' = s) := by
  intro ops layer
  have hone : ((layer 2).inkOn (some 0)).map (·.points.length) = [1] := by decide +kernel
  obtain ⟨s, hstrokes, hlength⟩ := List.map_eq_singleton_iff.mp hone
  have hs : s ∈ (layer 2).inkOn (some 0) := by rw [hstrokes]; exact List.mem_singleton_self s
  exact ⟨s, hs, hlength, ink_left_iff .oneWindow .initial 10 10 ops (by decide) (by decide) hs⟩

end MetaAnnotationLayer

end Annotations
