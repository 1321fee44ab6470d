import Annotations.Tracing.Histories
import Annotations.Tracing.Refinement

/-! What each operation may do to the drawing, and that it does no more. -/

namespace Annotations

open Sheets Runs

variable {K : Type} [Scalar K]

namespace MetaAnnotationLayer

variable {layer : MetaAnnotationLayer K} {L : Permit K} {event : ClutterEvent K} {op : LayerOp K}

/-- The event starts a stroke. -/
def begins (layer : MetaAnnotationLayer K) (event : ClutterEvent K) : Bool :=
  layer.takesEvents && match event.type with
    | .buttonPress => !(event.getButton ≠ clutterButtonPrimary && event.getDeviceTool.isNone) &&
      (layer.handleToolModifierPress event true).isNone
    | .touchBegin => true
    | .motion => !layer.strokeActive && event.penDown
    | _ => false

/-- Where the event takes the pen. -/
def eventTip (layer : MetaAnnotationLayer K) (event : ClutterEvent K) : InkPoint K :=
  layer.nextTip event.x event.y event.getPressure event.getTiltFactor

/-- The operation seals the stroke in flight without repainting its canvas. -/
def SealsUnpainted (layer : MetaAnnotationLayer K) : LayerOp K → Prop
  | .handleEvent event _ =>
    layer.begins event ∨
    layer.takesEvents ∧ event.type = .touchCancel ∨
    layer.continues event ∧ layer.eraseIsActive event ∧ layer.hitsStroke (layer.eventTip event) = false
  | .call (.setActive active) => active = false
  | .call (.setPaused paused) => layer.paused = false ∧ paused
  | .call (.setWindowEditorRegion pid _ _ w h) =>
    ∃ win ∈ layer.display.collectWindowsForPid pid, layer.ClearsNoRegion w h win
  | .call (.stageSizeChanged width height) => layer.strokeAnchor ≠ none ∨ width < 1 ∨ height < 1
  | _ => False

/-- The operation leaves a single point of which nothing is painted. -/
def Strands (layer : MetaAnnotationLayer K) (op : LayerOp K) : Prop :=
  layer.SealsUnpainted op ∧ layer.drawing.Stranded

/-- What an operation may do to the drawing. -/
def permit (layer : MetaAnnotationLayer K) (op : LayerOp K) : Permit K :=
  match op with
  | .handleEvent event _ =>
    { press := fun c follow tip => layer.begins event ∧ c = layer.pickAnchorWindow event.x event.y ∧
        follow = layer.pressFollows event.x event.y event.getPressure event.getTiltFactor
          (layer.eraseIsActive event) ∧
        tip = layer.placedTip event.x event.y event.getPressure event.getTiltFactor
      trace := fun c tip => layer.continues event ∧ c = layer.strokeAnchor ∧ tip = layer.eventTip event
      ink := layer.continues event ∧ layer.eraseIsActive event = false
      repaint := layer.continues event ∧ layer.eraseIsActive event
      reframe := False
      recolour := False
      strand := layer.Strands op
      leak := layer.continues event ∧ layer.eraseIsActive event = false ∧
        layer.drawing.Leaks (layer.eventTip event)
      blur := layer.continues event ∧ layer.eraseIsActive event = false ∧ layer.Blurs (layer.eventTip event)
      tint := layer.continues event ∧ layer.eraseIsActive event = false ∧ layer.Tints }
  | .call call =>
    { press := fun _ _ _ => False
      trace := fun _ _ => False
      ink := False
      repaint := True
      reframe := match call with
        | .setWindowEditorRegion .. | .setWindowScroll .. => True
        | _ => False
      recolour := match call with
        | .setColor _ => True
        | _ => False
      strand := layer.Strands op
      leak := False
      blur := False
      tint := False }
  | _ => ⟨fun _ _ _ => False, fun _ _ => False, False, False, False, False, False, False, False, False⟩

/-! ### Events -/

/-- The unattached canvas has a surface once the composite has one. -/
def Surfaced (layer : MetaAnnotationLayer K) : Prop :=
  layer.surface.isSome → layer.unattachedSurface.isSome

omit [Scalar K] in
theorem anchorReady (hwf : WellFormed layer.sheets) (hsurfaced : layer.Surfaced)
    (htakes : layer.takesEvents) : layer.AnchorReady := by
  have hanchored : (layer.canvasStrokes layer.strokeAnchor).isSome := isSome_ink ▸ hwf.anchored
  unfold AnchorReady
  cases hanchor : layer.strokeAnchor with
  | none =>
    simp only [takesEvents, Bool.and_eq_true] at htakes
    exact hsurfaced htakes.2
  | some win =>
    rw [hanchor, canvasStrokes, Option.isSome_map] at hanchored
    rwa [canvasSurface, Option.isSome_map]

variable {nowUs : ℤ}

theorem pressable (hbegins : layer.begins event) : Pressable (layer.permit (.handleEvent event nowUs))
    layer event.x event.y event.getPressure event.getTiltFactor (layer.eraseIsActive event) where
  press := ⟨hbegins, rfl, rfl, rfl⟩
  strand hstranded := ⟨.inl hbegins, hstranded⟩

theorem continuable (hcontinues : layer.continues event) :
    Continuable (layer.permit (.handleEvent event nowUs)) layer (layer.eventTip event)
      (layer.eraseIsActive event) where
  trace := ⟨hcontinues, rfl, rfl⟩
  ink herase := ⟨hcontinues, herase⟩
  leak herase hleak := ⟨hcontinues, herase, hleak⟩
  blur herase hblur := ⟨hcontinues, herase, hblur⟩
  tint herase htint := ⟨hcontinues, herase, htint⟩
  repaint herase := ⟨hcontinues, herase⟩
  strand herase hmiss hstranded := ⟨.inr (.inr ⟨hcontinues, herase, hmiss⟩), hstranded⟩

omit [Scalar K] in
theorem live_of_takesEvents (htakes : layer.takesEvents) : layer.sheets.live := by
  simp only [takesEvents, Bool.and_eq_true] at htakes
  simpa [sheets] using htakes.1

theorem takesEvents_of_begins (hbegins : layer.begins event) : layer.takesEvents :=
  (Bool.and_eq_true_iff.mp hbegins).1

theorem traces_beginAt (hwf : WellFormed layer.sheets) (hbegins : layer.begins event) :
    Traces (layer.permit (.handleEvent event nowUs)) layer.drawing
      (layer.beginStroke event.x event.y event.getPressure event.getTiltFactor
        (layer.eraseIsActive event)).drawing :=
  traces_beginStroke hwf (live_of_takesEvents (takesEvents_of_begins hbegins)) (pressable hbegins)

theorem traces_pressAt (hwf : WellFormed layer.sheets) (hbegins : layer.begins event) :
    Traces (layer.permit (.handleEvent event nowUs)) layer.drawing (layer.pressAt event nowUs).drawing :=
  traces_beginAt hwf hbegins

section Continuing
variable (hwf : WellFormed layer.sheets) (hs : Sound layer.drawing) (hsurfaced : layer.Surfaced)
include hwf hs hsurfaced

theorem traces_continueAt (hcontinues : layer.continues event) :
    Traces (layer.permit (.handleEvent event nowUs)) layer.drawing (layer.continueAt event).drawing ∧
      ¬ (layer.continueAt event).drawing.Stranded := by
  have hcontinues' := hcontinues
  simp only [continues, Bool.and_eq_true] at hcontinues'
  obtain ⟨⟨htakes, hdown⟩, _⟩ := hcontinues'
  exact traces_continueStroke hwf hs (anchorReady hwf hsurfaced htakes) hdown _ _ _ _ _
    (continuable hcontinues)

theorem traces_releaseAt (hcontinues : layer.strokeActive → layer.continues event) :
    Traces (layer.permit (.handleEvent event nowUs)) layer.drawing
      (layer.releaseAt event nowUs).drawing := by
  unfold releaseAt
  dsimp only
  generalize hcontinued : (if layer.strokeActive = true then layer.continueAt event else layer) = continued
  have htraces : Traces (layer.permit (.handleEvent event nowUs)) layer.drawing continued.drawing ∧
      ¬ continued.drawing.Stranded := by
    rw [← hcontinued]
    split_ifs with hdown
    · exact traces_continueAt hwf hs hsurfaced (hcontinues hdown)
    · refine ⟨.refl, not_stranded_of_current ?_⟩
      by_contra hcur
      obtain ⟨addr, haddr⟩ := Option.ne_none_iff_exists'.mp hcur
      exact hdown (hwf.inFlight addr haddr).1
  rw [drawing_endStroke]
  refine (htraces.1.trans (traces_noteTapRelease ..)).trans (Move.lift false fun h => ?_).traces
  exact absurd (stranded_noteTapRelease h) htraces.2

theorem traces_handleMotion (htakes : layer.takesEvents) (htype : event.type = .motion) :
    Traces (layer.permit (.handleEvent event nowUs)) layer.drawing (layer.handleMotion event).drawing := by
  unfold handleMotion
  cases hdown : layer.strokeActive with
  | false =>
    simp only [Bool.not_false, if_true]
    split_ifs with hpen
    · exact traces_beginAt hwf (by simp [begins, htakes, htype, hdown, hpen])
    · exact .refl
  | true =>
    simp only [Bool.not_true, Bool.false_eq_true, if_false]
    have hcontinues : layer.continues event := by simp [continues, htakes, htype, hdown]
    have htraces : Traces (layer.permit (.handleEvent event nowUs)) _ _ ∧ _ :=
      traces_continueAt hwf hs hsurfaced hcontinues
    rw [← (layer.continueAt event).drawing_cancelTapBeyondRadius event] at htraces
    split_ifs
    · exact htraces.1
    · rw [drawing_endStroke]
      exact htraces.1.trans (Move.lift false fun h => absurd h htraces.2).traces

/-- An event moves the pen. -/
theorem traces_handleEvent : Traces (layer.permit (.handleEvent event nowUs)) layer.drawing
    (layer.handleEvent event nowUs).1.drawing := by
  unfold handleEvent
  split_ifs with htakes
  · exact .refl
  rw [Bool.not_eq_true, Bool.not_eq_false'] at htakes
  split
  next htype =>
    unfold handleButtonPress
    split_ifs with hbutton
    · exact .refl
    split
    next layer' hmodifier =>
      rw [drawing_handleToolModifierPress hmodifier]
      exact .refl
    next hmodifier =>
      have hallowed : (event.getButton ≠ clutterButtonPrimary && event.getDeviceTool.isNone) = false := by
        rw [Bool.eq_false_iff, ne_eq, Bool.and_eq_true, decide_eq_true_eq]
        exact hbutton
      have hbegins : layer.begins event := by
        simp only [begins, htakes, htype, hallowed, hmodifier]
        rfl
      exact traces_pressAt hwf hbegins
  next htype => exact traces_handleMotion hwf hs hsurfaced htakes htype
  next htype =>
    unfold handleButtonRelease
    split
    next layer' hmodifier =>
      rw [drawing_handleToolModifierPress hmodifier]
      exact .refl
    next hmodifier =>
      exact traces_releaseAt hwf hs hsurfaced fun hdown => by
        simp [continues, htakes, htype, hdown, hmodifier]
  next htype => exact traces_pressAt hwf (by simp [begins, htakes, htype])
  next htype =>
    unfold handleTouchUpdate
    split_ifs with hdown
    · rw [drawing_cancelTapBeyondRadius]
      exact (traces_continueAt hwf hs hsurfaced (by simp [continues, htakes, htype, hdown])).1
    · exact .refl
  next htype =>
    exact traces_releaseAt hwf hs hsurfaced fun hdown => by simp [continues, htakes, htype, hdown]
  next htype =>
    rw [handleTouchCancel, drawing_endStroke]
    have hstrand : layer.drawing.Stranded → (layer.permit (.handleEvent event nowUs)).strand := fun h =>
      ⟨.inr (.inl ⟨htakes, htype⟩), h⟩
    exact (Move.lift false hstrand).traces
  · exact .refl

end Continuing

/-! ### Operations -/

theorem traces_execCall (hwf : WellFormed layer.sheets) (call : Call K) :
    Traces (layer.permit (.call call)) layer.drawing (layer.execCall call).drawing := by
  have of_eq : ∀ {layer' : MetaAnnotationLayer K}, layer'.drawing = layer.drawing →
      Traces (layer.permit (.call call)) layer.drawing layer'.drawing := fun h => h ▸ .refl
  cases call with
  | setActive active => exact traces_setActive active fun hactive h => ⟨hactive, h⟩
  | setPaused paused => exact traces_setPaused paused fun hpaused hnow _ h => ⟨⟨hpaused, hnow⟩, h⟩
  | setColor rgba => exact (Move.recolour rgba.rounded trivial).traces
  | clear =>
    have hclear : (layer.execCall .clear).drawing = _ := drawing_clear
    rw [hclear]
    exact (Move.wipe _).traces
  | undoLast => exact traces_undoLast trivial hwf
  | setWindowEditorRegion pid x y w h =>
    exact traces_setWindowEditorRegion trivial trivial pid x y w h
      fun win hwin hclears hstranded => ⟨⟨win, hwin, hclears⟩, hstranded⟩
  | setWindowScroll pid scrollX scrollY => exact traces_setWindowScroll trivial trivial pid scrollX scrollY
  | setChromeRegions regions => exact of_eq drawing_scheduleRecompose
  | clearChromeRegions => exact of_eq drawing_scheduleRecompose
  | stageSizeChanged width height => exact traces_onStageSizeChanged trivial width height fun hseals h => ⟨hseals, h⟩
  | windowFrameChanged win frame => exact traces_windowFrameChanged trivial frame
  | windowMinimized win minimized => exact of_eq (drawing_windowMinimized minimized)
  | windowWorkspaceChanged win workspace onAllWorkspaces =>
    exact of_eq (drawing_windowWorkspaceChanged workspace onAllWorkspaces)
  | windowHidden win hidden restacked => exact of_eq (drawing_windowHidden hidden restacked)
  | windowManaged win data => exact of_eq (drawing_windowManaged data)
  | windowUnmanaged win => exact traces_windowUnmanaged
  | windowFinalized win => exact of_eq (drawing_windowFinalized hwf)
  | restacked stacking => exact of_eq drawing_scheduleRecompose
  | activeWorkspaceChanged workspace => exact of_eq drawing_scheduleRecompose
  | recomposeIdle => exact of_eq drawing_recomposeIdleCb

/-- The layer refines the pen over canvases. -/
theorem traces_exec (hwf : WellFormed layer.sheets) (hs : Sound layer.drawing)
    (hsurfaced : layer.Surfaced) (op : LayerOp K) :
    Traces (layer.permit op) layer.drawing (layer.exec op).drawing := by
  cases op with
  | call call => exact traces_execCall hwf call
  | handleEvent event nowUs => exact traces_handleEvent hwf hs hsurfaced
  | setChromePressActive id => exact .refl
  | clearChromePress => exact .refl

/-! ### Runs -/

omit [Scalar K] in
theorem surfaced_tick (h : layer.Surfaced) : layer.tick.Surfaced := h

theorem surfaced_exec (hwf : WellFormed layer.sheets) (hs : Sound layer.drawing) (h : layer.Surfaced)
    (op : LayerOp K) : (layer.exec op).Surfaced := by
  have hdesk : layer.unattachedSurface.isSome → (layer.exec op).unattachedSurface.isSome :=
    (traces_exec hwf hs h op).desk
  have of_dock : (layer.exec op).surface.isSome = layer.surface.isSome → (layer.exec op).Surfaced :=
    fun heq hsome => hdesk (h (heq ▸ hsome))
  cases op with
  | call call =>
    have hdock : (layer.execCall call).surface.isSome = (layer.dock.call call).surfaced :=
      congrArg Dock.surfaced (dock_execCall call)
    cases call with
    | stageSizeChanged width height =>
      intro hsome
      by_cases hsize : width < 1 ∨ height < 1
      · have hsize' : (decide (1 ≤ width) && decide (1 ≤ height)) = false := by
          rw [Bool.and_eq_false_iff, decide_eq_false_iff_not, decide_eq_false_iff_not]
          omega
        have hsome' : (layer.execCall (.stageSizeChanged width height)).surface.isSome := hsome
        rw [hdock] at hsome'
        have hdocked : layer.dock.surfaced = true := by simpa [Dock.call, hsize'] using hsome'
        exact hdesk (h hdocked)
      · change (layer.onStageSizeChanged width height).unattachedSurface.isSome
        rw [onStageSizeChanged, recreateBuffers, if_neg hsize, scheduleRecompose_eq]
        rfl
    | _ => exact of_dock hdock
  | handleEvent event nowUs => exact of_dock (congrArg Dock.surfaced (dock_handleEvent event nowUs))
  | setChromePressActive id => exact h
  | clearChromePress => exact h

/-- What all operations keep. -/
structure Kept (layer : MetaAnnotationLayer K) : Prop where
  wellFormed : WellFormed layer.sheets
  sound : Sound layer.drawing
  surfaced : layer.Surfaced

theorem sound_tick (h : Sound layer.drawing) : Sound layer.tick.drawing :=
  ⟨h.nonempty, h.framed, h.followed, h.inFlight⟩

theorem clock_step (h : Kept layer) (op : LayerOp K) : (layer.step op).ledger.clock = layer.ledger.clock + 1 :=
  congrArg (· + 1) (traces_exec h.wellFormed h.sound h.surfaced op).clock_eq

theorem kept_step (h : Kept layer) (op : LayerOp K) : Kept (layer.step op) where
  wellFormed := wellFormed_step h.wellFormed op
  sound := sound_tick ((traces_exec h.wellFormed h.sound h.surfaced op).sound h.sound)
  surfaced := surfaced_tick (surfaced_exec h.wellFormed h.sound h.surfaced op)

variable {display : MetaDisplay} {input : AnnotationInput K} {width height : ℤ} {ops : List (LayerOp K)}

/-- A new layer has nothing on its desktop. -/
theorem sound_zero : Sound (metaAnnotationLayerZero display input).drawing := by
  refine ⟨fun c strokes hstrokes s hs => ?_, fun c hc => ?_, nofun, nofun⟩
  · cases c with
    | none =>
      obtain rfl : [] = strokes := Option.some.inj hstrokes
      simp at hs
    | some win => simp [drawing, canvasStrokes, metaAnnotationLayerZero] at hstrokes
  · cases c <;> simp [drawing, anchorInk, metaAnnotationLayerZero] at hc

/-- A permit to repaint canvases, as setting the layer up takes. -/
def repaintOnly : Permit K :=
  ⟨fun _ _ _ => False, fun _ _ => False, False, True, False, False, False, False, False, False⟩

theorem traces_new : Traces repaintOnly (metaAnnotationLayerZero display input).drawing
    (metaAnnotationLayerNew display input width height).drawing :=
  traces_onStageSizeChanged trivial width height fun _ h => absurd h (not_stranded_of_current rfl)

theorem clock_new : (metaAnnotationLayerNew display input width height).ledger.clock = 0 :=
  traces_new.clock_eq

/-- There is no ink yet. -/
theorem every_zero (P : Canvas → Stroke K → Prop) : (metaAnnotationLayerZero display input).drawing.Every P := by
  intro c strokes hstrokes s hs
  cases c with
  | none =>
    obtain rfl : [] = strokes := Option.some.inj hstrokes
    simp at hs
  | some win => simp [drawing, canvasStrokes, metaAnnotationLayerZero] at hstrokes

theorem every_new (P : Canvas → Stroke K → Prop) :
    (metaAnnotationLayerNew display input width height).drawing.Every P :=
  traces_new.invariant (P := Drawing.Every P)
    (fun _ _ hm h => hm.every h (fun hL => absurd hL id) (fun _ hL => absurd hL id)
      fun _ _ _ hL => absurd hL id) (every_zero P)

theorem kept_new : Kept (metaAnnotationLayerNew display input width height) where
  wellFormed := wellFormed_new ..
  sound := traces_new.sound sound_zero
  surfaced := by
    unfold metaAnnotationLayerNew onStageSizeChanged recreateBuffers
    split_ifs
    · nofun
    · dsimp only
      rw [scheduleRecompose_eq]
      exact fun _ => rfl

variable {start : MetaAnnotationLayer K} {k : ℕ}

theorem kept_stateAt (hstart : Kept start) (k : ℕ) : Kept (stateAt step start ops k) :=
  run_invariant (P := Kept) (fun _ op h => kept_step h op) hstart

/-- A property of the states of a run that every step keeps, given the number of steps
so far. -/
theorem stateAt_kept {P : ℕ → MetaAnnotationLayer K → Prop} (hstart : Kept start)
    (hclock : start.ledger.clock = 0) (hP : P 0 start)
    (hstep : ∀ k op, ops[k]? = some op → Kept (stateAt step start ops k) →
      (stateAt step start ops k).ledger.clock = k → P k (stateAt step start ops k) →
        P (k + 1) ((stateAt step start ops k).step op)) (hk : k ≤ ops.length) :
    Kept (stateAt step start ops k) ∧ (stateAt step start ops k).ledger.clock = k ∧
      P k (stateAt step start ops k) := by
  refine stateAt_invariant (P := fun k layer => Kept layer ∧ layer.ledger.clock = k ∧ P k layer)
    ⟨hstart, hclock, hP⟩ (fun k op hget hinv => ?_) hk
  obtain ⟨hkept, hclock, hP⟩ := hinv
  exact ⟨kept_step hkept op, (clock_step hkept op).trans (congrArg (· + 1) hclock),
    hstep k op hget hkept hclock hP⟩

end MetaAnnotationLayer

end Annotations
