import Annotations.Overlay.Updates

/-! The pen's flag and the gesture of the stroke model: the pen is down exactly while a stroke or
an eraser path is in progress. Undo and Clear all drop the gesture and leave the flag as it is. -/

namespace Annotations.Overlay

open History Runs

variable {K : Type}

/-! ### The gesture in progress -/

section Gesture

variable (m : StrokeModel K)

/-- Exactly one of `current` and `eraserPath` is there. -/
def OneInProgress : Prop := m.current.isSome ≠ m.eraserPath.isSome

/-- The points of the gesture in progress. -/
def gesture : Option (List (Pt K)) := m.eraserPath <|> m.current.map Stroke.pts

variable {m}

theorem OneInProgress.cases (h : OneInProgress m) :
    (∃ stroke, m.current = some stroke) ∧ m.eraserPath = none ∨ m.current = none ∧ ∃ path, m.eraserPath = some path := by
  unfold OneInProgress at h
  cases hcurrent : m.current with
  | none =>
    refine .inr ⟨rfl, Option.ne_none_iff_exists'.mp ?_⟩
    simpa [hcurrent] using h
  | some stroke =>
    refine .inl ⟨⟨stroke, rfl⟩, ?_⟩
    simpa [hcurrent] using h

theorem not_oneInProgress_of_idle (h : m.Idle) : ¬ OneInProgress m := by
  unfold OneInProgress
  rw [h.current, h.eraserPath]
  simp

theorem current_pushUndoState : m.pushUndoState.current = m.current := by
  unfold StrokeModel.pushUndoState
  rfl

theorem eraserPath_pushUndoState : m.pushUndoState.eraserPath = m.eraserPath := by
  unfold StrokeModel.pushUndoState
  rfl

theorem current_commitCurrent : m.commitCurrent.current = none := by
  unfold StrokeModel.commitCurrent
  split <;> rfl

theorem eraserPath_commitCurrent : m.commitCurrent.eraserPath = m.eraserPath := by
  unfold StrokeModel.commitCurrent
  split
  · rfl
  · dsimp only
    split
    · rfl
    · exact eraserPath_pushUndoState

/-- Undo leaves no gesture, unless there is nothing to undo. -/
theorem undoOne_cases : m.undoStack = [] ∧ m.undoOne = m ∨ m.undoStack ≠ [] ∧ m.undoOne.Idle := by
  unfold StrokeModel.undoOne
  cases h : m.undoStack.getLast? with
  | none => exact .inl ⟨List.getLast?_eq_none_iff.mp h, rfl⟩
  | some strokes =>
    refine .inr ⟨fun hnil => ?_, rfl, rfl⟩
    rw [hnil] at h
    cases h

theorem clearAll_idle : m.clearAll.Idle := ⟨rfl, rfl⟩

variable [Scalar K]

theorem current_applyEraser : m.applyEraser.current = m.current := by
  unfold StrokeModel.applyEraser
  split <;> rfl

theorem eraserPath_applyEraser : m.applyEraser.eraserPath = m.eraserPath := by
  unfold StrokeModel.applyEraser
  split <;> simp_all

theorem current_finishErase : m.finishErase.current = m.current := by
  unfold StrokeModel.finishErase
  dsimp only
  split
  · rfl
  · rfl
  · exact current_applyEraser.trans current_pushUndoState

theorem eraserPath_finishErase : m.finishErase.eraserPath = none := rfl

theorem current_appendErase {x y : K} : (m.appendErase x y).current = m.current := by
  unfold StrokeModel.appendErase
  rw [current_applyEraser]

theorem eraserPath_appendErase {x y : K} :
    (m.appendErase x y).eraserPath = some (m.eraserPath.getD [] ++ [⟨x, y, 0⟩]) := by
  unfold StrokeModel.appendErase
  rw [eraserPath_applyEraser]

end Gesture

namespace OverlaySession

variable [Scalar K] {env : Desktop K} {event : Event K} {s s' : OverlaySession K}

/-- The flag and the gesture agree. -/
structure InStep (s : OverlaySession K) : Prop where
  down : s.penDown = true → OneInProgress s.model
  up : s.penDown = false → s.model.Idle

omit [Scalar K] in
theorem InStep.iff (h : s.InStep) : s.penDown = true ↔ OneInProgress s.model := by
  refine ⟨h.down, fun hone => ?_⟩
  by_contra hup
  exact not_oneInProgress_of_idle (h.up (by simpa using hup)) hone

omit [Scalar K] in
theorem InStep.of_eq (h : s.InStep) (hdown : s'.penDown = s.penDown) (hmodel : s'.model = s.model) : s'.InStep :=
  ⟨fun hd => hmodel ▸ h.down (hdown ▸ hd), fun hu => hmodel ▸ h.up (hdown ▸ hu)⟩

/-! ### What each update does to the gesture -/

theorem InStep.commit (h : s.InStep) : s.commitPenStrokeFromCapture.InStep := by
  unfold commitPenStrokeFromCapture
  split
  · exact h
  next hdown =>
  dsimp only
  rcases (h.down (by simpa using hdown)).cases with ⟨-, herase⟩ | ⟨hcurrent, path, herase⟩
  · rw [if_neg (by simp [herase])]
    exact ⟨fun hd => (nomatch hd), fun _ => ⟨current_commitCurrent, eraserPath_commitCurrent.trans herase⟩⟩
  · rw [if_pos (by simp [herase])]
    exact ⟨fun hd => (nomatch hd), fun _ => ⟨current_finishErase.trans hcurrent, eraserPath_finishErase⟩⟩

theorem inStep_beginInk (mode : StylusMode) : (s.beginInk env event mode).InStep := by
  refine ⟨fun _ => ?_, fun hup => by cases hup⟩
  unfold beginInk OneInProgress
  dsimp only
  split <;> simp [call, StrokeModel.call, StrokeModel.beginErase, StrokeModel.beginStroke]

theorem penDown_refresh : (s.refreshPenStrokeLastGoodStageXY env).penDown = s.penDown := by
  unfold refreshPenStrokeLastGoodStageXY
  split
  · rfl
  · split <;> rfl

theorem model_refresh : (s.refreshPenStrokeLastGoodStageXY env).model = s.model := by
  unfold refreshPenStrokeLastGoodStageXY
  split
  · rfl
  · split <;> rfl

theorem penDown_appendInk : (s.appendInk env event).penDown = s.penDown := by
  unfold appendInk
  rw [penDown_refresh]
  split <;> rfl

theorem model_appendInk :
    (s.appendInk env event).model =
      let xy := s.localFromEvent env event
      if s.model.eraserPath.isSome then s.model.appendErase xy.1 xy.2
      else s.model.appendPoint xy.1 xy.2 event.getPressure01 := by
  unfold appendInk
  rw [model_refresh]
  split <;> rfl

/-- The point goes to the end of the gesture. -/
theorem gesture_appendInk (h : OneInProgress s.model) :
    ∃ pts q, gesture s.model = some pts ∧ gesture (s.appendInk env event).model = some (pts ++ [q]) ∧
      (q.x, q.y) = s.localFromEvent env event := by
  rw [model_appendInk]
  rcases h.cases with ⟨⟨stroke, hstroke⟩, herase⟩ | ⟨hcurrent, path, herase⟩
  · refine ⟨stroke.pts, ⟨(s.localFromEvent env event).1, (s.localFromEvent env event).2, event.getPressure01⟩, ?_, ?_, rfl⟩
    · simp [gesture, herase, hstroke]
    · simp [gesture, StrokeModel.appendPoint, herase, hstroke]
  · refine ⟨path, ⟨(s.localFromEvent env event).1, (s.localFromEvent env event).2, 0⟩, ?_, ?_, rfl⟩
    · simp [gesture, herase]
    · simp [gesture, eraserPath_appendErase, herase]

theorem oneInProgress_appendInk (h : OneInProgress s.model) : OneInProgress (s.appendInk env event).model := by
  rw [model_appendInk]
  unfold OneInProgress
  rcases h.cases with ⟨⟨stroke, hstroke⟩, herase⟩ | ⟨hcurrent, path, herase⟩
  · simp [StrokeModel.appendPoint, herase, hstroke]
  · simp [current_appendErase, eraserPath_appendErase, herase, hcurrent]

omit [Scalar K] in
theorem InStep.swatch (h : s.InStep) (rgb : List K) : InStep { s with model := { s.model with penRGBA := rgb } } :=
  ⟨h.down, fun hup => ⟨(h.up hup).current, (h.up hup).eraserPath⟩⟩

/-- The step lemma for the handlers. -/
theorem InStep.update (h : s.InStep) (hupdate : Update env event s s') : s'.InStep := by
  cases hupdate with
  | commit => exact h.commit
  | clicked button hup =>
    cases button with
    | swatch rgb => exact h.swatch _
    | clear => exact ⟨fun hd => absurd (hd.symm.trans hup) (by simp), fun _ => clearAll_idle⟩
  | beginInk => exact inStep_beginInk _
  | appendInk hdown =>
    refine ⟨fun _ => oneInProgress_appendInk (h.down hdown), fun hup => ?_⟩
    rw [penDown_appendInk, hdown] at hup
    cases hup
  | _ => exact h.of_eq rfl rfl

theorem InStep.toggle (h : s.InStep) : s.toggle.InStep := by
  unfold OverlaySession.toggle
  split
  · exact ⟨fun hd => (nomatch hd), fun _ => ⟨current_finishErase.trans current_commitCurrent, eraserPath_finishErase⟩⟩
  · exact h.of_eq rfl rfl

/-! ### Runs -/

/-- A click of Clear all, or of Undo with something to undo, while the pen is down. -/
def DropsGesture (s : OverlaySession K) (i : Step K) : Prop :=
  s.penDown = true ∧
    match i.action with
    | .clicked .clear => True
    | .undoClicked => s.model.undoStack ≠ []
    | _ => False

theorem InStep.clicked_iff (h : s.InStep) (env : Desktop K) (button : DockAction K) :
    (s.clicked button).InStep ↔ ¬ s.DropsGesture ⟨env, .clicked button⟩ := by
  unfold DropsGesture
  cases button with
  | swatch rgb => exact ⟨fun _ hdrop => hdrop.2, fun _ => h.swatch _⟩
  | clear =>
    constructor
    · intro hstep hdrop
      exact not_oneInProgress_of_idle clearAll_idle (hstep.down hdrop.1)
    · intro hdrop
      exact ⟨fun hd => absurd ⟨hd, trivial⟩ hdrop, fun _ => clearAll_idle⟩

theorem InStep.undoClicked_iff (h : s.InStep) (env : Desktop K) :
    s.undoClicked.InStep ↔ ¬ s.DropsGesture ⟨env, .undoClicked⟩ := by
  unfold DropsGesture
  rcases undoOne_cases (m := s.model) with ⟨hstack, hsame⟩ | ⟨hstack, hidle⟩
  · exact ⟨fun _ hdrop => hdrop.2 hstack, fun _ => h.of_eq rfl hsame⟩
  · constructor
    · intro hstep hdrop
      exact not_oneInProgress_of_idle hidle (hstep.down hdrop.1)
    · intro hdrop
      exact ⟨fun hd => absurd ⟨hd, hstack⟩ hdrop, fun _ => hidle⟩

variable [FloorRing K]

/-- A step keeps the agreement unless it drops the gesture, and then it does not. -/
theorem InStep.step_iff (h : s.InStep) (i : Step K) : (s.step i).InStep ↔ ¬ s.DropsGesture i := by
  obtain ⟨env, action⟩ := i
  cases action with
  | clicked button => exact h.clicked_iff env button
  | undoClicked => exact h.undoClicked_iff env
  | _ =>
    refine ⟨fun _ hdrop => hdrop.2, fun _ => ?_⟩
    refine step_keeps (fun event s s' hs => hs.update) InStep.toggle (fun button hb => ?_) (fun hu => ?_) h
    · cases hb
    · cases hu

omit [FloorRing K] in
theorem inStep_new : (new : OverlaySession K).InStep := ⟨fun hd => (nomatch hd), fun _ => ⟨rfl, rfl⟩⟩

theorem inStep_run {is : List (Step K)} (hclicks : Along step (fun s i => ¬ DropsGesture s i) (new : OverlaySession K) is) :
    (run step (new : OverlaySession K) is).InStep :=
  hclicks.invariant (fun _ i hs hi => (hs.step_iff i).mpr hi) inStep_new

/-- The pen's flag and the stroke model agree at every moment of a run whose clicks drop no gesture:
the pen is down exactly while one gesture is in progress, nothing is left in progress once it is
up, and ink that is appended while it is down goes to the end of the gesture. -/
theorem penDown_iff_inProgress {is : List (Step K)}
    (hclicks : Along step (fun s i => ¬ DropsGesture s i) (new : OverlaySession K) is) (k : ℕ) :
    let s := stateAt step (new : OverlaySession K) is k
    (s.penDown = true ↔ OneInProgress s.model) ∧ (s.penDown = false → s.model.Idle) ∧
      (s.penDown = true → ∀ env event, ∃ pts q, gesture s.model = some pts ∧
        gesture (s.appendInk env event).model = some (pts ++ [q]) ∧ (q.x, q.y) = s.localFromEvent env event) := by
  have h := inStep_run (hclicks.take k)
  exact ⟨h.iff, h.up, fun hd env event => gesture_appendInk (h.down hd)⟩

end OverlaySession

/-! ### Clear all during a stroke -/

/-- A screen of 1000 by 1000 pixels with the dock in its corner. -/
def sampleDesktop : Desktop ℚ where
  root := ⟨true, 0, 0, 1000, 1000⟩
  drawArea := (0, 0)
  dock := ⟨true, 14, 14, 160, 120⟩
  dockAllocation := ⟨14, 14, 174, 134⟩
  dockPreferred := none
  swatchButtons := []
  clearBtn := ⟨true, 20, 110, 60, 20⟩
  windows := []
  pointer := none
  dateNow := 1000

/-- An event of a pen, without a pressure axis. -/
def samplePen (id : ℕ) (t : ClutterEventType) (x y : ℚ) : Event ℚ where
  id := id
  eventType := some t
  coords := some (x, y)
  deviceType := some .pen
  sourceDevice := some .pen
  deviceTool := some .pen
  pressure := none
  button := 0

namespace OverlaySession

/-- The overlay is shown, the pen touches and is dragged. -/
def sampleStroke : List (Step ℚ) :=
  [⟨sampleDesktop, .toggle⟩, ⟨sampleDesktop, .captured (samplePen 0 .buttonPress 500 500)⟩,
    ⟨sampleDesktop, .captured (samplePen 1 .motion 520 500)⟩]

example : (run step new sampleStroke).model.current = some ⟨[0.1, 0.1, 0.1, 1], [⟨520, 500, 1⟩], -1⟩ := by
  decide +kernel

theorem penDown_iff_inProgress_stroke :
    Along step (fun s i => ¬ DropsGesture s i) new sampleStroke ∧
      (run step new sampleStroke).penDown = true ∧ OneInProgress (run step new sampleStroke).model := by
  have hclicks : Along step (fun s i => ¬ DropsGesture s i) new sampleStroke :=
    ⟨fun h => h.2, fun h => h.2, fun h => h.2, trivial⟩
  have hdown : (run step new sampleStroke).penDown = true := by decide +kernel
  exact ⟨hclicks, hdown, (penDown_iff_inProgress hclicks 3).1.mp hdown⟩

/-- Clear all, clicked during the stroke: the pen stays down with nothing in progress. -/
theorem not_penDown_iff_inProgress_clear :
    ¬ ∀ is : List (Step ℚ), (run step new is).penDown = true ↔ OneInProgress (run step new is).model := by
  intro h
  have hdown : (run step new (sampleStroke ++ [⟨sampleDesktop, .clicked .clear⟩])).penDown = true := by decide +kernel
  exact not_oneInProgress_of_idle clearAll_idle ((h _).mp hdown)

end OverlaySession

end Annotations.Overlay
