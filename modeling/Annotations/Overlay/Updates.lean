import Annotations.Overlay.Capture
import Mathlib.Logic.Relation

/-! What a handler of the overlay session can do. Each handler is a sequence of updates, and
an update comes with the tests that the code has made before it. -/

namespace Annotations.Overlay.OverlaySession

open Relation

variable {K : Type} [Scalar K]

/-- One update of the session in a handler of `event`. -/
inductive Update (env : Desktop K) (event : Event K) : OverlaySession K → OverlaySession K → Prop where
  | remember (s) : Update env event s (s.remember event)
  | dispatchedAt (s) (p : K × K) : Update env event s (s.dispatchedAt p)
  | dispatchDone (s) : Update env event s s.dispatchDone
  | commit (s) : Update env event s s.commitPenStrokeFromCapture
  | clicked (s) (button : DockAction K) (hup : s.penDown = false) : Update env event s (s.clicked button)
  | deferPress (s) (hup : s.penDown = false) (hawait : s.penAwaitInkAfterRange = true)
      (hpress : event.isDiscretePress = true) (hpen : event.eventIsPenDrawDevice = true) :
      Update env event s (s.deferPress env event)
  | beginInk (s) (hvisible : s.visible = true) (hup : s.penDown = false)
      (hawait : s.penAwaitInkAfterRange = true → event.isDiscretePress = false) :
      Update env event s (s.beginInk env event event.stylusModeOnPress)
  | appendInk (s) (hdown : s.penDown = true) : Update env event s (s.appendInk env event)
  | unlock (s) (anchor m : K × K) (hup : s.penDown = false) (hpen : event.eventIsPenDrawDevice = true)
      (hmotion : event.motionish = true) (hanchor : s.penDeferredAnchorStageXY = some anchor)
      (hm : (s.penCapStageXY <|> s.stageCoordsFromEvent env event) = some m)
      (hfar : penInkDragUnlock2 ≤ distSqFrom m anchor) :
      Update env event s { s with penAwaitInkAfterRange := false, penDeferredAnchorStageXY := none }
  | forget (s) : Update env event s { s with penDeferredAnchorStageXY := none }
  | range (s) : Update env event s { s with penAwaitInkAfterRange := true, penDeferredAnchorStageXY := none }
  | arm (s) : Update env event s { s with penProximityArmed := true, penProximityArmedAt := env.dateNow }

/-- A sequence of updates. -/
abbrev Makes (env : Desktop K) (event : Event K) : OverlaySession K → OverlaySession K → Prop :=
  ReflTransGen (Update env event)

variable {env : Desktop K} {event : Event K} {s : OverlaySession K}

theorem forwarded_eq_clicked [FloorRing K] {s' : OverlaySession K} (h : s.forwardPenDockIfSwatchHit env event = some s') :
    s.penDown = false ∧ ∃ button, s' = s.clicked button := by
  unfold forwardPenDockIfSwatchHit at h
  split at h
  · cases h
  · next hdown =>
    split at h
    · cases h
    · obtain ⟨button, -, rfl⟩ := Option.map_eq_some_iff.mp h
      exact ⟨by simp_all, button, rfl⟩

section Handlers

variable [FloorRing K]

theorem onStrokeMotion_makes (hdown : s.penDown = true) : Makes env event s (s.onStrokeMotion env event).2 := by
  unfold onStrokeMotion
  split
  · exact .refl
  · split
    · exact .single (.commit s)
    · exact .single (.appendInk s hdown)

theorem onPress_makes : Makes env event s (s.onPress env event).2 := by
  unfold onPress
  split
  · exact .refl
  next hvisible =>
  have hvis : s.visible = true := by simpa using hvisible
  split
  · next s' hforward =>
    split at hforward
    · obtain ⟨hup, button, rfl⟩ := forwarded_eq_clicked hforward
      exact .single (.clicked s button hup)
    · cases hforward
  split
  · exact .single (.commit s)
  split
  · next hdown => exact onStrokeMotion_makes hdown
  next hdown =>
  have hup : s.penDown = false := by simpa using hdown
  split
  · exact .refl
  next hmode =>
  have hpen : event.eventIsPenDrawDevice = true := by
    rw [Event.stylusModeOnPress_eq_none] at hmode
    simpa using hmode
  split
  · next h =>
    rw [Bool.and_eq_true] at h
    exact .single (.deferPress s hup h.1 h.2 hpen)
  · next h =>
    refine .single (.beginInk s hvis hup fun hawait => ?_)
    simpa [hawait] using h

theorem onMotion_makes : Makes env event s (s.onMotion env event).2 := by
  unfold onMotion
  split
  · exact .refl
  split
  · next hdown => exact onStrokeMotion_makes hdown
  next hdown =>
  have hup : s.penDown = false := by simpa using hdown
  split
  · exact .refl
  split
  · exact .refl
  split
  · next anchor hgate =>
    split
    · exact .refl
    · next m hm =>
      split
      · next hfar =>
        split at hgate
        · next htests =>
          simp only [Bool.and_eq_true] at htests
          exact .head (.unlock s anchor m hup htests.1.2 htests.2 hgate hm hfar) onPress_makes
        · cases hgate
      · exact .refl
  · split
    · split
      · exact .refl
      · exact onPress_makes
    · exact .refl

omit [FloorRing K] in
theorem onRelease_makes (env : Desktop K) : Makes env event s (s.onRelease event).2 := by
  unfold onRelease
  dsimp only
  split
  · exact .refl
  split
  · exact .refl
  have hforget : Makes env event s (s.releaseAnchor event) := by
    unfold releaseAnchor
    split
    · exact .single (.forget s)
    · exact .refl
  split
  · exact hforget
  · exact hforget.tail (.commit _)

omit [FloorRing K] in
theorem dispatchPenCapture_makes {p : K × K} {fn : OverlaySession K → EventReturn × OverlaySession K}
    (hfn : ∀ s, Makes env event s (fn s).2) : Makes env event s (s.dispatchPenCapture p fn).2 :=
  .head (.dispatchedAt s p) ((hfn _).tail (.dispatchDone _))

theorem dispatchForward_makes {p : K × K} : Makes env event s (s.dispatchForward env event p) := by
  unfold dispatchForward
  refine .head (.dispatchedAt s p) (.tail ?_ (.dispatchDone _))
  cases hforward : (s.dispatchedAt p).forwardPenDockIfSwatchHit env event with
  | none => exact .refl
  | some s' =>
    obtain ⟨hup, button, rfl⟩ := forwarded_eq_clicked hforward
    exact .single (.clicked _ button hup)

theorem dispatchCanvas_makes {p1 : K × K} {t : ClutterEventType} :
    Makes env event s (s.dispatchCanvas env event p1 t).2 := by
  have hmotion : ∀ s : OverlaySession K, Makes env event s (s.onMotion env event).2 := fun s => onMotion_makes
  have hrelease : ∀ s : OverlaySession K, Makes env event s (s.onRelease event).2 := fun s => onRelease_makes env
  unfold dispatchCanvas
  split
  · exact dispatchPenCapture_makes fun s => onPress_makes
  split
  · exact dispatchPenCapture_makes hmotion
  split
  · exact dispatchPenCapture_makes hrelease
  split
  · dsimp only
    split
    · exact .head (.range s) (dispatchPenCapture_makes hrelease)
    · exact dispatchPenCapture_makes hrelease
  split
  · refine .head (.arm s) ?_
    dsimp only
    split
    · exact dispatchPenCapture_makes hmotion
    · exact .refl
  split
  · split
    · exact .single (.arm s)
    · exact .refl
  split
  · exact dispatchPenCapture_makes hmotion
  · exact .refl

theorem captureAt_makes {p : K × K} : Makes env event s (s.captureAt env event p).2 := by
  unfold captureAt
  dsimp only
  split
  · exact .refl
  · split
    · split
      · exact .refl
      · exact dispatchForward_makes
    · exact .refl
  · dsimp only
    split
    · exact .single (.commit s)
    · exact dispatchForward_makes
  · exact .single (.commit s)
  · split
    · exact dispatchCanvas_makes
    · split
      · exact dispatchCanvas_makes
      · exact .refl

theorem onPenStageCaptured_makes : Makes env event s (s.onPenStageCaptured env event).2 := by
  unfold onPenStageCaptured
  split
  · exact .refl
  split
  · exact .refl
  split
  · exact .refl
  dsimp only
  split
  · exact .single (.remember s)
  · exact .head (.remember s) captureAt_makes

end Handlers

/-- What every update keeps, every sequence of updates keeps. -/
theorem Makes.keeps {P : OverlaySession K → Prop} (hkeep : ∀ s s', P s → Update env event s s' → P s')
    {s s' : OverlaySession K} (h : Makes env event s s') (hs : P s) : P s' := by
  induction h with
  | refl => exact hs
  | tail _ hupdate ih => exact hkeep _ _ ih hupdate

/-- The rule for an invariant of the session: every update keeps it, and so do the toggle and the
clicks that meet the condition. -/
theorem step_keeps [FloorRing K] {P : OverlaySession K → Prop} {i : Step K}
    (hkeep : ∀ event s s', P s → Update i.env event s s' → P s') (htoggle : P s → P s.toggle)
    (hclicked : ∀ button, i.action = .clicked button → P s → P (s.clicked button))
    (hundo : i.action = .undoClicked → P s → P s.undoClicked) (hs : P s) : P (s.step i) := by
  obtain ⟨env, action⟩ := i
  cases action with
  | captured event => exact onPenStageCaptured_makes.keeps (hkeep event) hs
  | press event => exact onPress_makes.keeps (hkeep event) hs
  | motion event => exact onMotion_makes.keeps (hkeep event) hs
  | release event => exact (onRelease_makes env).keeps (hkeep event) hs
  | toggle => exact htoggle hs
  | clicked button => exact hclicked button rfl hs
  | undoClicked => exact hundo rfl hs

end Annotations.Overlay.OverlaySession
