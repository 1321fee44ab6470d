import Annotations.Overlay.InStep

/-! What the capture lets through while the pen is down. Its own tests of the dock take 4 pixels
around it, and the press handler behind it takes 28: a press between the two is handed to the
handler, which ends the stroke and lets the event go on to whatever is below. -/

namespace Annotations.Overlay

open Runs

variable {K : Type} [Scalar K]

namespace OverlaySession

variable {env : Desktop K} {event : Event K} {s : OverlaySession K} {p p1 : K × K} {t : ClutterEventType}

/-! ### The pen is down only on a shown overlay -/

/-- A pen that is down has a shown overlay. -/
def DownShown (s : OverlaySession K) : Prop := s.penDown = true → s.visible = true

theorem visible_commit : s.commitPenStrokeFromCapture.visible = s.visible := by
  unfold commitPenStrokeFromCapture
  dsimp only
  split
  · rfl
  · split <;> rfl

theorem visible_appendInk : (s.appendInk env event).visible = s.visible := by
  unfold appendInk refreshPenStrokeLastGoodStageXY
  dsimp only
  split <;> split <;> (try split) <;> rfl

theorem visible_beginInk {mode : StylusMode} : (s.beginInk env event mode).visible = s.visible := by
  unfold beginInk
  dsimp only
  split <;> rfl

theorem DownShown.commit (h : s.DownShown) : s.commitPenStrokeFromCapture.DownShown := by
  intro hdown
  rw [visible_commit]
  unfold commitPenStrokeFromCapture at hdown
  dsimp only at hdown
  split at hdown
  · exact h hdown
  · split at hdown <;> cases hdown

theorem DownShown.update {s' : OverlaySession K} (h : s.DownShown) (hupdate : Update env event s s') : s'.DownShown := by
  cases hupdate with
  | commit => exact h.commit
  | clicked button hup =>
    cases button with
    | swatch rgb => exact h
    | clear => exact h
  | beginInk hvisible hup hawait => exact fun _ => visible_beginInk.trans hvisible
  | appendInk hdown => exact fun _ => visible_appendInk.trans (h hdown)
  | _ => exact h

theorem downShown_toggle : s.toggle.DownShown := by
  unfold OverlaySession.toggle
  split
  · exact fun hdown => by cases hdown
  · exact fun _ => rfl

theorem downShown_step [FloorRing K] (h : s.DownShown) (i : Step K) : (s.step i).DownShown := by
  refine step_keeps (fun event s s' hs => hs.update) (fun _ => downShown_toggle) (fun button _ hs => ?_) (fun _ hs => hs) h
  cases button with
  | swatch rgb => exact hs
  | clear => exact hs

/-- In every run. -/
theorem run_downShown [FloorRing K] (is : List (Step K)) : (run step (new : OverlaySession K) is).DownShown :=
  run_invariant (fun _ i hs => downShown_step hs i) fun hdown => by cases hdown

/-! ### The handlers while the pen is down -/

section Handlers

variable [FloorRing K]

/-- A motion of a pen that is down is always stopped. -/
theorem onStrokeMotion_stop (hcap : s.penCapStageXY.isSome = true) : (s.onStrokeMotion env event).1 = .stop := by
  unfold onStrokeMotion
  rw [if_neg (by simp [Option.isNone_eq_false_iff.mpr hcap])]
  split <;> rfl

theorem onMotion_stop (hvisible : s.visible = true) (hdown : s.penDown = true) (hcap : s.penCapStageXY.isSome = true) :
    (s.onMotion env event).1 = .stop := by
  unfold onMotion
  rw [if_neg (by simp [hvisible]), if_pos hdown]
  exact onStrokeMotion_stop hcap

theorem onPress_stop_iff (hvisible : s.visible = true) (hdown : s.penDown = true)
    (hcap : s.penCapStageXY.isSome = true) :
    (s.onPress env event).1 = .stop ↔ s.penEventLikelyOverDockPalette env event = false := by
  unfold onPress
  rw [if_neg (by simp [hvisible]), if_neg (by simp [hdown] : ¬ (event.eventIsPenDrawDevice && !s.penDown) = true)]
  dsimp only
  cases s.penEventLikelyOverDockPalette env event with
  | true => simp
  | false => simp [hdown, onStrokeMotion_stop hcap]

omit [FloorRing K] in
theorem onRelease_stop (hvisible : s.visible = true) (hdown : s.penDown = true)
    (hrelease : event.releaseLike = true ∨ event.eventType = some .proximityOut) :
    (s.onRelease event).1 = .stop := by
  have hsame : s.releaseAnchor event = s := by
    unfold releaseAnchor
    rw [if_neg (by simp [hdown])]
  have hleaves : (event.releaseLike || decide (event.eventType = some .proximityOut)) = true := by
    simpa using hrelease
  unfold onRelease
  dsimp only
  rw [if_neg (by simp [hvisible]), if_neg (by simp [hdown]), hsame, if_neg (by simp [hdown, hleaves])]

/-- Of the types, only a press near the dock gets through. -/
theorem dispatchCanvas_stop_iff (hvisible : s.visible = true) (hdown : s.penDown = true)
    (htype : t = .motion ∨ event.eventType = some t) :
    (s.dispatchCanvas env event p1 t).1 = .stop ↔
      ¬ (isDiscretePressEventType t = true ∧ s.penEventLikelyOverDockPalette env event = true) := by
  have hbail : s.bail = .stop := if_pos hdown
  have hmotion : (s.dispatchPenCapture p1 fun s => s.onMotion env event).1 = .stop := onMotion_stop hvisible hdown rfl
  unfold dispatchCanvas
  split
  · next hpress =>
    refine (onPress_stop_iff (s := s.dispatchedAt p1) hvisible hdown rfl).trans ?_
    change s.penEventLikelyOverDockPalette env event = false ↔ _
    simp [hpress]
  next hpress =>
  refine iff_of_true ?_ fun h => hpress h.1
  split
  · exact hmotion
  next hnotMotion =>
  have hown : event.eventType = some t := by
    refine htype.resolve_left fun h => ?_
    simp [h] at hnotMotion
  split
  · next hrelease =>
    refine onRelease_stop hvisible hdown (.inl ?_)
    exact (Event.releaseLike_iff hown).mpr (by simpa [or_assoc] using hrelease)
  split
  · next hout =>
    dsimp only
    split <;> exact onRelease_stop hvisible hdown (.inr (hown.trans (congrArg some hout)))
  split
  · rfl
  split
  · split
    · rfl
    · exact hbail
  split
  · exact hmotion
  · exact hbail

end Handlers

/-! ### The capture -/

section Capture

variable [FloorRing K] (env event s)

/-- The position of an event during a stroke passes the tests of the capture: it can be brought inside
the root, the repaired position is not within 4 pixels of the dock, unless the core pointer disagrees
with the raw one there, and neither is the core pointer. -/
structure PassesCapture (p : K × K) : Prop where
  root : env.stagePointInOverlayRoot (s.rootRepaired env event p) = true ∨
    (event.eventType = some .proximityIn ∨ event.eventType = some .enter) ∧ event.eventIsPenDrawDevice = true
  dock : env.stagePointInOverlayRoot (s.repaired env event p) = true →
    env.penStagePointDockHit (s.repaired env event p) 4 = true → env.tabletDockRawDisagreesWithPointer p = true
  pointer : pointerHandsOff env event (s.repaired env event p) = false

/-- A new press-like event whose position passes the tests of the capture, while its stage position or
the core pointer is within 28 pixels of the dock. -/
def PressNearDock : Prop :=
  event.isDiscretePress = true ∧ event.id ∉ s.penCapHandled ∧
    (∃ p, s.stageCoordsFromEvent env event = some p ∧ s.PassesCapture env event p) ∧
    s.penEventLikelyOverDockPalette env event = true

variable {env event s}

/-- While the pen is down the capture hands over just what passes its tests. -/
theorem captureExit_eq_canvas_iff (hdown : s.penDown = true) :
    s.captureExit env event p = .canvas ↔ s.PassesCapture env event p := by
  unfold captureExit
  dsimp only
  rw [hdown]
  constructor
  · intro hexit
    split at hexit
    · cases hexit
    next hroot =>
    split at hexit
    · cases hexit
    split at hexit
    · cases hexit
    next hdock =>
    split at hexit
    · cases hexit
    next hpointer =>
    refine ⟨?_, fun hin hhit => ?_, by simpa using hpointer⟩
    · by_contra hnot
      refine hroot ?_
      simp only [not_or, not_and, Bool.not_eq_true] at hnot
      cases hpen : event.eventIsPenDrawDevice with
      | false => simp [hnot.1]
      | true =>
        have hin : event.eventType ≠ some .proximityIn := fun h => by simp [hnot.2 (.inl h)] at hpen
        have henter : event.eventType ≠ some .enter := fun h => by simp [hnot.2 (.inr h)] at hpen
        simp [hnot.1, hin, henter]
    · simp_all
  · rintro ⟨hroot, hdock, hpointer⟩
    have houtside : ¬ (!env.stagePointInOverlayRoot (s.rootRepaired env event p) &&
        !(decide (event.eventType = some .proximityIn) && event.eventIsPenDrawDevice) &&
        !(decide (event.eventType = some .enter) && event.eventIsPenDrawDevice)) = true := by
      rcases hroot with h | ⟨h | h, hpen⟩
      · simp [h]
      · simp [h, hpen]
      · simp [h, hpen]
    rw [if_neg houtside, if_neg (by simp), if_neg (by simp_all), if_neg (by simp [hpointer])]

omit [FloorRing K] in
theorem coercedType_eq_or : s.coercedType event p t = .motion ∨ s.coercedType event p t = t := by
  unfold coercedType
  split
  · exact .inl rfl
  · exact .inr rfl

omit [FloorRing K] in
/-- A coerced event was no press before. -/
theorem isDiscretePress_coercedType :
    isDiscretePressEventType (s.coercedType event p t) = isDiscretePressEventType t := by
  unfold coercedType
  split
  · next h =>
    simp only [Bool.and_eq_true, Bool.not_eq_true'] at h
    rw [h.1.1.1.1.1.2]
    rfl
  · rfl

theorem captureAt_stop_iff (hvisible : s.visible = true) (hdown : s.penDown = true) (htype : event.eventType = some t) :
    (s.captureAt env event p).1 = .stop ↔
      ¬ (isDiscretePressEventType t = true ∧ s.captureExit env event p = .canvas ∧
        s.penEventLikelyOverDockPalette env event = true) := by
  unfold captureAt
  cases hexit : s.captureExit env event p with
  | outside => simp [bail, hdown]
  | mismatch => simp
  | dock => simp
  | pointer => simp
  | canvas =>
    dsimp only
    rw [htype]
    dsimp only
    have htypes : s.coercedType event p t = .motion ∨ event.eventType = some (s.coercedType event p t) :=
      coercedType_eq_or.imp_right fun h => htype.trans (congrArg some h.symm)
    rw [dispatchCanvas_stop_iff hvisible hdown htypes, isDiscretePress_coercedType]
    simp

theorem penCaptureAcceptsEvent_of_penDown (hdown : s.penDown = true) (htype : event.eventType = some t)
    (hpress : t ≠ .keyPress) (hrelease : t ≠ .keyRelease) : s.penCaptureAcceptsEvent env event = true := by
  unfold penCaptureAcceptsEvent
  dsimp only
  rw [hdown, htype]
  simp only [Bool.not_true, Bool.false_and, Bool.not_false]
  rw [if_neg (by simp)]
  split
  · rfl
  split
  · rfl
  exact if_neg (by simp)

omit [FloorRing K] in
theorem exists_stageCoordsFromEvent (env : Desktop K) (s : OverlaySession K) (hcoords : event.coords ≠ none) :
    ∃ p, s.stageCoordsFromEvent env event = some p := by
  obtain ⟨xy, hxy⟩ := Option.ne_none_iff_exists'.mp hcoords
  unfold stageCoordsFromEvent
  simp only [hxy]
  split
  · next h =>
    simp only [Bool.and_eq_true] at h
    exact Option.isSome_iff_exists.mp h.2
  · split
    · split
      · exact ⟨_, rfl⟩
      · split <;> exact ⟨_, rfl⟩
    · exact ⟨_, rfl⟩

/-- While the pen is down the capture of a shown overlay stops every event of a known type that is no
key, but for a press near the dock. -/
theorem onPenStageCaptured_stop_iff (env : Desktop K) (s : OverlaySession K) (event : Event K) (t : ClutterEventType)
    (hdown : s.penDown = true) (htype : event.eventType = some t) (hpress : t ≠ .keyPress) (hrelease : t ≠ .keyRelease)
    (hcoords : event.coords ≠ none) :
    (s.onPenStageCaptured env event).1 = .stop ↔ s.visible = true ∧ ¬ s.PressNearDock env event := by
  unfold onPenStageCaptured PressNearDock
  cases hvisible : s.visible with
  | false => simp
  | true =>
    rw [if_neg (by simp), if_neg (by simp [penCaptureAcceptsEvent_of_penDown hdown htype hpress hrelease])]
    by_cases hhandled : event.id ∈ s.penCapHandled
    · simp [hhandled]
    obtain ⟨p, hp⟩ := exists_stageCoordsFromEvent env s hcoords
    have hdiscrete : event.isDiscretePress = isDiscretePressEventType t := by
      unfold Event.isDiscretePress
      rw [htype]
      rfl
    have hat : ((s.remember event).captureAt env event p).1 = .stop ↔ _ := captureAt_stop_iff hvisible hdown htype
    have hexit : s.captureExit env event p = .canvas ↔ s.PassesCapture env event p := captureExit_eq_canvas_iff hdown
    rw [if_neg hhandled]
    dsimp only
    rw [show (s.remember event).stageCoordsFromEvent env event = some p from hp]
    refine hat.trans ?_
    change ¬ (_ ∧ s.captureExit env event p = .canvas ∧ s.penEventLikelyOverDockPalette env event = true) ↔ _
    simp [hdiscrete, hhandled, hp, hexit]

end Capture

/-! ### A press between the two margins -/

theorem onPenStageCaptured_stop_iff_motion :
    ((run step new sampleStroke).onPenStageCaptured sampleDesktop (samplePen 2 .motion 190 100)).1 = .stop := by
  refine (onPenStageCaptured_stop_iff sampleDesktop (run step new sampleStroke) (samplePen 2 .motion 190 100) .motion
    (by decide +kernel) rfl (by decide) (by decide) (by decide)).mpr ⟨by decide +kernel, fun h => ?_⟩
  exact absurd h.1 (by decide)

/-- During the stroke, 16 pixels from the dock, a press of the pen goes on to the client below. -/
theorem not_onPenStageCaptured_stop_nearDock :
    ¬ ∀ (env : Desktop ℚ) (s : OverlaySession ℚ) (event : Event ℚ) (t : ClutterEventType), s.penDown = true →
      event.eventType = some t → t ≠ .keyPress → t ≠ .keyRelease → event.coords ≠ none →
      (s.onPenStageCaptured env event).1 = .stop := by
  intro h
  have hstop := h sampleDesktop (run step new sampleStroke) (samplePen 2 .buttonPress 190 100) .buttonPress
    (by decide +kernel) rfl (by decide) (by decide) (by decide)
  exact absurd hstop (by decide +kernel)

end OverlaySession

end Annotations.Overlay
