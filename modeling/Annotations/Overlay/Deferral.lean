import Annotations.Overlay.Leaks

/-! The deferred first ink. After the overlay is shown, and after a pen has left the range of the
tablet, ink is to wait for a press that the session swallows and for a drag before its release.
This module says what each handler does to the gate: which keep it, which shut it, and what may
start ink. -/

namespace Annotations.Overlay

open History Runs

variable {K : Type} [Scalar K]

/-- A call that starts a stroke or an eraser path. -/
def beginsInk : StrokeModel.Call K → Bool
  | .beginStroke .. | .beginErase .. => true
  | _ => false

namespace OverlaySession

variable {env : Desktop K} {event : Event K} {s s' s'' : OverlaySession K} {p p1 : K × K} {t : ClutterEventType}

/-- How often ink has been started. -/
def inkBegun (s : OverlaySession K) : ℕ := s.calls.countP beginsInk

/-- The step leaves the gate and its anchor alone, starts no ink and does not put the pen down. -/
structure Quiet (s s' : OverlaySession K) : Prop where
  await : s'.penAwaitInkAfterRange = s.penAwaitInkAfterRange
  anchor : s'.penDeferredAnchorStageXY = s.penDeferredAnchorStageXY
  begun : s'.inkBegun = s.inkBegun
  down : s'.penDown = true → s.penDown = true

omit [Scalar K] in
theorem Quiet.refl (s : OverlaySession K) : s.Quiet s := ⟨rfl, rfl, rfl, id⟩

omit [Scalar K] in
theorem Quiet.trans (h : Quiet s s') (h' : Quiet s' s'') : Quiet s s'' :=
  ⟨h'.await.trans h.await, h'.anchor.trans h.anchor, h'.begun.trans h.begun, fun hdown => h.down (h'.down hdown)⟩

theorem inkBegun_call {c : StrokeModel.Call K} (hc : beginsInk c = false) : (s.call c).inkBegun = s.inkBegun := by
  unfold inkBegun call
  rw [List.countP_append]
  simp [hc]

theorem quiet_call {c : StrokeModel.Call K} (hc : beginsInk c = false) : s.Quiet (s.call c) :=
  ⟨rfl, rfl, inkBegun_call hc, id⟩

theorem quiet_commit : s.Quiet s.commitPenStrokeFromCapture := by
  unfold commitPenStrokeFromCapture
  dsimp only
  split
  · exact .refl s
  · split
    · exact ⟨rfl, rfl, inkBegun_call rfl, fun h => by cases h⟩
    · exact ⟨rfl, rfl, inkBegun_call rfl, fun h => by cases h⟩

theorem penDown_commit : s.commitPenStrokeFromCapture.penDown = false := by
  unfold commitPenStrokeFromCapture
  dsimp only
  split
  · next h => simpa using h
  · split <;> rfl

theorem quiet_refresh : s.Quiet (s.refreshPenStrokeLastGoodStageXY env) := by
  unfold refreshPenStrokeLastGoodStageXY
  split
  · exact .refl s
  · split
    · exact ⟨rfl, rfl, rfl, id⟩
    · exact .refl s

theorem quiet_appendInk : s.Quiet (s.appendInk env event) := by
  unfold appendInk
  dsimp only
  split
  · exact (quiet_call rfl).trans quiet_refresh
  · exact (quiet_call rfl).trans quiet_refresh

theorem quiet_clicked {button : DockAction K} : s.Quiet (s.clicked button) := by
  cases button with
  | swatch rgb => exact ⟨rfl, rfl, rfl, id⟩
  | clear => exact quiet_call rfl

section Handlers

variable [FloorRing K]

theorem quiet_onStrokeMotion : s.Quiet (s.onStrokeMotion env event).2 := by
  unfold onStrokeMotion
  split
  · exact .refl s
  · split
    · exact quiet_commit
    · exact quiet_appendInk

/-- The press handler takes the event for a press on the canvas: the pen is up, no button of the
dock is hit and the dock is not near. -/
def pressesCanvas (env : Desktop K) (s : OverlaySession K) (event : Event K) : Bool :=
  s.visible && event.eventIsPenDrawDevice && !s.penDown && (s.forwardPenDockIfSwatchHit env event).isNone &&
    !s.penEventLikelyOverDockPalette env event

theorem onPress_of_pressesCanvas (h : s.pressesCanvas env event = true) :
    s.onPress env event =
      (.stop, if s.penAwaitInkAfterRange && event.isDiscretePress then s.deferPress env event
        else s.beginInk env event event.stylusModeOnPress) := by
  unfold pressesCanvas at h
  simp only [Bool.and_eq_true, Bool.not_eq_true', Option.isNone_iff_eq_none] at h
  obtain ⟨⟨⟨⟨hvisible, hpen⟩, hup⟩, hforward⟩, hdock⟩ := h
  have hmode : ¬ event.stylusModeOnPress = .none := by
    rw [Event.stylusModeOnPress_eq_none, hpen]
    decide
  unfold onPress
  rw [if_neg (by simp [hvisible]), if_pos (by simp [hpen, hup]), hforward]
  dsimp only
  rw [if_neg (by simp [hdock]), if_neg (by simp [hup]), if_neg hmode]
  split <;> rfl

theorem quiet_onPress (h : s.pressesCanvas env event = false) : s.Quiet (s.onPress env event).2 := by
  unfold onPress
  split
  · exact .refl s
  next hvisible =>
  split
  · next s' hforward =>
    split at hforward
    · obtain ⟨-, button, rfl⟩ := forwarded_eq_clicked hforward
      exact quiet_clicked
    · cases hforward
  next hforward =>
  split
  · exact quiet_commit
  next hdock =>
  split
  · exact quiet_onStrokeMotion
  next hdown =>
  split
  · exact .refl s
  next hmode =>
  exfalso
  rw [Event.stylusModeOnPress_eq_none] at hmode
  unfold pressesCanvas at h
  simp_all

theorem pressesCanvas_up (h : s.pressesCanvas env event = true) :
    s.visible = true ∧ event.eventIsPenDrawDevice = true ∧ s.penDown = false := by
  unfold pressesCanvas at h
  simp only [Bool.and_eq_true, Bool.not_eq_true'] at h
  exact ⟨h.1.1.1.1, h.1.1.1.2, h.1.1.2⟩

/-! ### What a handler does to the gate -/

/-- What a handler does to the gate, when it takes the event to be at `pos`; `canvas` says that it
takes the event for a press on the canvas. -/
inductive Did (env : Desktop K) (event : Event K) (canvas : Prop) (pos : Option (K × K)) (s : OverlaySession K)
    (r : EventReturn × OverlaySession K) : Prop where
  | quiet (h : s.Quiet r.2)
  | deferred (hseen : s.visible = true ∧ event.eventIsPenDrawDevice = true) (hcanvas : canvas)
      (hpress : event.isDiscretePress = true) (hstop : r.1 = .stop)
      (hawait : r.2.penAwaitInkAfterRange = s.penAwaitInkAfterRange) (hanchor : r.2.penDeferredAnchorStageXY = pos)
      (hbegun : r.2.inkBegun = s.inkBegun) (hup : r.2.penDown = false)
  | drag (hseen : s.visible = true ∧ event.eventIsPenDrawDevice = true) (anchor m : K × K)
      (hmotion : event.motionish = true) (hanchor : s.penDeferredAnchorStageXY = some anchor) (hm : pos = some m)
      (hfar : penInkDragUnlock2 ≤ distSqFrom m anchor) (hnone : r.2.penDeferredAnchorStageXY = none)
  | began (hseen : s.visible = true ∧ event.eventIsPenDrawDevice = true) (hawait : s.penAwaitInkAfterRange = false)
      (hcanvas : canvas)
      (hcause : event.isDiscretePress = true ∨ event.motionish = true ∧ s.penMotionShouldImplicitPress env event = true)
      (hnone : r.2.penDeferredAnchorStageXY = none)

/-- The position that the handlers of the canvas go by. -/
def handlerXY (env : Desktop K) (s : OverlaySession K) (event : Event K) : Option (K × K) :=
  s.penCapStageXY <|> s.stageCoordsFromEvent env event

theorem onPress_did (hpress : event.isDiscretePress = true) (hpos : s.handlerXY env event ≠ none) :
    Did env event (s.pressesCanvas env event = true) (s.handlerXY env event) s (s.onPress env event) := by
  cases hcanvas : s.pressesCanvas env event with
  | false => exact .quiet (quiet_onPress hcanvas)
  | true =>
    obtain ⟨hvisible, hpen, hup⟩ := pressesCanvas_up hcanvas
    rw [onPress_of_pressesCanvas hcanvas, hpress, Bool.and_true]
    cases hawait : s.penAwaitInkAfterRange with
    | true =>
      refine .deferred ⟨hvisible, hpen⟩ rfl hpress rfl rfl ?_ rfl hup
      change (s.penCapStageXY <|> s.stageCoordsFromEvent env event <|> s.penDeferredAnchorStageXY) = _
      unfold handlerXY at hpos ⊢
      cases hcap : s.penCapStageXY with
      | some p => rfl
      | none =>
        rw [hcap] at hpos
        obtain ⟨p, hp⟩ := Option.ne_none_iff_exists'.mp hpos
        simp_all
    | false => exact .began ⟨hvisible, hpen⟩ hawait rfl (.inl hpress) rfl

/-- With the gate open a press either starts ink or keeps the gate. -/
theorem anchor_onPress_of_open (hawait : s.penAwaitInkAfterRange = false) (hnone : s.penDeferredAnchorStageXY = none) :
    (s.onPress env event).2.penDeferredAnchorStageXY = none := by
  cases hcanvas : s.pressesCanvas env event with
  | false => exact (quiet_onPress hcanvas).anchor.trans hnone
  | true =>
    rw [onPress_of_pressesCanvas hcanvas, hawait]
    rfl

theorem onMotion_did (hmotion : event.motionish = true) :
    Did env event (s.pressesCanvas env event = true) (s.handlerXY env event) s (s.onMotion env event) := by
  unfold onMotion
  split
  · exact .quiet (.refl s)
  next hvisible =>
  split
  · exact .quiet quiet_onStrokeMotion
  split
  · exact .quiet (.refl s)
  split
  · exact .quiet (.refl s)
  split
  · next anchor hgate =>
    split at hgate
    · next htests =>
      simp only [Bool.and_eq_true] at htests
      split
      · exact .quiet (.refl s)
      · next m hm =>
        split
        · next hfar =>
          exact .drag ⟨by simpa using hvisible, htests.1.2⟩ anchor m hmotion hgate hm hfar (anchor_onPress_of_open rfl rfl)
        · exact .quiet (.refl s)
    · cases hgate
  · split
    · next himplicit =>
      split
      · exact .quiet (.refl s)
      · next hawait =>
        by_cases hcanvas : s.pressesCanvas env event = true
        · have hopen : s.penAwaitInkAfterRange = false := by simpa using hawait
          have hup := pressesCanvas_up hcanvas
          refine .began ⟨hup.1, hup.2.1⟩ hopen hcanvas (.inr ⟨hmotion, himplicit⟩) ?_
          rw [onPress_of_pressesCanvas hcanvas, hopen]
          rfl
        · exact .quiet (quiet_onPress (by simpa using hcanvas))
    · exact .quiet (.refl s)

theorem quiet_onMotion_of_penDown (hdown : s.penDown = true) : s.Quiet (s.onMotion env event).2 := by
  unfold onMotion
  split
  · exact .refl s
  · exact quiet_onStrokeMotion

omit [FloorRing K] in
/-- A release keeps the gate, and at most takes the anchor away. -/
theorem onRelease_quiet_or (s : OverlaySession K) (event : Event K) :
    s.Quiet (s.onRelease event).2 ∨ { s with penDeferredAnchorStageXY := none }.Quiet (s.onRelease event).2 := by
  unfold onRelease releaseAnchor
  dsimp only
  split
  · exact .inl (.refl s)
  split
  · exact .inl (.refl s)
  split
  · split
    · exact .inr (.refl _)
    · exact .inr quiet_commit
  · split
    · exact .inl (.refl s)
    · exact .inl quiet_commit

omit [FloorRing K] in
theorem quiet_onRelease_of_penDown (hdown : s.penDown = true) : s.Quiet (s.onRelease event).2 := by
  have hsame : s.releaseAnchor event = s := by
    unfold releaseAnchor
    rw [if_neg (by simp [hdown])]
  unfold onRelease
  dsimp only
  rw [hsame]
  split
  · exact .refl s
  split
  · exact .refl s
  split
  · exact .refl s
  · exact quiet_commit

omit [FloorRing K] in
/-- The release of a pen that is up takes the anchor away. -/
theorem anchor_onRelease (hvisible : s.visible = true) (hup : s.penDown = false)
    (hpen : event.eventIsPenDrawDevice = true) (hrelease : event.releaseLike = true) :
    (s.onRelease event).2.penDeferredAnchorStageXY = none := by
  have hout : ¬ event.eventType = some .proximityOut := by
    intro h
    simpa using (Event.releaseLike_iff h).mp hrelease
  have hforget : s.releaseAnchor event = { s with penDeferredAnchorStageXY := none } := by
    unfold releaseAnchor
    rw [if_pos (by simp [hup, hpen, hrelease])]
  unfold onRelease
  dsimp only
  rw [if_neg (by simp [hvisible]), if_neg (by simp [hout]), hforget, if_neg (by simp [hpen])]
  exact quiet_commit.anchor

omit [FloorRing K] in
theorem penDown_onRelease (hvisible : s.visible = true) (hpen : event.eventIsPenDrawDevice = true) :
    (s.onRelease event).2.penDown = false := by
  unfold onRelease
  dsimp only
  rw [if_neg (by simp [hvisible])]
  split
  · next h =>
    simp only [Bool.and_eq_true, Bool.not_eq_true'] at h
    exact h.1.1
  · rw [if_neg (by simp [hpen])]
    exact penDown_commit

/-! ### The capture and the gate -/

omit [Scalar K] [FloorRing K] in
theorem quiet_dispatchPenCapture {fn : OverlaySession K → EventReturn × OverlaySession K}
    (h : (s.dispatchedAt p).Quiet (fn (s.dispatchedAt p)).2) : s.Quiet (s.dispatchPenCapture p fn).2 :=
  ⟨h.await, h.anchor, h.begun, h.down⟩

omit [FloorRing K] in
theorem dispatchRelease_quiet_or (s : OverlaySession K) (event : Event K) (p : K × K) :
    s.Quiet (s.dispatchPenCapture p fun s => s.onRelease event).2 ∨
      { s with penDeferredAnchorStageXY := none }.Quiet (s.dispatchPenCapture p fun s => s.onRelease event).2 := by
  rcases onRelease_quiet_or (s.dispatchedAt p) event with h | h
  · exact .inl ⟨h.await, h.anchor, h.begun, h.down⟩
  · exact .inr ⟨h.await, h.anchor, h.begun, h.down⟩

theorem quiet_dispatchForward : s.Quiet (s.dispatchForward env event p) := by
  unfold dispatchForward
  cases hforward : (s.dispatchedAt p).forwardPenDockIfSwatchHit env event with
  | none => exact ⟨rfl, rfl, rfl, id⟩
  | some s' =>
    obtain ⟨-, button, rfl⟩ := forwarded_eq_clicked hforward
    have h : (s.dispatchedAt p).Quiet ((s.dispatchedAt p).clicked button) := quiet_clicked
    exact ⟨h.await, h.anchor, h.begun, h.down⟩

/-- The exits of the capture leave the gate alone. -/
theorem quiet_captureAt (hexit : s.captureExit env event p ≠ .canvas) : s.Quiet (s.captureAt env event p).2 := by
  unfold captureAt
  dsimp only
  split
  · exact .refl s
  · split
    · split
      · exact .refl s
      · exact quiet_dispatchForward
    · exact .refl s
  · dsimp only
    split
    · exact quiet_commit
    · exact quiet_dispatchForward
  · exact quiet_commit
  · next h => exact absurd h hexit

/-- The capture hands the event to the handlers of the canvas, at its own position `p`. -/
structure ReachesCanvas (env : Desktop K) (s : OverlaySession K) (event : Event K) (p : K × K) : Prop where
  visible : s.visible = true
  accepts : s.penCaptureAcceptsEvent env event = true
  unhandled : event.id ∉ s.penCapHandled
  coords : s.stageCoordsFromEvent env event = some p
  canvas : s.captureExit env event p = .canvas

theorem ReachesCanvas.eq (h : s.ReachesCanvas env event p) (htype : event.eventType = some t) :
    s.onPenStageCaptured env event =
      (s.remember event).dispatchCanvas env event (s.repaired env event p) (s.coercedType event p t) := by
  have hexit : (s.remember event).captureExit env event p = .canvas := h.canvas
  unfold onPenStageCaptured
  rw [if_neg (by simp [h.visible]), if_neg (by simp [h.accepts]), if_neg h.unhandled]
  dsimp only
  rw [show (s.remember event).stageCoordsFromEvent env event = some p from h.coords]
  dsimp only
  unfold captureAt
  rw [hexit, htype]
  rfl

omit [Scalar K] [FloorRing K] in
theorem quiet_remember : s.Quiet (s.remember event) := ⟨rfl, rfl, rfl, id⟩

theorem quiet_of_not_reachesCanvas (h : ∀ p, ¬ s.ReachesCanvas env event p) :
    s.Quiet (s.onPenStageCaptured env event).2 := by
  unfold onPenStageCaptured
  split
  · exact .refl s
  next hvisible =>
  split
  · exact .refl s
  next haccepts =>
  split
  · exact .refl s
  next hhandled =>
  dsimp only
  split
  · exact quiet_remember
  · next p hp =>
    refine quiet_remember.trans (quiet_captureAt fun hexit => h p ⟨?_, ?_, hhandled, hp, hexit⟩)
    · simpa using hvisible
    · simpa using haccepts

/-- While the pen is down only a pen's leaving the range touches the gate. -/
theorem quiet_dispatchCanvas_of_penDown (hdown : s.penDown = true)
    (hout : ¬ (event.eventIsPenDrawDevice = true ∧ t = .proximityOut)) :
    s.Quiet (s.dispatchCanvas env event p1 t).2 := by
  have hpress : s.Quiet (s.dispatchPenCapture p1 fun s => s.onPress env event).2 := by
    refine quiet_dispatchPenCapture (quiet_onPress ?_)
    unfold pressesCanvas
    simp [dispatchedAt, hdown]
  have hmotion : s.Quiet (s.dispatchPenCapture p1 fun s => s.onMotion env event).2 :=
    quiet_dispatchPenCapture (quiet_onMotion_of_penDown hdown)
  have hrelease : s.Quiet (s.dispatchPenCapture p1 fun s => s.onRelease event).2 :=
    quiet_dispatchPenCapture (quiet_onRelease_of_penDown hdown)
  unfold dispatchCanvas
  split
  · exact hpress
  split
  · exact hmotion
  split
  · exact hrelease
  split
  · next ht =>
    have hpen : ¬ event.eventIsPenDrawDevice = true := fun h => hout ⟨h, ht⟩
    dsimp only
    rw [if_neg hpen]
    exact hrelease
  split
  · next hpress _ _ _ hin =>
    rw [hin] at hpress
    exact absurd rfl hpress
  split
  · split
    · exact ⟨rfl, rfl, rfl, id⟩
    · exact .refl s
  split
  · exact hmotion
  · exact .refl s

/-- With the pen up the remaining types do nothing to the gate. -/
theorem quiet_dispatchCanvas_of_other (hup : s.penDown = false) (hpress : isDiscretePressEventType t = false)
    (hmotion : ¬ (t = .motion ∨ t = .touchUpdate)) (hrelease : ¬ (t = .buttonRelease ∨ t = .touchEnd ∨ t = .touchCancel))
    (hout : t ≠ .proximityOut) : s.Quiet (s.dispatchCanvas env event p1 t).2 := by
  unfold dispatchCanvas
  rw [if_neg (by simp [hpress]), if_neg (by simpa using hmotion),
    if_neg (by simpa [and_assoc] using hrelease), if_neg hout]
  split
  · next hin =>
    rw [hin] at hpress
    cases hpress
  split
  · split
    · exact ⟨rfl, rfl, rfl, id⟩
    · exact .refl s
  · rw [if_neg (by simp [hup])]
    exact .refl s

omit [FloorRing K] in
theorem coercedType_of_up (hup : s.penDown = false) : s.coercedType event p t = t := by
  unfold coercedType penTabletCoercedMotion
  rw [if_neg (by simp [hup])]

omit [FloorRing K] in
theorem coercedType_of_proximityOut : s.coercedType event p .proximityOut = .proximityOut := by
  unfold coercedType
  rw [if_neg (by simp)]

/-- The position of a captured event. -/
def capturedXY (env : Desktop K) (s : OverlaySession K) (event : Event K) : Option (K × K) :=
  (s.stageCoordsFromEvent env event).map (s.repaired env event)

/-- A captured event that the press handler takes for a press on the canvas, if it gets there. -/
def CapturedPress (env : Desktop K) (s : OverlaySession K) (event : Event K) : Prop :=
  ∃ p, s.ReachesCanvas env event p ∧
    ((s.remember event).dispatchedAt (s.repaired env event p)).pressesCanvas env event = true

theorem dispatchPenCapture_did {canvas' : Prop} {fn : OverlaySession K → EventReturn × OverlaySession K}
    (hcanvas : canvas' → canvas)
    (h : Did env event canvas' (((s.remember event).dispatchedAt p1).handlerXY env event)
      ((s.remember event).dispatchedAt p1) (fn ((s.remember event).dispatchedAt p1))) :
    Did env event canvas (some p1) s ((s.remember event).dispatchPenCapture p1 fn) := by
  cases h with
  | quiet h => exact .quiet ⟨h.await, h.anchor, h.begun, h.down⟩
  | deferred hseen hc hpress hstop hawait hanchor hbegun hup =>
    exact .deferred hseen (hcanvas hc) hpress hstop hawait hanchor hbegun hup
  | drag hseen anchor m hmotion hanchor hm hfar hnone => exact .drag hseen anchor m hmotion hanchor hm hfar hnone
  | began hseen hawait hc hcause hnone => exact .began hseen hawait (hcanvas hc) hcause hnone

/-- A captured event, but for a release and a pen's leaving the range. -/
theorem onPenStageCaptured_did (env : Desktop K) (s : OverlaySession K) (htype : event.eventType = some t)
    (hrelease : event.releaseLike = false) (hout : t ≠ .proximityOut) :
    Did env event (s.CapturedPress env event) (s.capturedXY env event) s (s.onPenStageCaptured env event) := by
  by_cases hreach : ∃ p, s.ReachesCanvas env event p
  · obtain ⟨p, hreach⟩ := hreach
    have hpos : s.capturedXY env event = some (s.repaired env event p) := by
      unfold capturedXY
      rw [hreach.coords]
      rfl
    rw [hreach.eq htype]
    cases hdown : s.penDown with
    | true =>
      have htype' : ¬ (event.eventIsPenDrawDevice = true ∧ s.coercedType event p t = .proximityOut) := by
        rintro ⟨-, ht⟩
        have hor : s.coercedType event p t = .motion ∨ s.coercedType event p t = t := coercedType_eq_or
        rcases hor with h | h
        · rw [h] at ht
          cases ht
        · exact hout (h.symm.trans ht)
      exact .quiet (quiet_remember.trans (quiet_dispatchCanvas_of_penDown hdown htype'))
    | false =>
      rw [coercedType_of_up hdown, hpos]
      by_cases hpress : isDiscretePressEventType t = true
      · have hdiscrete : event.isDiscretePress = true :=
          (Event.isDiscretePress_iff htype).mpr ((isDiscretePressEventType_iff t).mp hpress)
        unfold dispatchCanvas
        rw [if_pos hpress]
        exact dispatchPenCapture_did (fun hcanvas => ⟨p, hreach, hcanvas⟩)
          (onPress_did hdiscrete (by simp [handlerXY, dispatchedAt]))
      by_cases hmotion : t = .motion ∨ t = .touchUpdate
      · unfold dispatchCanvas
        rw [if_neg hpress, if_pos (by simpa using hmotion)]
        exact dispatchPenCapture_did (fun hcanvas => ⟨p, hreach, hcanvas⟩)
          (onMotion_did ((Event.motionish_iff htype).mpr hmotion))
      have hrelease' : ¬ (t = .buttonRelease ∨ t = .touchEnd ∨ t = .touchCancel) := by
        rw [← Event.releaseLike_iff htype, hrelease]
        exact Bool.false_ne_true
      refine .quiet (quiet_remember.trans (quiet_dispatchCanvas_of_other hdown ?_ hmotion hrelease' hout))
      simpa using hpress
  · refine .quiet (quiet_of_not_reachesCanvas fun p hp => hreach ⟨p, hp⟩)

/-- A type that goes to the release handler. -/
def Releases (event : Event K) (t : ClutterEventType) : Prop :=
  t = .buttonRelease ∨ t = .touchEnd ∨ t = .touchCancel ∨ t = .proximityOut ∧ event.eventIsPenDrawDevice = false

omit [Scalar K] [FloorRing K] in
theorem releases_of_releaseLike (htype : event.eventType = some t) (hrelease : event.releaseLike = true) :
    Releases event t := by
  rcases (Event.releaseLike_iff htype).mp hrelease with h | h | h
  · exact .inl h
  · exact .inr (.inl h)
  · exact .inr (.inr (.inl h))

omit [FloorRing K] in
theorem Releases.coercedType (h : Releases event t) : s.coercedType event p t = t := by
  unfold OverlaySession.coercedType
  rcases h with rfl | rfl | rfl | ⟨rfl, -⟩ <;> rw [if_neg (by simp)]

theorem Releases.dispatchCanvas (h : Releases event t) :
    s.dispatchCanvas env event p1 t = s.dispatchPenCapture p1 fun s => s.onRelease event := by
  unfold OverlaySession.dispatchCanvas
  rcases h with rfl | rfl | rfl | ⟨rfl, hpen⟩
  · rfl
  · rfl
  · rfl
  · rw [hpen]
    rfl

/-- A captured release keeps the gate, and at most takes the anchor away. -/
theorem Releases.quiet_or (h : Releases event t) (env : Desktop K) (s : OverlaySession K)
    (htype : event.eventType = some t) :
    s.Quiet (s.onPenStageCaptured env event).2 ∨
      { s with penDeferredAnchorStageXY := none }.Quiet (s.onPenStageCaptured env event).2 := by
  by_cases hreach : ∃ p, s.ReachesCanvas env event p
  · obtain ⟨p, hreach⟩ := hreach
    rw [hreach.eq htype, h.coercedType, h.dispatchCanvas]
    rcases dispatchRelease_quiet_or (s.remember event) event (s.repaired env event p) with hr | hr
    · exact .inl ⟨hr.await, hr.anchor, hr.begun, hr.down⟩
    · exact .inr ⟨hr.await, hr.anchor, hr.begun, hr.down⟩
  · exact .inl (quiet_of_not_reachesCanvas fun p hp => hreach ⟨p, hp⟩)

/-- A captured release of a pen that is up takes the anchor away, if it reaches the canvas. -/
theorem ReachesCanvas.anchor_release (h : s.ReachesCanvas env event p) (htype : event.eventType = some t)
    (hup : s.penDown = false) (hpen : event.eventIsPenDrawDevice = true) (hrelease : event.releaseLike = true) :
    (s.onPenStageCaptured env event).2.penDeferredAnchorStageXY = none := by
  have ht := releases_of_releaseLike htype hrelease
  rw [h.eq htype, ht.coercedType, ht.dispatchCanvas]
  exact anchor_onRelease (s := (s.remember event).dispatchedAt (s.repaired env event p)) h.visible hup hpen hrelease

/-- A pen's leaving the range shuts the gate, if it reaches the canvas. -/
theorem ReachesCanvas.range (h : s.ReachesCanvas env event p) (hpen : event.eventIsPenDrawDevice = true)
    (htype : event.eventType = some .proximityOut) :
    (s.onPenStageCaptured env event).2.penAwaitInkAfterRange = true ∧
      (s.onPenStageCaptured env event).2.penDeferredAnchorStageXY = none ∧
      (s.onPenStageCaptured env event).2.inkBegun = s.inkBegun ∧
      (s.onPenStageCaptured env event).2.penDown = false := by
  let s0 : OverlaySession K :=
    { s.remember event with
      penAwaitInkAfterRange := true
      penDeferredAnchorStageXY := none }
  have heq : s.onPenStageCaptured env event =
      s0.dispatchPenCapture (s.repaired env event p) fun s => s.onRelease event := by
    rw [h.eq htype, coercedType_of_proximityOut]
    unfold OverlaySession.dispatchCanvas
    rw [hpen]
    rfl
  rw [heq]
  have hdown : ((s0.dispatchedAt (s.repaired env event p)).onRelease event).2.penDown = false :=
    penDown_onRelease (s := s0.dispatchedAt (s.repaired env event p)) h.visible hpen
  rcases dispatchRelease_quiet_or s0 event (s.repaired env event p) with hr | hr
  · exact ⟨hr.await, hr.anchor, hr.begun, hdown⟩
  · exact ⟨hr.await, hr.anchor, hr.begun, hdown⟩

end Handlers

end OverlaySession

end Annotations.Overlay
