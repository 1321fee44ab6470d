import Annotations.Overlay.Gate

/-! The mode of a deferred gesture. A press that erases by its button keeps that mode when it starts
ink itself. When the session swallows it, the drag that unlocks the ink is taken for the press,
and a motion has no button: the gesture that begins is a stroke, whatever was pressed. -/

namespace Annotations.Overlay

open History Runs

variable {K : Type} [Scalar K]

/-- The mode of the gesture that a call starts. -/
def modeBegun : StrokeModel.Call K → Option StylusMode
  | .beginStroke .. => some .draw
  | .beginErase .. => some .erase
  | _ => none

namespace OverlaySession

variable {env : Desktop K} {event : Event K} {s s' : OverlaySession K} {p p1 : K × K} {t : ClutterEventType}

/-! ### The calls of a handler -/

/-- The calls made from `s` on start gestures of the mode only. -/
def BeginsOnly (mode : StylusMode) (s s' : OverlaySession K) : Prop :=
  ∃ made, s'.calls = s.calls ++ made ∧ ∀ c ∈ made, ∀ m, modeBegun c = some m → m = mode

omit [Scalar K] in
theorem BeginsOnly.refl (mode : StylusMode) (s : OverlaySession K) : BeginsOnly mode s s :=
  ⟨[], (List.append_nil _).symm, by simp⟩

theorem BeginsOnly.call {mode : StylusMode} (h : BeginsOnly mode s s') {c : StrokeModel.Call K}
    (hc : ∀ m, modeBegun c = some m → m = mode) : BeginsOnly mode s (s'.call c) := by
  obtain ⟨made, hcalls, hmade⟩ := h
  refine ⟨made ++ [c], ?_, ?_⟩
  · rw [← List.append_assoc, ← hcalls]
    rfl
  · intro d hd
    rcases List.mem_append.mp hd with hd | hd
    · exact hmade d hd
    · rw [List.mem_singleton.mp hd]
      exact hc

/-- The mode of the ink that an event starts. -/
def inkMode (event : Event K) : StylusMode := if event.stylusModeOnPress = .erase then .erase else .draw

theorem BeginsOnly.update {s₀ : OverlaySession K} (h : BeginsOnly (inkMode event) s₀ s) (hupdate : Update env event s s') :
    BeginsOnly (inkMode event) s₀ s' := by
  have hnone : ∀ c : StrokeModel.Call K, modeBegun c = none → ∀ m, modeBegun c = some m → m = inkMode event := by
    intro c hc m hm
    rw [hc] at hm
    cases hm
  cases hupdate with
  | commit =>
    unfold commitPenStrokeFromCapture
    dsimp only
    split
    · exact h
    · split
      · exact BeginsOnly.call h (hnone _ rfl)
      · exact BeginsOnly.call h (hnone _ rfl)
  | clicked button hup =>
    cases button with
    | swatch rgb => exact h
    | clear => exact BeginsOnly.call h (hnone _ rfl)
  | beginInk hvisible hup hawait =>
    unfold beginInk
    dsimp only
    split
    · next herase =>
      refine BeginsOnly.call (BeginsOnly.call h (hnone _ rfl)) ?_
      rintro m ⟨⟩
      exact (if_pos herase).symm
    · next hdraw =>
      refine BeginsOnly.call (BeginsOnly.call h (hnone _ rfl)) ?_
      rintro m ⟨⟩
      exact (if_neg hdraw).symm
  | appendInk hdown =>
    have hrefresh : ∀ s : OverlaySession K, (s.refreshPenStrokeLastGoodStageXY env).calls = s.calls := by
      intro s
      unfold refreshPenStrokeLastGoodStageXY
      split
      · rfl
      · split <;> rfl
    unfold appendInk BeginsOnly
    dsimp only
    rw [hrefresh]
    split
    · exact BeginsOnly.call h (hnone _ rfl)
    · exact BeginsOnly.call h (hnone _ rfl)
  | _ => exact h

/-! ### What starts ink behind the shut gate -/

section Handlers

variable [FloorRing K]

theorem onPress_begins (hawait : s.penAwaitInkAfterRange = true) (hbegun : (s.onPress env event).2.inkBegun ≠ s.inkBegun) :
    event.isDiscretePress = false := by
  by_contra hpress
  have hdiscrete : event.isDiscretePress = true := by simpa using hpress
  cases hcanvas : s.pressesCanvas env event with
  | false => exact hbegun (quiet_onPress hcanvas).begun
  | true =>
    rw [onPress_of_pressesCanvas hcanvas, hawait, hdiscrete] at hbegun
    exact hbegun rfl

theorem onMotion_begins (hawait : s.penAwaitInkAfterRange = true)
    (hbegun : (s.onMotion env event).2.inkBegun ≠ s.inkBegun) : event.motionish = true := by
  unfold onMotion at hbegun
  split at hbegun
  · exact absurd rfl hbegun
  split at hbegun
  · exact absurd quiet_onStrokeMotion.begun hbegun
  split at hbegun
  · exact absurd rfl hbegun
  split at hbegun
  · exact absurd rfl hbegun
  split at hbegun
  · next anchor hgate =>
    split at hgate
    · next htests =>
      rw [Bool.and_eq_true] at htests
      exact htests.2
    · cases hgate
  · split at hbegun
    · exact absurd rfl hbegun
    · exact absurd rfl hbegun

theorem dispatchCanvas_begins (hpress : isDiscretePressEventType t = true → event.isDiscretePress = true)
    (hawait : s.penAwaitInkAfterRange = true) (hbegun : (s.dispatchCanvas env event p1 t).2.inkBegun ≠ s.inkBegun) :
    event.motionish = true := by
  have hrelease : ∀ s' : OverlaySession K, s'.inkBegun = s.inkBegun →
      (s'.dispatchPenCapture p1 fun s => s.onRelease event).2.inkBegun = s.inkBegun := by
    intro s' hsame
    rcases dispatchRelease_quiet_or s' event p1 with h | h
    · exact h.begun.trans hsame
    · exact h.begun.trans hsame
  unfold dispatchCanvas at hbegun
  split at hbegun
  · next hdiscrete =>
    have hnot := onPress_begins (s := s.dispatchedAt p1) hawait hbegun
    rw [hpress hdiscrete] at hnot
    cases hnot
  next hdiscrete =>
  split at hbegun
  · exact onMotion_begins (s := s.dispatchedAt p1) hawait hbegun
  split at hbegun
  · exact absurd (hrelease s rfl) hbegun
  split at hbegun
  · dsimp only at hbegun
    split at hbegun
    · exact (hbegun (hrelease _ rfl)).elim
    · exact (hbegun (hrelease _ rfl)).elim
  split at hbegun
  · next hin =>
    rw [hin] at hdiscrete
    exact absurd rfl hdiscrete
  split at hbegun
  · split at hbegun
    · exact absurd rfl hbegun
    · exact absurd rfl hbegun
  split at hbegun
  · exact onMotion_begins (s := s.dispatchedAt p1) hawait hbegun
  · exact absurd rfl hbegun

omit [FloorRing K] in
theorem isDiscretePress_of_coercedType (htype : event.eventType = some t)
    (hpress : isDiscretePressEventType (s.coercedType event p t) = true) : event.isDiscretePress = true := by
  rw [isDiscretePress_coercedType] at hpress
  rw [Event.isDiscretePress, htype]
  exact hpress

theorem captureAt_begins (hawait : s.penAwaitInkAfterRange = true)
    (hbegun : (s.captureAt env event p).2.inkBegun ≠ s.inkBegun) : event.motionish = true := by
  by_cases hexit : s.captureExit env event p = .canvas
  · unfold captureAt at hbegun
    rw [hexit] at hbegun
    dsimp only at hbegun
    split at hbegun
    · next t htype => exact dispatchCanvas_begins (isDiscretePress_of_coercedType htype) hawait hbegun
    · next htype =>
      split at hbegun
      · refine dispatchCanvas_begins (fun hpress => ?_) hawait hbegun
        rw [isDiscretePress_coercedType] at hpress
        cases hpress
      · exact absurd rfl hbegun
  · exact absurd (quiet_captureAt hexit).begun hbegun

theorem onPenStageCaptured_begins (hawait : s.penAwaitInkAfterRange = true)
    (hbegun : (s.onPenStageCaptured env event).2.inkBegun ≠ s.inkBegun) : event.motionish = true := by
  unfold onPenStageCaptured at hbegun
  split at hbegun
  · exact absurd rfl hbegun
  split at hbegun
  · exact absurd rfl hbegun
  split at hbegun
  · exact absurd rfl hbegun
  dsimp only at hbegun
  split at hbegun
  · exact absurd rfl hbegun
  · exact captureAt_begins (s := s.remember event) hawait hbegun

/-! ### The gesture of a step -/

variable {i : Step K} {mode m : StylusMode}

/-- The mode of the gesture that a step starts, if it starts one. -/
def gestureBegun (s : OverlaySession K) (i : Step K) : Option StylusMode :=
  ((s.step i).calls.drop s.calls.length).findSome? modeBegun

theorem gestureBegun_of_beginsOnly (h : BeginsOnly mode s (s.step i)) (hbegun : s.gestureBegun i = some m) :
    m = mode ∧ m ≠ .none ∧ s.StartsInk i := by
  obtain ⟨made, hcalls, hmade⟩ := h
  unfold gestureBegun at hbegun
  rw [hcalls, List.drop_left] at hbegun
  obtain ⟨c, hc, hm⟩ := List.exists_of_findSome?_eq_some hbegun
  have hbegins : beginsInk c = true ∧ m ≠ .none := by
    cases c with
    | beginStroke | beginErase =>
      obtain rfl := Option.some.inj hm
      exact ⟨rfl, by decide⟩
    | _ => cases hm
  refine ⟨hmade c hc m hm, hbegins.2, fun hsame => ?_⟩
  have hcount : 0 < made.countP beginsInk := List.countP_pos_iff.mpr ⟨c, hc, hbegins.1⟩
  unfold inkBegun at hsame
  rw [hcalls, List.countP_append] at hsame
  omega

/-- A gesture is started by an event, in the mode of that event. -/
theorem gestureBegun_eq (hbegun : s.gestureBegun i = some m) :
    ∃ event, i.action.event? = some event ∧ m = inkMode event ∧ s.StartsInk i := by
  have hmakes : ∀ event, i.action.event? = some event → Makes i.env event s (s.step i) →
      ∃ event, i.action.event? = some event ∧ m = inkMode event ∧ s.StartsInk i := by
    intro event hevent hmakes
    have honly : BeginsOnly (inkMode event) s (s.step i) :=
      hmakes.keeps (P := BeginsOnly (inkMode event) s) (fun _ _ h hupdate => h.update hupdate) (.refl _ s)
    obtain ⟨hm, -, hstarts⟩ := gestureBegun_of_beginsOnly honly hbegun
    exact ⟨event, hevent, hm, hstarts⟩
  have hnone : BeginsOnly .none s (s.step i) → ∃ event, i.action.event? = some event ∧ m = inkMode event ∧ s.StartsInk i := by
    intro honly
    obtain ⟨hm, hne, -⟩ := gestureBegun_of_beginsOnly honly hbegun
    exact absurd hm hne
  obtain ⟨env, action⟩ := i
  cases action with
  | captured event => exact hmakes event rfl onPenStageCaptured_makes
  | press event => exact hmakes event rfl onPress_makes
  | motion event => exact hmakes event rfl onMotion_makes
  | release event => exact hmakes event rfl (onRelease_makes env)
  | toggle =>
    refine hnone ?_
    change BeginsOnly .none s s.toggle
    unfold OverlaySession.toggle
    split
    · exact ⟨[.commitCurrent, .finishErase], by simp [OverlaySession.call], by simp [modeBegun]⟩
    · exact ⟨[], by simp, by simp⟩
  | clicked button =>
    refine hnone ?_
    cases button with
    | swatch rgb => exact .refl _ s
    | clear => exact ⟨[.clearAll], rfl, by simp [modeBegun]⟩
  | undoClicked => exact hnone ⟨[.undoOne], rfl, by simp [modeBegun]⟩

/-- A signal of the canvas carries an event of its own type. -/
def OfItsSignal (i : Step K) : Prop :=
  match i.action with
  | .press event => event.eventType = some .buttonPress
  | .motion event => event.eventType = some .motion
  | .release event => event.eventType = some .buttonRelease
  | _ => True

/-- While ink is deferred it is a motion that starts it. -/
theorem startsInk_motionish (hawait : s.penAwaitInkAfterRange = true) (hsignal : OfItsSignal i) (hstarts : s.StartsInk i)
    (hevent : i.action.event? = some event) : event.motionish = true := by
  obtain ⟨env, action⟩ := i
  cases action with
  | captured event' =>
    obtain rfl := Option.some.inj hevent
    exact onPenStageCaptured_begins hawait hstarts
  | press event' =>
    obtain rfl := Option.some.inj hevent
    have hpress : event'.isDiscretePress = true := (Event.isDiscretePress_iff hsignal).mpr (.inl rfl)
    rw [onPress_begins hawait hstarts] at hpress
    cases hpress
  | motion event' =>
    obtain rfl := Option.some.inj hevent
    exact onMotion_begins hawait hstarts
  | release event' =>
    rcases onRelease_quiet_or s event' with h | h
    · exact absurd h.begun hstarts
    · exact absurd h.begun hstarts
  | toggle | clicked | undoClicked => cases hevent

/-! ### The gate holds the anchor -/

/-- A swallowed press is waited for only while ink is deferred. -/
def AnchorAwaited (s : OverlaySession K) : Prop := s.penDeferredAnchorStageXY ≠ none → s.penAwaitInkAfterRange = true

omit [Scalar K] [FloorRing K] in
theorem AnchorAwaited.quiet (h : s.AnchorAwaited) (hquiet : s.Quiet s') : s'.AnchorAwaited := by
  intro hanchor
  rw [hquiet.anchor] at hanchor
  exact hquiet.await.trans (h hanchor)

omit [FloorRing K] in
theorem AnchorAwaited.update (h : s.AnchorAwaited) (hupdate : Update env event s s') : s'.AnchorAwaited := by
  cases hupdate with
  | commit => exact h.quiet quiet_commit
  | clicked button hup => exact h.quiet quiet_clicked
  | appendInk hdown => exact h.quiet quiet_appendInk
  | deferPress hup hawait hpress hpen => exact fun _ => hawait
  | beginInk | unlock | forget | range => exact fun hanchor => absurd rfl hanchor
  | remember | dispatchedAt | dispatchDone | arm => exact h

theorem AnchorAwaited.step (h : s.AnchorAwaited) (i : Step K) : (s.step i).AnchorAwaited := by
  refine step_keeps (P := AnchorAwaited) (fun event s s' h hupdate => h.update hupdate) ?_ ?_ ?_ h
  · intro _ hanchor
    unfold OverlaySession.toggle at hanchor ⊢
    split
    · rfl
    · rfl
  · intro button _ h
    cases button with
    | swatch rgb => exact h
    | clear => exact h
  · exact fun _ h => h

/-! ### The mode of a swallowed press -/

/-- The session swallows the event of a step: a press of the pen on the canvas while ink is deferred. -/
def Swallows (s : OverlaySession K) (i : Step K) (press : Event K) : Prop :=
  s.penAwaitInkAfterRange = true ∧ press.isDiscretePress = true ∧
    (i.action = .press press ∧ s.pressesCanvas i.env press = true ∨
      i.action = .captured press ∧ s.CapturedPress i.env press)

theorem Swallows.pen {press : Event K} (h : s.Swallows i press) : press.eventIsPenDrawDevice = true := by
  obtain ⟨-, -, ⟨-, hcanvas⟩ | ⟨-, p, -, hcanvas⟩⟩ := h
  · exact (pressesCanvas_up hcanvas).2.1
  · exact (pressesCanvas_up hcanvas).2.1

/-- No ink comes of it yet. -/
theorem Swallows.deferred {press : Event K} (h : s.Swallows i press) :
    ¬ s.StartsInk i ∧ (s.step i).penAwaitInkAfterRange = true := by
  obtain ⟨env, action⟩ := i
  obtain ⟨hawait, hpress, ⟨rfl, hcanvas⟩ | ⟨rfl, p, hreach, hcanvas⟩⟩ := h
  · have hstep : s.step ⟨env, .press press⟩ = s.deferPress env press := by
      change (s.onPress env press).2 = _
      rw [onPress_of_pressesCanvas hcanvas, hawait, hpress]
      rfl
    unfold StartsInk
    rw [hstep]
    exact ⟨fun hstarts => hstarts rfl, hawait⟩
  · obtain ⟨t, htype, ht⟩ : ∃ t, press.eventType = some t ∧ isDiscretePressEventType t = true := by
      unfold Event.isDiscretePress at hpress
      cases htype : press.eventType with
      | none =>
        rw [htype] at hpress
        cases hpress
      | some t =>
        rw [htype] at hpress
        exact ⟨t, rfl, hpress⟩
    have hstep : s.step ⟨env, .captured press⟩ =
        (((s.remember press).dispatchedAt (s.repaired env press p)).deferPress env press).dispatchDone := by
      change (s.onPenStageCaptured env press).2 = _
      rw [hreach.eq htype]
      unfold dispatchCanvas dispatchPenCapture
      rw [if_pos (by rw [isDiscretePress_coercedType]; exact ht)]
      dsimp only
      rw [onPress_of_pressesCanvas hcanvas]
      have hawait' : ((s.remember press).dispatchedAt (s.repaired env press p)).penAwaitInkAfterRange = true := hawait
      rw [hawait', hpress]
      rfl
    unfold StartsInk
    rw [hstep]
    exact ⟨fun hstarts => hstarts rfl, hawait⟩

/-- In a run, step `k` swallows a press, the press is still waited for at step `n`, and step `n` starts
a gesture. -/
structure Unlocked (is : List (Step K)) (k n : ℕ) (press : Event K) (mode : StylusMode) : Prop where
  swallowed : ∃ i, is[k]? = some i ∧ (stateAt step new is k).Swallows i press
  later : k < n
  latest : ∀ l, k < l → l < n → ∀ i press', is[l]? = some i → ¬ (stateAt step new is l).Swallows i press'
  waited : (stateAt step new is n).penDeferredAnchorStageXY ≠ none
  begun : ∃ i, is[n]? = some i ∧ (stateAt step new is n).gestureBegun i = some mode

/-- A deferred gesture has the mode of its press exactly when the press was one to draw. -/
theorem mode_of_unlocked_iff {is : List (Step K)} (hsignal : ∀ i ∈ is, OfItsSignal i)
    (hbutton : ∀ i ∈ is, ∀ event, i.action.event? = some event → event.motionish = true → event.button = 0)
    {k n : ℕ} {press : Event K} {mode : StylusMode} (h : Unlocked is k n press mode) :
    mode = press.stylusModeOnPress ↔ press.stylusModeOnPress = .draw := by
  obtain ⟨i, hget, hbegun⟩ := h.begun
  have hi : i ∈ is := List.mem_of_getElem? hget
  have hawaited : (stateAt step (new : OverlaySession K) is n).AnchorAwaited :=
    run_invariant (P := AnchorAwaited) (fun s i h => h.step i) fun hanchor => absurd rfl hanchor
  obtain ⟨event, hevent, hmode, hstarts⟩ := gestureBegun_eq hbegun
  have hmotion := startsInk_motionish (hawaited h.waited) (hsignal i hi) hstarts hevent
  -- the motion has no button, so that it draws
  have hdraw : mode = .draw := by
    rw [hmode, inkMode, if_neg]
    unfold Event.stylusModeOnPress
    rw [hbutton i hi event hevent hmotion]
    split <;> simp
  rw [hdraw]
  exact eq_comm

end Handlers

/-! ### The secondary button -/

/-- A press of the pen's button, and a drag. -/
def sampleButtonStroke (button : ℕ) : List (Step ℚ) :=
  [⟨sampleDesktop, .toggle⟩, ⟨sampleDesktop, .captured { samplePen 0 .buttonPress 500 500 with button := button }⟩,
    ⟨sampleDesktop, .captured (samplePen 1 .motion 520 500)⟩]

theorem unlocked_sampleButtonStroke {button : ℕ} (h : button = 1 ∨ button = 3) :
    Unlocked (sampleButtonStroke button) 1 2 { samplePen 0 .buttonPress 500 500 with button := button } .draw := by
  have hreach : ∀ button, button = 1 ∨ button = 3 →
      ReachesCanvas sampleDesktop (stateAt step new (sampleButtonStroke button) 1)
        { samplePen 0 .buttonPress 500 500 with button := button } (500, 500) := by
    rintro button (rfl | rfl) <;> exact ⟨by decide +kernel, by decide +kernel, by decide +kernel, by decide +kernel, by decide +kernel⟩
  refine ⟨⟨_, rfl, ?_⟩, by omega, fun l _ _ => by omega, ?_, ⟨_, rfl, ?_⟩⟩
  · refine ⟨?_, ?_, .inr ⟨rfl, (500, 500), hreach button h, ?_⟩⟩ <;> rcases h with rfl | rfl <;> decide +kernel
  · rcases h with rfl | rfl <;> decide +kernel
  · rcases h with rfl | rfl <;> decide +kernel

theorem ofItsSignal_sampleButtonStroke (button : ℕ) : ∀ i ∈ sampleButtonStroke button, OfItsSignal i := by
  simp [sampleButtonStroke, OfItsSignal]

theorem motion_sampleButtonStroke (button : ℕ) : ∀ i ∈ sampleButtonStroke button, ∀ event,
    i.action.event? = some event → event.motionish = true → event.button = 0 := by
  simp [sampleButtonStroke, Action.event?, samplePen, Event.motionish]

theorem mode_of_unlocked_iff_tip :
    let press : Event ℚ := { samplePen 0 .buttonPress 500 500 with button := 1 }
    Unlocked (sampleButtonStroke 1) 1 2 press .draw ∧
      (StylusMode.draw = press.stylusModeOnPress ↔ press.stylusModeOnPress = .draw) :=
  ⟨unlocked_sampleButtonStroke (.inl rfl), mode_of_unlocked_iff (ofItsSignal_sampleButtonStroke 1)
    (motion_sampleButtonStroke 1) (unlocked_sampleButtonStroke (.inl rfl))⟩

/-- The drag from a press of the secondary button draws. -/
theorem not_mode_of_unlocked_secondary :
    ¬ ∀ is : List (Step ℚ), (∀ i ∈ is, OfItsSignal i) →
      (∀ i ∈ is, ∀ event, i.action.event? = some event → event.motionish = true → event.button = 0) →
      ∀ k n press mode, Unlocked is k n press mode → mode = press.stylusModeOnPress := by
  intro h
  have hmode := h _ (ofItsSignal_sampleButtonStroke 3) (motion_sampleButtonStroke 3) 1 2 _ .draw
    (unlocked_sampleButtonStroke (.inr rfl))
  exact absurd hmode (by decide +kernel)

end OverlaySession

end Annotations.Overlay
