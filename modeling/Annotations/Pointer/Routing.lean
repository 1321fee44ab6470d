import Annotations.Pointer.SeatImpl

/-! Freezing and routing. The seat freezes the cursor on the raw axes of a motion, before
there is an event; the overlay takes the event that the same motion makes. The two agree,
but for the mouse that is frozen after a sample of the tablet. -/

namespace Annotations

variable {K : Type} [Scalar K]

/-- `clutter_event_motion_new`, with the parts of the event that the annotation code reads. -/
def clutterEventMotionNew (sourceDevice : ClutterInputDevice) (tool : Option ClutterInputDeviceToolType)
    (button1Mask : Bool) (x y : K) (axes : Option (List K)) : ClutterEvent K where
  type := .motion
  sourceDevice := some sourceDevice
  tool := tool
  x := x
  y := y
  button := 0
  button1Mask := button1Mask
  axes := axes
  sequence := 0

/-- The types of the devices whose motions the seat handles. -/
def ClutterInputDeviceType.moves : ClutterInputDeviceType → Bool
  | .pointer | .touchpad | .tablet | .pen | .eraser | .cursor => true
  | _ => false

variable {input : AnnotationInput K} {device : ClutterInputDevice} {tool : Option ClutterInputDeviceToolType}
  {axes : Option (List K)} {button1Mask : Bool} {x y : K}

/-- What the overlay takes of the motions of a device. -/
theorem targetsOverlay_motion : metaAnnotationEventTargetsOverlay
      (clutterEventMotionNew device tool button1Mask x y axes) =
    match device.deviceType with
    | .touchscreen | .tablet | .pen | .eraser | .cursor => true
    | .pointer => pointerDeviceMatchesAnnotationPointer device tool none axes
    | .touchpad => touchpadIsPenDigitizerShim device tool
    | .keyboard | .pad | .extension | .joystick => false := rfl

/-- Pressure on the axes of a pointer that is no touchpad is a match already. -/
theorem pointerDeviceMatches_of_pressure (htouchpad : device.capabilityTouchpad = false)
    (hpressure : axesPressurePositive axes = true) :
    pointerDeviceMatchesAnnotationPointer device tool none axes = true := by
  unfold pointerDeviceMatchesAnnotationPointer
  split_ifs with _ _ _ hpad
  · rfl
  · rfl
  · rfl
  · exact absurd hpad (by simp [htouchpad])
  · exact hpressure

theorem shim_of_not_touchpad (h : device.deviceType ≠ .touchpad) : touchpadIsPenDigitizerShim device tool = false := by
  unfold touchpadIsPenDigitizerShim
  rw [if_pos h]

/-- The first test settles all pointers: the one that follows it asks for nothing new. -/
theorem skip_pointer (hisolated : input.nonMouseIsolated = true) (htype : device.deviceType = .pointer)
    (group nowUs : ℤ) : input.skipPointerMotionCoalesced device tool axes group x y nowUs =
      (!device.capabilityTouchpad && input.sampleRecent nowUs ||
        pointerDeviceMatchesAnnotationPointer device tool none axes) := by
  have hshim : touchpadIsPenDigitizerShim device tool = false := shim_of_not_touchpad (by simp [htype])
  have hmaster : input.skipMasterPointerUpdate device tool axes group x y nowUs =
      (!device.capabilityTouchpad && input.sampleRecent nowUs ||
        pointerDeviceMatchesAnnotationPointer device tool none axes) := by
    unfold AnnotationInput.skipMasterPointerUpdate
    simp only [hisolated, hshim, htype, Bool.not_true, Bool.false_eq_true, if_false, ne_eq, not_true_eq_false,
      decide_true, Bool.true_and]
    cases (!device.capabilityTouchpad && input.sampleRecent nowUs) <;> rfl
  unfold AnnotationInput.skipPointerMotionCoalesced
  rw [hmaster]
  by_cases hskip : (!device.capabilityTouchpad && input.sampleRecent nowUs ||
      pointerDeviceMatchesAnnotationPointer device tool none axes) = true
  · rw [if_pos hskip, hskip]
  · have hmatches : pointerDeviceMatchesAnnotationPointer device tool none axes = false := by
      cases hm : pointerDeviceMatchesAnnotationPointer device tool none axes with
      | false => rfl
      | true => exact absurd (by rw [hm, Bool.or_true]) hskip
    rw [if_neg hskip]
    simp only [hisolated, hshim, htype, Bool.not_true, Bool.false_eq_true, if_false]
    rw [eq_false_of_ne_true hskip]
    split_ifs with hpad
    · rfl
    · by_contra hpressure
      have hmatches' : pointerDeviceMatchesAnnotationPointer device tool none axes = true :=
        pointerDeviceMatches_of_pressure (eq_false_of_ne_true hpad) (eq_true_of_ne_false hpressure)
      rw [hmatches] at hmatches'
      cases hmatches'

/-- The cursor is frozen for what the overlay takes, and for a mouse after the tablet. -/
theorem skip_iff_targetsOverlay (hisolated : input.nonMouseIsolated = true) (hmoves : device.deviceType.moves = true)
    (group nowUs : ℤ) : input.skipPointerMotionCoalesced device tool axes group x y nowUs = true ↔
      metaAnnotationEventTargetsOverlay (clutterEventMotionNew device tool button1Mask x y axes) = true ∨
        device.deviceType = .pointer ∧ device.capabilityTouchpad = false ∧ input.sampleRecent nowUs = true := by
  rw [targetsOverlay_motion]
  cases htype : device.deviceType with
  | pointer =>
    rw [skip_pointer hisolated htype]
    simp only [Bool.or_eq_true, Bool.and_eq_true, Bool.not_eq_true', true_and]
    exact or_comm
  | touchpad =>
    unfold AnnotationInput.skipPointerMotionCoalesced AnnotationInput.skipMasterPointerUpdate
    cases hshim : touchpadIsPenDigitizerShim device tool <;> simp [hisolated, htype]
  | tablet => simp [AnnotationInput.skipPointerMotionCoalesced, hisolated, htype]
  | pen => simp [AnnotationInput.skipPointerMotionCoalesced, hisolated, htype]
  | eraser => simp [AnnotationInput.skipPointerMotionCoalesced, hisolated, htype]
  | cursor => simp [AnnotationInput.skipPointerMotionCoalesced, hisolated, htype]
  | keyboard | extension | joystick | touchscreen | pad => simp [ClutterInputDeviceType.moves, htype] at hmoves

/-- A pen that reports as a pointer, and shows only by its pressure. -/
theorem skip_iff_targetsOverlay_pressure :
    let device : ClutterInputDevice := ⟨2, .pointer, false, false, none, none⟩
    let input : AnnotationInput ℚ := ⟨true, false, 0, 0, 0⟩
    input.skipPointerMotionCoalesced device none (some [0, 0, 0, 1 / 2]) (-1) 3 4 100 = true := by
  intro device input
  have htargets : metaAnnotationEventTargetsOverlay
      (clutterEventMotionNew device none false 3 4 (some [0, 0, 0, (1 / 2 : ℚ)])) = true := by decide +kernel
  exact (skip_iff_targetsOverlay rfl rfl (-1) 100).mpr (.inl htargets)

end Annotations
