import Annotations.Delivery.Seat
import Annotations.Pointer.SeatImpl
import Annotations.Runs.Purge

/-! What the pen does to the mouse. A pen never moves the pointer while the layer is active,
but each of its samples freezes the mouse for a while. -/

namespace Annotations

open Runs

variable {K : Type} [Scalar K]

namespace DeviceMotion

variable (motion : DeviceMotion K)

/-- A pointer device with no sign of a pen or a touchpad. -/
def isOrdinaryMouse : Bool :=
  motion.device.deviceType = .pointer && !motion.device.capabilityTabletTool && !motion.device.capabilityTouchpad &&
    !toolIsDrawingStylus motion.tool && !(motion.device.dimensions.any fun d => 0 < d.1 && 0 < d.2) &&
    !deviceNameHintsStylus motion.device && !axesPressurePositive motion.axes

/-- A device of the tablet family, or one that passes for a pen. -/
def isPen : Bool :=
  match motion.device.deviceType with
  | .tablet | .pen | .eraser | .cursor => true
  | .touchpad => touchpadIsPenDigitizerShim motion.device motion.tool
  | .pointer => pointerDeviceMatchesAnnotationPointer motion.device motion.tool none motion.axes
  | _ => false

variable {motion} {input : AnnotationInput K} {coords : K × K}

theorem pointer_of_isOrdinaryMouse (h : motion.isOrdinaryMouse = true) : motion.device.deviceType = .pointer := by
  simp only [isOrdinaryMouse, Bool.and_eq_true, decide_eq_true_eq] at h
  exact h.1.1.1.1.1.1

/-- The mouse only stops for a recent sample. -/
theorem skip_of_isOrdinaryMouse (h : motion.isOrdinaryMouse = true) (hisolated : input.nonMouseIsolated = true) :
    input.skipPointerMotionCoalesced motion.device motion.tool motion.axes motion.group coords.1 coords.2 motion.nowUs =
      input.sampleRecent motion.nowUs := by
  simp only [isOrdinaryMouse, Bool.and_eq_true, Bool.not_eq_true', decide_eq_true_eq] at h
  obtain ⟨⟨⟨⟨⟨⟨hpointer, htablet⟩, htouchpad⟩, htool⟩, hdimensions⟩, hname⟩, hpressure⟩ := h
  have hshim : touchpadIsPenDigitizerShim motion.device motion.tool = false := by
    simp [touchpadIsPenDigitizerShim, hpointer]
  have hmatches : pointerDeviceMatchesAnnotationPointer motion.device motion.tool none motion.axes = false := by
    simp [pointerDeviceMatchesAnnotationPointer, htablet, htouchpad, htool, hdimensions, hname, hpressure]
  have hmaster : input.skipMasterPointerUpdate motion.device motion.tool motion.axes motion.group coords.1 coords.2
      motion.nowUs = input.sampleRecent motion.nowUs := by
    unfold AnnotationInput.skipMasterPointerUpdate
    cases hrecent : input.sampleRecent motion.nowUs <;> simp [hisolated, hshim, hpointer, htouchpad, hmatches]
  unfold AnnotationInput.skipPointerMotionCoalesced
  rw [hmaster]
  cases hrecent : input.sampleRecent motion.nowUs <;> simp [hisolated, hshim, hpointer, htouchpad, hpressure]

/-- A pen never moves the pointer. -/
theorem skip_of_isPen (h : motion.isPen = true) (hisolated : input.nonMouseIsolated = true) :
    input.skipPointerMotionCoalesced motion.device motion.tool motion.axes motion.group coords.1 coords.2 motion.nowUs =
      true := by
  have hmaster : motion.device.deviceType = .pointer → input.skipMasterPointerUpdate motion.device motion.tool
      motion.axes motion.group coords.1 coords.2 motion.nowUs = true := by
    intro hpointer
    have hmatches : pointerDeviceMatchesAnnotationPointer motion.device motion.tool none motion.axes = true := by
      simpa [isPen, hpointer] using h
    unfold AnnotationInput.skipMasterPointerUpdate
    simp [hisolated, hpointer, hmatches]
  unfold AnnotationInput.skipPointerMotionCoalesced
  cases htype : motion.device.deviceType with
  | pointer => rw [hmaster htype, if_pos rfl]
  | touchpad =>
    have hshim : touchpadIsPenDigitizerShim motion.device motion.tool = true := by simpa [isPen, htype] using h
    simp [hisolated, hshim]
  | tablet => simp [hisolated]
  | pen => simp [hisolated]
  | eraser => simp [hisolated]
  | cursor => simp [hisolated]
  | keyboard | extension | joystick | touchscreen | pad => simp [isPen, htype] at h

end DeviceMotion

/-! ### One event -/

namespace SeatOp

def isMouse : SeatOp K → Bool
  | .relativeMotion motion _ _ => motion.isOrdinaryMouse
  | .absoluteMotion motion _ _ => motion.isOrdinaryMouse
  | .removeDevice _ => false

def isPen : SeatOp K → Bool
  | .relativeMotion motion _ _ => motion.isPen
  | .absoluteMotion motion _ _ => motion.isPen
  | .removeDevice _ => true

/-- Where the event would move the pointer to. -/
def target (pointer : K × K) : SeatOp K → K × K
  | .relativeMotion motion dx dy =>
    let d := motion.constraints.filterRelativeMotion pointer (dx, dy)
    motion.constraints.constrainCoordinates pointer (pointer.1 + d.1, pointer.2 + d.2)
  | .absoluteMotion motion x y => motion.constraints.constrainCoordinates pointer (x, y)
  | .removeDevice _ => pointer

/-- The event arrives shortly after a sample of a pen. -/
def afterSample (input : AnnotationInput K) : SeatOp K → Bool
  | .relativeMotion motion _ _ => input.sampleRecent motion.nowUs
  | .absoluteMotion motion _ _ => input.sampleRecent motion.nowUs
  | .removeDevice _ => false

end SeatOp

namespace AnnotationInput

variable {input : AnnotationInput K} {x y : K} {nowUs group : ℤ}

omit [Scalar K] in
@[simp] theorem isolated_noteTabletFamilyMotion :
    (input.noteTabletFamilyMotion group x y nowUs).nonMouseIsolated = input.nonMouseIsolated := by
  unfold noteTabletFamilyMotion
  split_ifs <;> rfl

omit [Scalar K] in
@[simp] theorem isolated_noteFromPointerIfStylusClass {device : ClutterInputDevice}
    {tool : Option ClutterInputDeviceToolType} {axes : Option (List K)} :
    (input.noteFromPointerIfStylusClass device tool axes group x y nowUs).nonMouseIsolated = input.nonMouseIsolated := by
  unfold noteFromPointerIfStylusClass
  split_ifs <;> simp

end AnnotationInput

namespace MetaSeatImpl

variable {seat : MetaSeatImpl K} {motion : DeviceMotion K} {coords : K × K}

omit [Scalar K] in
theorem isolated_noteMotion :
    (seat.noteMotion motion coords).nonMouseIsolated = seat.annotationInput.nonMouseIsolated := by
  unfold noteMotion
  dsimp only
  rw [AnnotationInput.isolated_noteFromPointerIfStylusClass]
  split
  · exact AnnotationInput.isolated_noteTabletFamilyMotion
  · exact AnnotationInput.isolated_noteTabletFamilyMotion
  · exact AnnotationInput.isolated_noteTabletFamilyMotion
  · exact AnnotationInput.isolated_noteTabletFamilyMotion
  · split_ifs
    · exact AnnotationInput.isolated_noteTabletFamilyMotion
    · rfl
  · rfl

/-- The mouse leaves no sample. -/
theorem noteMotion_mouse (h : motion.isOrdinaryMouse = true) : seat.noteMotion motion coords = seat.annotationInput := by
  simp only [DeviceMotion.isOrdinaryMouse, Bool.and_eq_true, Bool.not_eq_true', decide_eq_true_eq] at h
  obtain ⟨⟨⟨⟨⟨⟨hpointer, htablet⟩, -⟩, htool⟩, -⟩, -⟩, -⟩ := h
  simp [noteMotion, AnnotationInput.noteFromPointerIfStylusClass, hpointer, htablet, htool]

theorem moveTo_mouse (h : motion.isOrdinaryMouse = true) (hisolated : seat.annotationInput.nonMouseIsolated = true) :
    seat.moveTo motion coords = if seat.annotationInput.sampleRecent motion.nowUs then seat
      else { seat with pointerState := coords }.emitPointerPositionChanged coords := by
  have hpointer := DeviceMotion.pointer_of_isOrdinaryMouse h
  unfold moveTo
  dsimp only
  rw [noteMotion_mouse h, DeviceMotion.skip_of_isOrdinaryMouse h hisolated]
  cases hrecent : seat.annotationInput.sampleRecent motion.nowUs with
  | true => simp [updateDeviceCoordsInImpl, hpointer]
  | false => simp [updateDeviceCoordsInImpl, hpointer]

theorem moveTo_pen (h : motion.isPen = true) (hisolated : seat.annotationInput.nonMouseIsolated = true) :
    (seat.moveTo motion coords).pointerState = seat.pointerState ∧
      (seat.moveTo motion coords).annotationInput.nonMouseIsolated = true := by
  have hnoted : (seat.noteMotion motion coords).nonMouseIsolated = true := isolated_noteMotion.trans hisolated
  unfold moveTo
  dsimp only
  rw [DeviceMotion.skip_of_isPen h hnoted, Bool.not_true, if_neg Bool.false_ne_true]
  unfold updateDeviceCoordsInImpl
  split_ifs
  · exact ⟨rfl, hnoted⟩
  · contradiction
  · exact ⟨rfl, hnoted⟩

variable {op : SeatOp K}

/-- A mouse that arrives shortly after a sample stays where it is. -/
theorem step_mouse (h : op.isMouse = true) (hisolated : seat.annotationInput.nonMouseIsolated = true) :
    seat.step op = if op.afterSample seat.annotationInput then seat
      else { seat with pointerState := op.target seat.pointerState }.emitPointerPositionChanged
        (op.target seat.pointerState) := by
  have hcoords : ∀ motion : DeviceMotion K, motion.isOrdinaryMouse = true →
      seat.getOnscreenCoordsForSourceDevice motion.device = seat.pointerState := by
    intro motion hmouse
    simp [getOnscreenCoordsForSourceDevice, DeviceMotion.pointer_of_isOrdinaryMouse hmouse]
  cases op with
  | relativeMotion motion dx dy =>
    change seat.notifyRelativeMotionInImpl motion dx dy = _
    unfold notifyRelativeMotionInImpl
    rw [hcoords motion h, moveTo_mouse h hisolated]
    rfl
  | absoluteMotion motion x y =>
    change seat.notifyAbsoluteMotionInImpl motion x y = _
    unfold notifyAbsoluteMotionInImpl
    rw [hcoords motion h, moveTo_mouse h hisolated]
    rfl
  | removeDevice device => cases h

theorem step_pen (h : op.isPen = true) (hisolated : seat.annotationInput.nonMouseIsolated = true) :
    (seat.step op).pointerState = seat.pointerState ∧ (seat.step op).annotationInput.nonMouseIsolated = true := by
  cases op with
  | relativeMotion motion dx dy => exact moveTo_pen h hisolated
  | absoluteMotion motion x y => exact moveTo_pen h hisolated
  | removeDevice device =>
    change (seat.removeDevice device).pointerState = _ ∧ (seat.removeDevice device).annotationInput.nonMouseIsolated = true
    unfold removeDevice
    split_ifs
    · exact ⟨rfl, hisolated⟩
    · exact ⟨rfl, hisolated⟩

/-! ### With and without the pen -/

/-- The seat as if no pen had been there. -/
def withoutSample (seat : MetaSeatImpl K) : MetaSeatImpl K :=
  { seat with annotationInput := { seat.annotationInput with tabletXyValid := false } }

/-- Both seats have the pointer in one place, and the second knows of no pen. -/
structure Unpenned (seat seat' : MetaSeatImpl K) : Prop where
  pointer : seat.pointerState = seat'.pointerState
  isolated : seat.annotationInput.nonMouseIsolated = true
  isolated' : seat'.annotationInput.nonMouseIsolated = true
  noSample : seat'.annotationInput.tabletXyValid = false

variable {seat' : MetaSeatImpl K}

/-- Without a sample the mouse moves. -/
theorem Unpenned.step_mouse' (h : Unpenned seat seat') (hop : op.isMouse = true) :
    seat'.step op = { seat' with pointerState := op.target seat.pointerState }.emitPointerPositionChanged
      (op.target seat.pointerState) := by
  have hnone : op.afterSample seat'.annotationInput = false := by
    cases op <;> simp [SeatOp.afterSample, AnnotationInput.sampleRecent, h.noSample]
  rw [step_mouse hop h.isolated', hnone, if_neg Bool.false_ne_true, h.pointer]

theorem Unpenned.pointer_step_iff (h : Unpenned seat seat') (hop : op.isMouse = true) :
    (seat.step op).pointerState = (seat'.step op).pointerState ↔
      (op.afterSample seat.annotationInput = true → op.target seat.pointerState = seat.pointerState) := by
  rw [h.step_mouse' hop, step_mouse hop h.isolated]
  cases op.afterSample seat.annotationInput with
  | true => exact ⟨fun heq _ => heq.symm, fun heq => (heq rfl).symm⟩
  | false => exact ⟨fun _ => nofun, fun _ => rfl⟩

theorem Unpenned.step (h : Unpenned seat seat') (hop : op.isMouse = true)
    (hstays : op.afterSample seat.annotationInput = true → op.target seat.pointerState = seat.pointerState) :
    Unpenned (seat.step op) (seat'.step op) := by
  refine ⟨(h.pointer_step_iff hop).mpr hstays, ?_, ?_, ?_⟩
  · rw [step_mouse hop h.isolated]
    split_ifs
    · exact h.isolated
    · exact h.isolated
  · rw [h.step_mouse' hop]
    exact h.isolated'
  · rw [h.step_mouse' hop]
    exact h.noSample

/-- Mice and pens leave the isolation on. -/
theorem isolated_step (h : op.isMouse = true ∨ op.isPen = true)
    (hisolated : seat.annotationInput.nonMouseIsolated = true) :
    (seat.step op).annotationInput.nonMouseIsolated = true := by
  rcases h with hmouse | hpen
  · rw [step_mouse hmouse hisolated]
    split_ifs
    · exact hisolated
    · exact hisolated
  · exact (step_pen hpen hisolated).2

/-- While the layer is active, a motion of the mouse moves the pointer to its target, unless
it arrives shortly after a sample of a pen, when it does nothing. So the pointer takes
the places that it takes without the pens exactly when all motions that arrive shortly
after a sample would not have moved it. -/
theorem mousePositions_iff (display : MetaDisplay) (input : AnnotationInput K) (width height : ℤ) (layerOps : List (Op K))
    (hactive : (run MetaAnnotationLayer.opStep (metaAnnotationLayerNew display input width height) layerOps).active = true)
    (seat : MetaSeatImpl K) (hisolated : seat.annotationInput.nonMouseIsolated =
      (run MetaAnnotationLayer.opStep (metaAnnotationLayerNew display input width height) layerOps).input.nonMouseIsolated)
    (ops : List (SeatOp K)) (hops : ∀ op ∈ ops, op.isMouse = true ∨ op.isPen = true) :
    (∀ k op, ops[k]? = some op → op.isMouse = true → (stateAt step seat ops (k + 1)).pointerState =
      if op.afterSample (stateAt step seat ops k).annotationInput then (stateAt step seat ops k).pointerState
      else op.target (stateAt step seat ops k).pointerState) ∧
    (observed step SeatOp.isMouse pointerState seat ops =
        observed step SeatOp.isMouse pointerState seat.withoutSample (ops.filter SeatOp.isMouse) ↔
      Along step (fun seat op => op.isMouse = true → op.afterSample seat.annotationInput = true →
        op.target seat.pointerState = seat.pointerState) seat ops) := by
  have hon : seat.annotationInput.nonMouseIsolated = true := by
    rw [hisolated, MetaAnnotationLayer.isolated_run, hactive]
  constructor
  · intro k op hget hmouse
    have hisolated : (stateAt step seat ops k).annotationInput.nonMouseIsolated = true := by
      refine stateAt_invariant (P := fun (_ : ℕ) (seat : MetaSeatImpl K) => seat.annotationInput.nonMouseIsolated = true) hon
        (fun j op' hget' h => isolated_step (hops op' (List.mem_of_getElem? hget')) h) ?_
      exact (List.getElem?_eq_some_iff.mp hget).1.le
    rw [stateAt_succ hget, step_mouse hmouse hisolated]
    split_ifs <;> rfl
  · refine observed_filter_iff (R := Unpenned) ?_ ?_ ?_ ⟨rfl, hon, hon, rfl⟩
    · intro op hop hmouse seat seat' h
      have hpen : op.isPen = true := (hops op hop).resolve_left (by rw [hmouse]; exact Bool.false_ne_true)
      obtain ⟨hpointer, hstays⟩ := step_pen hpen h.isolated
      exact ⟨hpointer.trans h.pointer, hstays, h.isolated', h.noSample⟩
    · intro op _ hmouse seat seat' h
      exact h.pointer_step_iff hmouse
    · intro op _ hmouse seat seat' h hstays
      exact h.step hmouse hstays

/-! ### A pen and a mouse -/

def freely : SeatConstraints ℚ := ⟨fun _ d => d, fun _ coords => coords⟩

def penMotion : DeviceMotion ℚ := ⟨⟨1, .tablet, false, true, some "Pen", none⟩, some .pen, 1, none, freely, 0⟩

/-- Of another device group, and 200 ms later. -/
def mouseMotion : DeviceMotion ℚ := ⟨⟨2, .pointer, false, false, some "Mouse", none⟩, none, 2, none, freely, 200000⟩

def penThenMouse : List (SeatOp ℚ) := [.absoluteMotion penMotion 5 5, .relativeMotion mouseMotion 1 0]

def untouched : MetaSeatImpl ℚ := ⟨⟨true, false, 0, 0, 0⟩, (0, 0), fun _ => none, []⟩

theorem mousePositions_iff_penThenMouse :
    (∀ k op, penThenMouse[k]? = some op → op.isMouse = true → (stateAt step untouched penThenMouse (k + 1)).pointerState =
      if op.afterSample (stateAt step untouched penThenMouse k).annotationInput then
        (stateAt step untouched penThenMouse k).pointerState
      else op.target (stateAt step untouched penThenMouse k).pointerState) ∧
    (observed step SeatOp.isMouse pointerState untouched penThenMouse =
        observed step SeatOp.isMouse pointerState untouched.withoutSample (penThenMouse.filter SeatOp.isMouse) ↔
      Along step (fun seat op => op.isMouse = true → op.afterSample seat.annotationInput = true →
        op.target seat.pointerState = seat.pointerState) untouched penThenMouse) :=
  mousePositions_iff .bare .initial 100 100 [.call (.setActive true)] rfl untouched rfl penThenMouse (by decide +kernel)

/-- The mouse does not move, but without the pen it would. -/
theorem mousePositions_penThenMouse :
    penMotion.isPen = true ∧ mouseMotion.isOrdinaryMouse = true ∧ penMotion.group ≠ mouseMotion.group ∧
    observed step SeatOp.isMouse pointerState untouched penThenMouse = [(0, 0)] ∧
    observed step SeatOp.isMouse pointerState untouched (penThenMouse.filter SeatOp.isMouse) = [(1, 0)] := by
  decide +kernel

end MetaSeatImpl

end Annotations
