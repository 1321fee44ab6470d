import Mathlib

/-! Input devices and events as the annotation code reads them from Clutter, with
the accessors of `clutter-event.c`. `Scalar K` is an ordered field that stands for
`float` and `double`, together with the two library functions on numbers whose code
is not in the repository and the rounding to `float`. What the code keeps of window
coordinates, of content space and of published regions, scrolls and colours is rounded,
since it is compared with what was painted and published; all other arithmetic is exact. -/

namespace Annotations

/-- The arithmetic of the layer. `sqrtf` is the C library's and
`grapheneRectContainsPoint x y width height px py` is graphene's hit test of the
rectangle with origin `(x, y)`; nothing is assumed of either. `toFloat` rounds to
binary32: each rounding mode is monotone and keeps the numbers of the format, and so
does no rounding at all. -/
class Scalar (K : Type) extends Field K, LinearOrder K, IsStrictOrderedRing K where
  sqrtf : K → K
  grapheneRectContainsPoint : K → K → K → K → K → K → Bool
  toFloat : K → K
  toFloat_mono : Monotone toFloat
  toFloat_keeps : ∀ m e : ℤ, |m| ≤ 2 ^ 24 → -149 ≤ e → e ≤ 103 → toFloat (m * 2 ^ e) = m * 2 ^ e

theorem id_keeps {K : Type} [Field K] (m e : ℤ) (_ : |m| ≤ 2 ^ 24) (_ : -149 ≤ e) (_ : e ≤ 103) :
    id ((m : K) * 2 ^ e) = m * 2 ^ e := rfl

/-- Rationals without rounding, with the square root rounded down to a multiple of
`2 ^ (-10)` and the closed hit test of graphene, to run the model on concrete inputs. -/
instance : Scalar ℚ where
  __ := (inferInstance : Field ℚ)
  __ := (inferInstance : LinearOrder ℚ)
  __ := (inferInstance : IsStrictOrderedRing ℚ)
  sqrtf q := (Nat.sqrt (q * 2 ^ 20).floor.toNat : ℚ) / 2 ^ 10
  grapheneRectContainsPoint x y width height px py :=
    x ≤ px && px ≤ x + width && y ≤ py && py ≤ y + height
  toFloat := id
  toFloat_mono := monotone_id
  toFloat_keeps := id_keeps

/-! ### Rounding -/

/-- Arithmetic without rounding. -/
class ExactFloats (K : Type) [Scalar K] : Prop where
  toFloat_eq : ∀ x : K, Scalar.toFloat x = x

instance : ExactFloats ℚ := ⟨fun _ => rfl⟩

namespace Scalar

variable {K : Type} [Scalar K]

@[simp] theorem toFloat_of_exact [ExactFloats K] (x : K) : toFloat x = x := ExactFloats.toFloat_eq x

theorem toFloat_intCast {n : ℤ} (hn : |n| ≤ 2 ^ 24) : toFloat (n : K) = n := by
  have h := toFloat_keeps (K := K) n 0 hn (by norm_num) (by norm_num)
  simpa only [zpow_zero, mul_one] using h

@[simp] theorem toFloat_zero : toFloat (0 : K) = 0 := by
  have h := toFloat_intCast (K := K) (n := 0) (by norm_num)
  rwa [Int.cast_zero] at h

theorem toFloat_intCast_pos {n : ℤ} (hn : 0 < n) : 0 < toFloat (n : K) := by
  have hone := toFloat_intCast (K := K) (n := 1) (by norm_num)
  have hle : toFloat ((1 : ℤ) : K) ≤ toFloat (n : K) := toFloat_mono (Int.cast_le.mpr hn)
  rw [hone, Int.cast_one] at hle
  exact one_pos.trans_le hle

theorem toFloat_intCast_neg {n : ℤ} (hn : n < 0) : toFloat (n : K) < 0 := by
  have hone := toFloat_intCast (K := K) (n := -1) (by norm_num)
  have hle : toFloat (n : K) ≤ toFloat ((-1 : ℤ) : K) := toFloat_mono (Int.cast_le.mpr (by omega))
  rw [hone, Int.cast_neg, Int.cast_one] at hle
  exact hle.trans_lt (by norm_num)

/-- Rounding takes no other integer to zero. -/
@[simp] theorem toFloat_intCast_eq_zero {n : ℤ} : toFloat (n : K) = 0 ↔ n = 0 := by
  constructor
  · intro h
    rcases lt_trichotomy n 0 with hneg | hzero | hpos
    · exact absurd h (toFloat_intCast_neg hneg).ne
    · exact hzero
    · exact absurd h (toFloat_intCast_pos hpos).ne'
  · rintro rfl
    simp

/-- A whole number of steps of `2 ^ e`, few enough that a sum of three such numbers is a float. -/
def OnGrid (e : ℤ) (x : K) : Prop := ∃ m : ℤ, |m| ≤ 2 ^ 22 ∧ x = m * 2 ^ e

section OnGrid

variable {e : ℤ} {x a s : K}

theorem toFloat_onGrid (he : -149 ≤ e ∧ e ≤ 103) {m : ℤ} (hm : |m| ≤ 2 ^ 24) (hx : x = m * 2 ^ e) : toFloat x = x := by
  rw [hx, toFloat_keeps m e hm he.1 he.2]

theorem toFloat_sub_onGrid (he : -149 ≤ e ∧ e ≤ 103) (hx : OnGrid e x) (ha : OnGrid e a) : toFloat (x - a) = x - a := by
  obtain ⟨m, hm, rfl⟩ := hx
  obtain ⟨n, hn, rfl⟩ := ha
  refine toFloat_onGrid he (m := m - n) ?_ (by push_cast; ring)
  have hle := abs_sub m n
  omega

theorem toFloat_sub_add_onGrid (he : -149 ≤ e ∧ e ≤ 103) (hx : OnGrid e x) (ha : OnGrid e a) (hs : OnGrid e s) :
    toFloat (x - a + s) = x - a + s := by
  obtain ⟨m, hm, rfl⟩ := hx
  obtain ⟨n, hn, rfl⟩ := ha
  obtain ⟨k, hk, rfl⟩ := hs
  refine toFloat_onGrid he (m := m - n + k) ?_ (by push_cast; ring)
  have hle := abs_add_le (m - n) k
  have hle' := abs_sub m n
  omega

/-- Moving a point there and back, in two steps there. -/
theorem sub_add_cancel_onGrid (he : -149 ≤ e ∧ e ≤ 103) (hx : OnGrid e x) (ha : OnGrid e a) (hs : OnGrid e s) :
    toFloat (toFloat (x - a) + s) + toFloat (a - s) = x := by
  rw [toFloat_sub_onGrid he hx ha, toFloat_sub_add_onGrid he hx ha hs, toFloat_sub_onGrid he ha hs]
  ring

/-- Moving a point there and back, in one step there. -/
theorem add_sub_cancel_onGrid (he : -149 ≤ e ∧ e ≤ 103) (hx : OnGrid e x) (ha : OnGrid e a) (hs : OnGrid e s) :
    toFloat (x + toFloat (s - a)) + toFloat (a - s) = x := by
  have hassoc : x + (s - a) = x - a + s := by ring
  rw [toFloat_sub_onGrid he hs ha, hassoc, toFloat_sub_add_onGrid he hx ha hs, toFloat_sub_onGrid he ha hs]
  ring

end OnGrid

end Scalar

/-! ### Numerals

The constants that definitions of several files use; a definition refers to these proofs by name. -/

instance atLeastTwo_two : Nat.AtLeastTwo 2 := inferInstance

instance atLeastTwo_four : Nat.AtLeastTwo 4 := inferInstance

instance atLeastTwo_six : Nat.AtLeastTwo 6 := inferInstance

instance atLeastTwo_eight : Nat.AtLeastTwo 8 := inferInstance

instance atLeastTwo_ten : Nat.AtLeastTwo 10 := inferInstance

instance atLeastTwo_fourteen : Nat.AtLeastTwo 14 := inferInstance

instance atLeastTwo_twentyEight : Nat.AtLeastTwo 28 := inferInstance

instance atLeastTwo_eighty : Nat.AtLeastTwo 80 := inferInstance

/-! ### Devices and tools -/

inductive ClutterInputDeviceType where
  | pointer | keyboard | extension | joystick | tablet | touchpad | touchscreen | pen | eraser
  | cursor | pad
  deriving DecidableEq

inductive ClutterInputDeviceToolType where
  | none | pen | eraser | brush | pencil | airbrush | mouse | lens
  deriving DecidableEq

/-- A `ClutterInputDevice`. Of the capability flags only the two that the
annotation code tests are kept; `dimensions` is the size in millimetres when the
device reports one. -/
structure ClutterInputDevice where
  id : ℕ
  deviceType : ClutterInputDeviceType
  capabilityTouchpad : Bool
  capabilityTabletTool : Bool
  name : Option String
  dimensions : Option (ℕ × ℕ)
  deriving DecidableEq

/-! ### Events -/

inductive ClutterEventType where
  | nothing | keyPress | keyRelease | motion | enter | leave | buttonPress | buttonRelease | scroll
  | touchBegin | touchUpdate | touchEnd | touchCancel | touchpadPinch | touchpadSwipe | touchpadHold
  | proximityIn | proximityOut | padButtonPress | padButtonRelease | padStrip | padRing | padDial
  | deviceAdded | deviceRemoved | imCommit | imDelete | imPreedit | keyState
  deriving DecidableEq

/-- A `ClutterEvent`, with the payload of the event types the annotation code
handles. `sequence` tells the touch sequences apart. -/
structure ClutterEvent (K : Type) where
  type : ClutterEventType
  sourceDevice : Option ClutterInputDevice
  tool : Option ClutterInputDeviceToolType
  x : K
  y : K
  button : ℕ
  /-- `CLUTTER_BUTTON1_MASK` in the modifier state. -/
  button1Mask : Bool
  axes : Option (List K)
  sequence : ℕ

def clutterButtonPrimary : ℕ := 1

/-- Indices into the array of axes. -/
def clutterInputAxisPressure : ℕ := 3
def clutterInputAxisXtilt : ℕ := 4
def clutterInputAxisYtilt : ℕ := 5

namespace ClutterEvent

variable {K : Type} [Scalar K] (event : ClutterEvent K)

/-- `clutter_event_get_device_tool`: only some event types carry a tool. -/
def getDeviceTool : Option ClutterInputDeviceToolType :=
  match event.type with
  | .buttonPress | .buttonRelease | .motion | .scroll | .proximityIn | .proximityOut => event.tool
  | _ => none

/-- `clutter_event_get_axes`. -/
def getAxes : Option (List K) :=
  match event.type with
  | .scroll | .buttonPress | .buttonRelease | .touchBegin | .touchUpdate | .touchEnd | .touchCancel
  | .motion => event.axes
  | _ => none

/-- `clutter_event_get_button`: zero on anything but a button event. -/
def getButton : ℕ :=
  match event.type with
  | .buttonPress | .buttonRelease | .padButtonPress | .padButtonRelease => event.button
  | _ => 0

end ClutterEvent

end Annotations
