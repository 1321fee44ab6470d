import Annotations.Kate.Discovery
import Annotations.Layer.Step

/-! The tracker of a Kate window. It pushes the region of the editor and the scroll of the
document to the compositor, and keeps what it pushed last so that it does not repeat
itself. The scroll is counted in lines by the scrollbar, and the height of a line is
measured along the way. -/

namespace Annotations

open Atspi

/-- `Math.round`: a tie goes up. -/
def mathRound {K : Type} [Scalar K] [FloorRing K] (x : K) : ℤ := ⌊x + 1 / 2⌋

/-- `KateWindowTracker`. The signature of a region is kept as the region; the empty one is
`none`. -/
@[ext] structure KateWindowTracker (K : Type) where
  win : Option WindowId
  pid : ℕ
  editor : Option Accessible
  scrollbar : Option Accessible
  charBaseYRel : Option ℤ
  baseSbVal : Option K
  lineHeight : K
  lineHeightCalibrated : Bool
  lastRegionSig : Option Rect
  lastScrollY : Option ℤ
  retryCount : ℕ
  retryId : Bool
  pollId : Bool
  pollLastSbVal : Option K

/-- What wakes a tracker: its timers, the signals of its window, and the accessibility
events that the manager hands on. -/
inductive TrackerEvent (K : Type) where
  | retry (view : View K) (minimized : Bool)
  | poll (view : View K)
  | geometryChanged (view : View K) (minimized : Bool)
  | valueChanged (source : Accessible) (view : View K)
  | boundsChanged (source : Accessible) (view : View K) (minimized : Bool)

namespace KateWindowTracker

/-- The number of `DISCOVERY_ATTEMPT_DELAYS_MS`. -/
def discoveryAttempts : ℕ := 6

variable {K : Type} [Scalar K] [FloorRing K]

/-- The constructor. Discovery is scheduled. -/
def new (win : WindowId) (pid : ℕ) : KateWindowTracker K where
  win := some win
  pid := pid
  editor := none
  scrollbar := none
  charBaseYRel := none
  baseSbVal := none
  lineHeight := 14
  lineHeightCalibrated := false
  lastRegionSig := none
  lastScrollY := none
  retryCount := 0
  retryId := true
  pollId := false
  pollLastSbVal := none

variable (t : KateWindowTracker K) (view : View K)

/-! ### Reading the editor and the scrollbar -/

omit [Scalar K] [FloorRing K] in
/-- The extents of character 0 and of the editor, unless those of the character are
degenerate. -/
def charExtents : Option (Rect × Rect) :=
  t.editor.bind fun editor =>
    match view.characterExtents editor, view.extents editor with
    | some rect, some ed => if rect.degenerate then none else some (rect, ed)
    | _, _ => none

/-- The current value of the scrollbar. -/
def sbVal : Option K := t.scrollbar.bind view.currentValue

/-- `_captureBaseline`. -/
def captureBaseline : KateWindowTracker K :=
  let t := match t.charExtents view with
    | none => t
    | some (rect, ed) =>
      { t with
        charBaseYRel := some (t.charBaseYRel.getD (rect.y - ed.y))
        lineHeight := if rect.height > 0 then (rect.height : K) else t.lineHeight }
  match t.baseSbVal with
  | some _ => t
  | none => { t with baseSbVal := t.sbVal view }

/-! ### Publishing -/

/-- `_republishRegion`. -/
def republishRegion (minimized : Bool) : KateWindowTracker K × List (Call K) :=
  match t.editor, t.win with
  | some editor, some _ =>
    if minimized then (t, [])
    else
      match view.extents editor with
      | none => (t, [])
      | some ext =>
        if ext.width < 1 ∨ ext.height < 1 then (t, [])
        -- extents are integers: rounding them changes nothing
        else if t.lastRegionSig = some ext then (t, [])
        else
          ({ t with lastRegionSig := some ext },
            [.setWindowEditorRegion t.pid ext.x ext.y ext.width ext.height])
  | _, _ => (t, [])

/-- How far character 0 has moved up since the baseline. -/
def textDelta : Option ℤ :=
  t.charBaseYRel.bind fun base => (t.charExtents view).map fun (rect, ed) => base - (rect.y - ed.y)

/-- How far the scrollbar has moved since the baseline. -/
def sbDelta : Option K := t.baseSbVal.bind fun base => (t.sbVal view).map (· - base)

/-- The height of a line that a small scroll measures. -/
def measured : Option K :=
  match t.textDelta view, t.sbDelta view with
  | some text, some sb =>
    if !t.lineHeightCalibrated ∧ 1 ≤ |sb| ∧ |sb| ≤ 3 ∧ text ≠ 0 then
      let measured := |(text : K) / sb|
      if 8 ≤ measured ∧ measured ≤ 80 then some measured else none
    else none
  | _, _ => none

/-- The calibration of the height of a line. -/
def calibrate : KateWindowTracker K :=
  match t.measured view with
  | some height => { t with lineHeight := height, lineHeightCalibrated := true }
  | none => t

/-- The scroll in pixels: the lines of the scrollbar by the height of a line, or the way
of character 0. -/
def scrollY : Option K :=
  match t.sbDelta view, t.textDelta view with
  | some sb, _ => some (mathRound (sb * t.lineHeight) : K)
  | none, some text => some (text : K)
  | none, none => none

/-- `_republishScroll`. -/
def republishScroll : KateWindowTracker K × List (Call K) :=
  match t.editor with
  | none => (t, [])
  | some _ =>
    let t := t.calibrate view
    match t.scrollY view with
    | none => (t, [])
    | some sy =>
      let syRound := mathRound sy
      if t.lastScrollY = some syRound then (t, [])
      else ({ t with lastScrollY := some syRound }, [.setWindowScroll t.pid 0 syRound])

/-! ### Discovery and polling -/

/-- The tracker with what the walk found. -/
def locate (found : Found) : KateWindowTracker K :=
  { t with
    editor := found.editor <|> t.editor
    scrollbar := found.scrollbar <|> t.scrollbar }

/-- `_tryDiscover`. -/
def tryDiscover (minimized : Bool) : KateWindowTracker K × List (Call K) :=
  match view.discover t.pid with
  | none => (t, [])
  | some found =>
    let t := t.locate found
    match t.editor with
    | none => (t, [])
    | some _ =>
      let t := t.captureBaseline view
      let (t, region) := t.republishRegion view minimized
      let (t, scroll) := t.republishScroll view
      ({ t with pollId := true, pollLastSbVal := none }, region ++ scroll)

/-- The callback of `_scheduleDiscovery`. It is scheduled again until editor and scrollbar
are there or the attempts are used up. -/
def retryDiscovery (minimized : Bool) : KateWindowTracker K × List (Call K) :=
  if !t.retryId then (t, [])
  else
    let t := { t with retryId := false }
    match t.win with
    | none => (t, [])
    | some _ =>
      let (t, calls) := t.tryDiscover view minimized
      let gotEverything := t.editor.isSome && t.scrollbar.isSome
      let t := { t with retryCount := t.retryCount + 1 }
      let exhausted := t.retryCount ≥ discoveryAttempts
      ({ t with retryId := !(gotEverything || exhausted) }, calls)

/-- The tracker on which a tick of the poll calls `_republishScroll`, if it does. -/
def pollScroll : Option (KateWindowTracker K) :=
  if !t.pollId then none
  else
    match t.sbVal view with
    | none => none
    | some cur =>
      if t.pollLastSbVal = some cur then none
      else
        let t := { t with pollLastSbVal := some cur }
        some (if t.baseSbVal.isNone then t.captureBaseline view else t)

/-! ### Accessibility events -/

/-- The tracker on which `handleValueChangedSource` calls `_republishScroll`. -/
def valueChangedScroll (source : Accessible) : Option (KateWindowTracker K) :=
  if view.pid source ≠ t.pid then none
  else if view.role source ≠ .scrollBar then none
  else if t.scrollbar = some source then some t
  else
    match t.editor, view.extents source with
    | some editor, some ext =>
      if ext.height ≤ ext.width then none
      else if view.scrollbarAdjacent ext editor then some { t with scrollbar := some source } else none
    | _, _ => none

/-- The tracker on which `handleBoundsChangedSource` calls `_republishScroll`. -/
def boundsChangedScroll (source : Accessible) : Option (KateWindowTracker K) :=
  if t.editor.isNone ∨ view.pid source ≠ t.pid ∨ t.editor = some source then none
  else some (if t.charBaseYRel.isNone then t.captureBaseline view else t)

/-- `handleValueChangedSource`; `none` when the event is not for this tracker. -/
def handleValueChangedSource (source : Accessible) : Option (KateWindowTracker K × List (Call K)) :=
  (t.valueChangedScroll view source).map fun t => t.republishScroll view

/-- `handleBoundsChangedSource`; `none` when the event is not for this tracker. -/
def handleBoundsChangedSource (source : Accessible) (minimized : Bool) :
    Option (KateWindowTracker K × List (Call K)) :=
  if t.editor.isNone ∨ view.pid source ≠ t.pid then none
  else if t.editor = some source then
    some ({ t with lastRegionSig := none }.republishRegion view minimized)
  else (t.boundsChangedScroll view source).map fun t => t.republishScroll view

/-- A callback of the tracker. -/
def handle : TrackerEvent K → KateWindowTracker K × List (Call K)
  | .retry view minimized => t.retryDiscovery view minimized
  | .poll view => ((t.pollScroll view).map fun t => t.republishScroll view).getD (t, [])
  | .geometryChanged view minimized => t.republishRegion view minimized
  | .valueChanged source view => (t.handleValueChangedSource view source).getD (t, [])
  | .boundsChanged source view minimized => (t.handleBoundsChangedSource view source minimized).getD (t, [])

/-- The call that `destroy` makes: the region of the process is cleared. -/
def destroy : List (Call K) := if 0 < t.pid then [.setWindowEditorRegion t.pid 0 0 0 0] else []

end KateWindowTracker

end Annotations
