import Annotations.Overlay.Desktop
import Annotations.History.StrokeModel

/-! The overlay session: the pen's flags, the stroke model it drives, and the handlers of the
canvas for a press, a motion and a release. -/

namespace Annotations.Overlay

open History

variable {K : Type} [Scalar K]

/-- An `OverlaySession`. `visible` is the root's. `_penCapStageXYUse` and `_penCapStageXYPair` are
set and cleared together: `penCapStageXY` holds the pair while they are set. `penCapHandled` is the
set of events captured so far. `calls` is a history variable that no handler reads: the calls of
the stroke model's methods, in order. -/
structure OverlaySession (K : Type) where
  visible : Bool
  penDown : Bool
  penProximityArmed : Bool
  penProximityArmedAt : ℤ
  penCapHandled : List ℕ
  penCapStageXY : Option (K × K)
  lastGoodCapStageXY : Option (K × K)
  penAwaitInkAfterRange : Bool
  penDeferredAnchorStageXY : Option (K × K)
  model : StrokeModel K
  calls : List (StrokeModel.Call K)

namespace OverlaySession

/-- The constructor. The stroke model is new, with the first colour of the dock. -/
def new : OverlaySession K where
  visible := false
  penDown := false
  penProximityArmed := false
  penProximityArmedAt := 0
  penCapHandled := []
  penCapStageXY := none
  lastGoodCapStageXY := none
  penAwaitInkAfterRange := true
  penDeferredAnchorStageXY := none
  model := { StrokeModel.empty with penRGBA := [0.1, 0.1, 0.1, 1] }
  calls := []

/-- Call a method of the stroke model. -/
def call (s : OverlaySession K) (c : StrokeModel.Call K) : OverlaySession K :=
  { s with
    model := s.model.call c
    calls := s.calls ++ [c] }

variable (env : Desktop K) (s : OverlaySession K) (event : Event K)

/-! ### Where an event is -/

/-- `_stageCoordsFromEvent`. -/
def stageCoordsFromEvent : Option (K × K) :=
  let xy := event.coords
  let penish := event.eventIsPenDrawDevice
  let strokePointer := s.penDown && event.motionish
  let bad := match xy with
    | none => true
    | some p => penish && p.1 = 0 && p.2 = 0
  if bad && (penish || strokePointer) && env.pointer.isSome then env.pointer
  else match xy with
    | none => none
    | some p =>
      if strokePointer && !env.stagePointInOverlayRoot p then
        match env.pointer with
        | none => some p
        | some q => if env.stagePointInOverlayRoot q then some q else some p
      else some p

/-- `_localFromEvent`. -/
def localFromEvent : K × K :=
  match s.penCapStageXY <|> s.stageCoordsFromEvent env event with
  | none => (0, 0)
  | some p => (p.1 - env.drawArea.1, p.2 - env.drawArea.2)

/-- `_penDeferredInkAwaitingMotion`. -/
def penDeferredInkAwaitingMotion : Bool := s.penAwaitInkAfterRange && s.penDeferredAnchorStageXY.isSome

/-- Armed less than 900 ms ago. -/
def fresh : Bool := s.penProximityArmed && 0 < s.penProximityArmedAt && env.dateNow - s.penProximityArmedAt < 900

section Dock

variable [FloorRing K]

/-- `_penEventLikelyOverDockPalette`. -/
def penEventLikelyOverDockPalette : Bool :=
  (s.stageCoordsFromEvent env event).any (fun p => env.penStagePointDockHit p 28) ||
    env.pointer.any fun p => env.penStagePointDockHit p 28

/-- `_penMotionShouldImplicitPress`. -/
def penMotionShouldImplicitPress : Bool :=
  match event.eventType with
  | none => false
  | some t =>
    if t = .proximityIn && event.eventIsPenDrawDevice then
      if (s.stageCoordsFromEvent env event).any env.stagePointInDockPalette then false
      else if event.eventHasPressure then implicitPressureStart < event.getPressure01
      else event.eventHasStylusDeviceTool
    else if !event.motionish then false
    else if event.eventHasPressure then implicitPressureStart < event.getPressure01
    else
      let tabletLike := clutterDeviceTypeIsPenHardware event.deviceType
      (tabletLike && (s.fresh env || event.eventHasStylusDeviceTool)) ||
        (s.fresh env && event.deviceType = some .pointer)

/-- `_penCaptureAcceptsEvent`. -/
def penCaptureAcceptsEvent : Bool :=
  let handToDock := !s.penDown && !s.penDeferredInkAwaitingMotion && s.penEventLikelyOverDockPalette env event
  if handToDock then false
  else if event.eventIsPenDrawDevice then true
  else if event.motionish && s.fresh env then !handToDock
  else if !s.penDown then false
  else match event.eventType with
    | none | some .keyPress | some .keyRelease => false
    | some _ => true

end Dock

/-! ### Updates -/

/-- A button of the dock that a tap of the pen reaches. -/
inductive DockAction (K : Type) where
  | swatch (rgb : List K)
  | clear

/-- The `clicked` handlers of the swatches and of Clear all. -/
def clicked : DockAction K → OverlaySession K
  | .swatch rgb => { s with model := { s.model with penRGBA := rgb ++ [1] } }
  | .clear => s.call .clearAll

/-- The `clicked` handler of Undo. -/
def undoClicked : OverlaySession K := s.call .undoOne

/-- The part of `_dispatchPenCapture` before the handler. -/
def dispatchedAt (p : K × K) : OverlaySession K := { s with penCapStageXY := some p }

/-- The part of `_dispatchPenCapture` after the handler. -/
def dispatchDone : OverlaySession K := { s with penCapStageXY := none }

/-- `_refreshPenStrokeLastGoodStageXY`. -/
def refreshPenStrokeLastGoodStageXY : OverlaySession K :=
  match s.penCapStageXY with
  | none => s
  | some p => if env.stagePointInOverlayRoot p then { s with lastGoodCapStageXY := some p } else s

/-- `_commitPenStrokeFromCapture`. -/
def commitPenStrokeFromCapture : OverlaySession K :=
  if !s.penDown then s
  else
    let s := { s with lastGoodCapStageXY := none, penDown := false }
    if s.model.eraserPath.isSome then s.call .finishErase else s.call .commitCurrent

/-- The deferred discrete press of `_onPress`: no ink until a motion. -/
def deferPress : OverlaySession K :=
  { s with
    penDeferredAnchorStageXY :=
      s.penCapStageXY <|> s.stageCoordsFromEvent env event <|> s.penDeferredAnchorStageXY }

/-- The press of `_onPress` that starts ink. -/
def beginInk (mode : StylusMode) : OverlaySession K :=
  let xy := s.localFromEvent env event
  let winSeq := env.windowSeqFromLocal xy
  let s := if mode = .erase then (s.call .commitCurrent).call (.beginErase xy.1 xy.2 winSeq)
    else (s.call .finishErase).call (.beginStroke xy.1 xy.2 event.getPressure01 winSeq)
  { s with
    penDown := true
    penAwaitInkAfterRange := false
    penDeferredAnchorStageXY := none }

/-- The release of a swallowed press in `_onRelease`. -/
def releaseAnchor : OverlaySession K :=
  if !s.penDown && event.eventIsPenDrawDevice && event.releaseLike then { s with penDeferredAnchorStageXY := none }
  else s

/-- The ink of `_onMotion` while the pen is down. -/
def appendInk : OverlaySession K :=
  let xy := s.localFromEvent env event
  let s := if s.model.eraserPath.isSome then s.call (.appendErase xy.1 xy.2)
    else s.call (.appendPoint xy.1 xy.2 event.getPressure01)
  s.refreshPenStrokeLastGoodStageXY env

/-! ### The handlers of the canvas -/

section Handlers

variable [FloorRing K]

/-- The stage points that `_forwardPenDockIfSwatchHit` tries. -/
def forwardPoints : List (K × K) :=
  let penDev := event.eventIsPenDrawDevice
  (if penDev then env.pointer.toList else []) ++ s.penCapStageXY.toList ++
    (s.stageCoordsFromEvent env event).toList ++ (if penDev then [] else env.pointer.toList)

/-- The button at a stage point, with a tight pad. -/
def buttonAt (p : K × K) : Option (DockAction K) :=
  if !env.stagePointInOverlayRoot p then none
  else match (env.swatchButtons.zip penColors).find? fun b => stagePointHitsActor b.1 p 6 with
    | some b => some (.swatch b.2)
    | none => if stagePointHitsActor env.clearBtn p 6 then some .clear else none

/-- `_forwardPenDockIfSwatchHit`: the session after the button's handler, or nothing when no button is hit. -/
def forwardPenDockIfSwatchHit : Option (OverlaySession K) :=
  if s.penDown || !env.dock.visible then none
  else if event.motionish then none
  else ((s.forwardPoints env event).findSome? (buttonAt env)).map s.clicked

/-- The rest of `_onMotion` once the pen is down. -/
def onStrokeMotion : EventReturn × OverlaySession K :=
  -- outside the capture only a motion counts
  if !event.eventIsPenDrawDevice && s.penCapStageXY.isNone && !event.motionish then (.propagate, s)
  else if s.penEventLikelyOverDockPalette env event then (.stop, s.commitPenStrokeFromCapture)
  else (.stop, s.appendInk env event)

/-- `_onPress`. A repeated press of a pen that is down is a motion. -/
def onPress : EventReturn × OverlaySession K :=
  if !s.visible then (.propagate, s)
  else match if event.eventIsPenDrawDevice && !s.penDown then s.forwardPenDockIfSwatchHit env event else none with
    | some s' => (.stop, s')
    | none =>
      if s.penEventLikelyOverDockPalette env event then (.propagate, s.commitPenStrokeFromCapture)
      else if s.penDown then s.onStrokeMotion env event
      else if event.stylusModeOnPress = .none then (.propagate, s)
      else if s.penAwaitInkAfterRange && event.isDiscretePress then (.stop, s.deferPress env event)
      else (.stop, s.beginInk env event event.stylusModeOnPress)

/-- `_onMotion`. -/
def onMotion : EventReturn × OverlaySession K :=
  if !s.visible then (.propagate, s)
  else if s.penDown then s.onStrokeMotion env event
  else if !event.eventIsPenDrawDevice && !s.penProximityArmed then (.propagate, s)
  else if s.penAwaitInkAfterRange && event.eventIsPenDrawDevice && !s.penDeferredInkAwaitingMotion &&
      s.penEventLikelyOverDockPalette env event then (.stop, s)
  else match
      if s.penAwaitInkAfterRange && event.eventIsPenDrawDevice && event.motionish then s.penDeferredAnchorStageXY
      else none with
    | some anchor =>
      -- the drag from a swallowed press
      match s.penCapStageXY <|> s.stageCoordsFromEvent env event with
      | none => (.stop, s)
      | some m =>
        if penInkDragUnlock2 ≤ distSqFrom m anchor then
          onPress env { s with penAwaitInkAfterRange := false, penDeferredAnchorStageXY := none } event
        else (.stop, s)
    | none =>
      if s.penMotionShouldImplicitPress env event then
        if s.penAwaitInkAfterRange then (.stop, s) else s.onPress env event
      else (.propagate, s)

/-- `_onRelease`. -/
def onRelease : EventReturn × OverlaySession K :=
  let pen := event.eventIsPenDrawDevice
  let proximityOut : Bool := event.eventType = some .proximityOut
  if !s.visible then (.propagate, s)
  else if !s.penDown && pen && proximityOut then (.propagate, s)
  else
    let s := s.releaseAnchor event
    if !pen && !(s.penDown && (event.releaseLike || proximityOut)) then (.propagate, s)
    else (.stop, s.commitPenStrokeFromCapture)

end Handlers

end OverlaySession

end Annotations.Overlay
