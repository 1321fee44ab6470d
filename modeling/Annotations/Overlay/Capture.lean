import Annotations.Overlay.Session

/-! The capture of the overlay session: every event of the stage passes it while the overlay is
shown, and it repairs the event's position and hands the event to a handler of the canvas. -/

namespace Annotations.Overlay.OverlaySession

open History

variable {K : Type} [Scalar K] (env : Desktop K) (s : OverlaySession K) (event : Event K)

/-! ### The repair of the position -/

/-- A position outside the root gives way to the core pointer's when that is inside. -/
def pointerRepaired (p : K × K) : K × K :=
  if env.stagePointInOverlayRoot p then p
  else match env.pointer with
    | none => p
    | some q => if env.stagePointInOverlayRoot q then q else p

/-- `penTabletCoercedMotion`: the origin stands for a missing position while a stroke goes on. -/
def penTabletCoercedMotion (p : K × K) : Bool :=
  s.penDown && p.1 = 0 && p.2 = 0 && s.lastGoodCapStageXY.isSome && !event.isLikelyKeyOrScrollEvent

/-- `strokeStream`. -/
def strokeStream (p : K × K) : Bool :=
  s.penDown && (s.penTabletCoercedMotion event p || event.eventType = none || event.motionish)

/-- The position inside the root if it can be repaired; `p` is the event's own. -/
def rootRepaired (p : K × K) : K × K :=
  let p1 := if s.penTabletCoercedMotion event p then s.lastGoodCapStageXY.getD p else pointerRepaired env p
  if env.stagePointInOverlayRoot p1 || !s.strokeStream event p then p1
  else
    let c := env.clampStageXYToRootBounds p1
    if env.stagePointInOverlayRoot c then c else s.lastGoodCapStageXY.getD c

/-- The last good position, clamped to the root if it is outside now. -/
def lastGoodRepaired (l : K × K) : K × K :=
  if env.stagePointInOverlayRoot l then l else env.clampStageXYToRootBounds l

section Capture

variable [FloorRing K]

/-- Tablet coordinates that disagree with the core pointer give way to the last good ones. -/
def dockRepaired (p p1 : K × K) : K × K :=
  if s.penDown && event.eventIsPenDrawDevice && env.tabletDockRawDisagreesWithPointer p then
    match s.lastGoodCapStageXY with
    | none => p1
    | some l => lastGoodRepaired env l
  else p1

/-- So do the hover coordinates of event type 17 when they are far away. -/
def ghostRepaired (p1 : K × K) : K × K :=
  if s.penDown && event.eventIsPenDrawDevice && event.eventType.any (fun t => eventTypeNumber t = 17) then
    match s.lastGoodCapStageXY with
    | none => p1
    | some l => if 85 * 85 < distSqFrom p1 l then lastGoodRepaired env l else p1
  else p1

/-- The position that the capture goes by. -/
def repaired (p : K × K) : K × K :=
  s.ghostRepaired env event (s.dockRepaired env event p (s.rootRepaired env event p))

/-! ### The handler -/

/-- What the capture returns when it leaves an event alone. -/
def bail : EventReturn := if s.penDown then .stop else .propagate

/-- `_dispatchPenCapture`. -/
def dispatchPenCapture (p : K × K) (fn : OverlaySession K → EventReturn × OverlaySession K) :
    EventReturn × OverlaySession K :=
  let r := fn (s.dispatchedAt p)
  (r.1, r.2.dispatchDone)

/-- `_forwardPenDockIfSwatchHit` at a position. -/
def dispatchForward (p : K × K) : OverlaySession K :=
  (((s.dispatchedAt p).forwardPenDockIfSwatchHit env event).getD (s.dispatchedAt p)).dispatchDone

/-- The core pointer is on the dock while the stroke is not. -/
def pointerHandsOff (p1 : K × K) : Bool :=
  event.eventIsPenDrawDevice && env.stagePointInOverlayRoot p1 &&
    env.pointer.any fun q =>
      env.stagePointInOverlayRoot q && env.penStagePointDockHit q 4 && !env.penStagePointDockHit p1 4

/-- The type that a coerced event is taken for. -/
def coercedType (p : K × K) (t : ClutterEventType) : ClutterEventType :=
  if s.penTabletCoercedMotion event p && t ≠ .motion && t ≠ .touchUpdate && !isDiscretePressEventType t &&
      t ≠ .buttonRelease && t ≠ .touchEnd && t ≠ .touchCancel && t ≠ .proximityIn && t ≠ .proximityOut then
    .motion
  else t

/-- The hand-over of an event on the canvas, by its type. -/
def dispatchCanvas (p1 : K × K) (t : ClutterEventType) : EventReturn × OverlaySession K :=
  if isDiscretePressEventType t then s.dispatchPenCapture p1 fun s => s.onPress env event
  else if t = .motion || t = .touchUpdate then s.dispatchPenCapture p1 fun s => s.onMotion env event
  else if t = .buttonRelease || t = .touchEnd || t = .touchCancel then
    s.dispatchPenCapture p1 fun s => s.onRelease event
  else if t = .proximityOut then
    let s := if event.eventIsPenDrawDevice then
        { s with
          penAwaitInkAfterRange := true
          penDeferredAnchorStageXY := none }
      else s
    s.dispatchPenCapture p1 fun s => s.onRelease event
  else if t = .proximityIn then
    let s := { s with
      penProximityArmed := true
      penProximityArmedAt := env.dateNow }
    (.stop, if env.stagePointInOverlayRoot p1 && !s.penAwaitInkAfterRange then
        (s.dispatchPenCapture p1 fun s => s.onMotion env event).2
      else s)
  else if t = .enter then
    if event.eventIsPenDrawDevice then
      (.stop, { s with
        penProximityArmed := true
        penProximityArmedAt := env.dateNow })
    else (s.bail, s)
  -- a stroke may go on under an odd type
  else if s.penDown && env.stagePointInOverlayRoot p1 && !event.isLikelyKeyOrScrollEvent && t ≠ .leave then
    s.dispatchPenCapture p1 fun s => s.onMotion env event
  else (s.bail, s)

/-- Where the capture leaves the way to the hand-over by type. -/
inductive CaptureExit where
  | outside | mismatch | dock | pointer | canvas
  deriving DecidableEq

/-- The tests of the capture, in order, on an event whose own position is `p`: the position cannot
be brought inside the root, the core pointer is on the dock while the raw position misses it, the
position is on the dock, and a stroke's core pointer is on the dock. -/
def captureExit (p : K × K) : CaptureExit :=
  let pen := event.eventIsPenDrawDevice
  let p0 := s.rootRepaired env event p
  let p1 := s.repaired env event p
  let inR2 := env.stagePointInOverlayRoot p1
  if !env.stagePointInOverlayRoot p0 && !(event.eventType = some .proximityIn && pen) &&
      !(event.eventType = some .enter && pen) then .outside
  else if !s.penDown && inR2 && pen && env.penPointerOnDockWhileTabletStageMissesDock p then .mismatch
  else if inR2 && env.penStagePointDockHit p1 4 && !(s.penDown && env.tabletDockRawDisagreesWithPointer p) then .dock
  else if s.penDown && pointerHandsOff env event p1 then .pointer
  else .canvas

/-- The rest of the capture once the position is a number. -/
def captureAt (p : K × K) : EventReturn × OverlaySession K :=
  let p1 := s.repaired env event p
  match s.captureExit env event p with
  | .outside => (s.bail, s)
  | .mismatch =>
    -- a press is tried on the buttons under the pointer
    (.stop, if event.isDiscretePress then
        match env.pointer with
        | none => s
        | some q => s.dispatchForward env event q
      else s)
  | .dock => (.stop, if s.penDown then s.commitPenStrokeFromCapture else s.dispatchForward env event p1)
  | .pointer => (.stop, s.commitPenStrokeFromCapture)
  | .canvas => match event.eventType with
    | some t => s.dispatchCanvas env event p1 (s.coercedType event p t)
    -- the type cannot be read
    | none =>
      if s.penCaptureAcceptsEvent env event then s.dispatchCanvas env event p1 (s.coercedType event p .motion)
      else (s.bail, s)

/-- `_penCapHandled.add`. -/
def remember : OverlaySession K := { s with penCapHandled := event.id :: s.penCapHandled }

/-- `_onPenStageCaptured`. -/
def onPenStageCaptured : EventReturn × OverlaySession K :=
  if !s.visible then (.propagate, s)
  else if !s.penCaptureAcceptsEvent env event then (.propagate, s)
  else if event.id ∈ s.penCapHandled then (.stop, s)
  else
    let s := s.remember event
    match s.stageCoordsFromEvent env event with
    | none => (s.bail, s)
    | some p => s.captureAt env event p

end Capture

/-- `toggle`. -/
def toggle : OverlaySession K :=
  if s.visible then
    let s := { s with
      visible := false
      penDown := false
      lastGoodCapStageXY := none
      penProximityArmed := false
      penProximityArmedAt := 0
      penAwaitInkAfterRange := true
      penDeferredAnchorStageXY := none }
    (s.call .commitCurrent).call .finishErase
  else
    { s with
      visible := true
      penAwaitInkAfterRange := true
      penDeferredAnchorStageXY := none }

/-! ### Runs -/

/-- What can happen to a session: an event captured on the stage, one of the canvas's own signals,
a toggle, and a click on a button of the dock. -/
inductive Action (K : Type) where
  | captured (event : Event K)
  | press (event : Event K)
  | motion (event : Event K)
  | release (event : Event K)
  | toggle
  | clicked (button : DockAction K)
  | undoClicked

/-- One step of a session, with the readings during it. -/
structure Step (K : Type) where
  env : Desktop K
  action : Action K

/-- The handler's result, and what it returns to Clutter where that matters. -/
def handle {K : Type} [Scalar K] [FloorRing K] (s : OverlaySession K) (i : Step K) : EventReturn × OverlaySession K :=
  match i.action with
  | .captured event => s.onPenStageCaptured i.env event
  | .press event => s.onPress i.env event
  | .motion event => s.onMotion i.env event
  | .release event => s.onRelease event
  | .toggle => (.propagate, s.toggle)
  | .clicked button => (.propagate, s.clicked button)
  | .undoClicked => (.propagate, s.undoClicked)

def step {K : Type} [Scalar K] [FloorRing K] (s : OverlaySession K) (i : Step K) : OverlaySession K := (s.handle i).2

end Annotations.Overlay.OverlaySession
