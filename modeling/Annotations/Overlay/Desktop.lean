import Annotations.Overlay.Event

/-! What a handler of the overlay reads besides its event: where the root, the dock and its
buttons lie, the windows, the core pointer and the clock. -/

namespace Annotations.Overlay

variable {K : Type} [Scalar K]

/-- `Math.round`. -/
def mathRound [FloorRing K] (x : K) : K := (⌊x + 1 / 2⌋ : ℤ)

/-- Visibility, transformed position and size of an actor. -/
structure Actor (K : Type) where
  visible : Bool
  x : K
  y : K
  width : K
  height : K

structure MetaWindow (K : Type) where
  minimized : Bool
  stableSequence : ℤ
  x : K
  y : K
  width : K
  height : K

/-- An `ActorBox`. -/
structure Box (K : Type) where
  x1 : K
  y1 : K
  x2 : K
  y2 : K

/-- The readings during one handler. Only position and size are read off `root`: its
visibility belongs to the session. `pointer` is empty when `global.get_pointer` fails, and
`dockPreferred` holds the natural size of the dock. -/
structure Desktop (K : Type) where
  root : Actor K
  drawArea : K × K
  dock : Actor K
  dockAllocation : Box K
  dockPreferred : Option (K × K)
  swatchButtons : List (Actor K)
  clearBtn : Actor K
  windows : List (MetaWindow K)
  pointer : Option (K × K)
  dateNow : ℤ

/-- `PEN_COLORS`. -/
def penColors : List (List K) :=
  [[0.1, 0.1, 0.1], [1, 1, 1], [0.78, 0.16, 0.19], [0.15, 0.64, 0.41], [0.21, 0.52, 0.89],
    [0.48, 0.26, 0.65]]

/-- `_stagePointHitsActor`. -/
def stagePointHitsActor (actor : Actor K) (p : K × K) (pad : K) : Bool :=
  actor.visible && actor.x - pad ≤ p.1 && actor.y - pad ≤ p.2 &&
    p.1 < actor.x + max 1 actor.width + pad && p.2 < actor.y + max 1 actor.height + pad

def distSqFrom (p q : K × K) : K :=
  let dx := p.1 - q.1
  let dy := p.2 - q.2
  dx * dx + dy * dy

namespace Desktop

variable (env : Desktop K)

/-- `_rootLocalFromStageXY`. -/
def rootLocalFromStageXY (p : K × K) : K × K := (p.1 - env.root.x, p.2 - env.root.y)

/-- `_stagePointInOverlayRoot`. -/
def stagePointInOverlayRoot (p : K × K) : Bool :=
  let l := env.rootLocalFromStageXY p
  0 ≤ l.1 && 0 ≤ l.2 && l.1 < env.root.width && l.2 < env.root.height

/-- `_clampStageXYToRootBounds`. -/
def clampStageXYToRootBounds (p : K × K) : K × K :=
  let w := max 1 env.root.width
  let h := max 1 env.root.height
  (min (max p.1 env.root.x) (env.root.x + w - 1e-4), min (max p.2 env.root.y) (env.root.y + h - 1e-4))

section Dock

variable [FloorRing K]

/-- `_dockPaletteRootBox`: a sane allocation, or a box from the natural size. -/
def dockPaletteRootBox : Box K :=
  let b := env.dockAllocation
  let w := |mathRound (b.x2 - b.x1)|
  let h := |mathRound (b.y2 - b.y1)|
  if 32 ≤ w ∧ 32 ≤ h ∧ w ≤ 360 ∧ h ≤ 300 then
    ⟨mathRound b.x1, mathRound b.y1, mathRound b.x2, mathRound b.y2⟩
  else
    let natDock : K × K := match env.dockPreferred with
      | some size => (max 1 (mathRound size.1), max 1 (mathRound size.2))
      | none => (160, 120)
    ⟨14, 14, 14 + min (max natDock.1 48) 360, 14 + min (max natDock.2 48) 300⟩

/-- `_stagePointInDockPalette`. -/
def stagePointInDockPalette (p : K × K) : Bool :=
  let l := env.rootLocalFromStageXY p
  let bd := env.dockPaletteRootBox
  bd.x1 ≤ l.1 && bd.y1 ≤ l.2 && l.1 < bd.x2 && l.2 < bd.y2

/-- `_penStagePointDockHit`. -/
def penStagePointDockHit (p : K × K) (actorPad : K) : Bool :=
  env.stagePointInDockPalette p || stagePointHitsActor env.dock p actorPad

/-- `_tabletDockRawDisagreesWithPointer`. -/
def tabletDockRawDisagreesWithPointer (p : K × K) : Bool :=
  env.penStagePointDockHit p 4 &&
    match env.pointer with
    | none => false
    | some q =>
      env.stagePointInOverlayRoot q && !env.penStagePointDockHit q 4 &&
        tabletDockCoordSlack2 < distSqFrom p q

/-- `_penPointerOnDockWhileTabletStageMissesDock`. -/
def penPointerOnDockWhileTabletStageMissesDock (p : K × K) : Bool :=
  match env.pointer with
  | none => false
  | some q =>
    env.stagePointInOverlayRoot q && env.penStagePointDockHit q 28 && !env.penStagePointDockHit p 12 &&
      tabletDockCoordSlack2 < distSqFrom p q

end Dock

/-- `_windowSeqFromLocal`: the topmost window there that is not minimized. -/
def windowSeqFromLocal (l : K × K) : ℤ :=
  let sx := l.1 + env.drawArea.1
  let sy := l.2 + env.drawArea.2
  match env.windows.reverse.find? fun mw =>
      !mw.minimized && mw.x ≤ sx && sx < mw.x + mw.width && mw.y ≤ sy && sy < mw.y + mw.height with
  | some mw => mw.stableSequence
  | none => -1

end Desktop

end Annotations.Overlay
