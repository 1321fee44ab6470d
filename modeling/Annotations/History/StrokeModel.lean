import Annotations.Clutter.Event
import Annotations.Runs.Basic

/-! The stroke model of the extension: committed strokes, the stroke or the eraser path in
progress, and the snapshots that undo goes back to. Coordinates are exact. -/

namespace Annotations.History

open Runs

variable {K : Type} [Scalar K]

structure Pt (K : Type) where
  x : K
  y : K
  p : K
  deriving DecidableEq

/-- A stroke. Every reader takes a missing `windowSeq` for `-1`, and so does this. -/
structure Stroke (K : Type) where
  rgba : List K
  pts : List (Pt K)
  windowSeq : ℤ
  deriving DecidableEq

/-! ### The hit test of the eraser -/

def eraseRadius : K := 10

def eraseRadiusSq : K := eraseRadius * eraseRadius

def pointSegmentDistSq (px py aX aY bX bY : K) : K :=
  let abx := bX - aX
  let aby := bY - aY
  let apx := px - aX
  let apy := py - aY
  let abLenSq := abx * abx + aby * aby
  if abLenSq < 1e-18 then
    let dx := px - aX
    let dy := py - aY
    dx * dx + dy * dy
  else
    let t := (apx * abx + apy * aby) / abLenSq
    let t := if t < 0 then 0 else if 1 < t then 1 else t
    let cx := aX + t * abx
    let cy := aY + t * aby
    let dx := px - cx
    let dy := py - cy
    dx * dx + dy * dy

/-- The distance to a polyline; `⊤` is `Number.POSITIVE_INFINITY`. -/
def pointToPolylineDistSq (px py : K) : List (Pt K) → WithTop K
  | [] => ⊤
  | [q] =>
    let dx := px - q.x
    let dy := py - q.y
    ((dx * dx + dy * dy : K) : WithTop K)
  | pts => (pts.zip pts.tail).foldl
    (fun best seg =>
      let d : WithTop K := ((pointSegmentDistSq px py seg.1.x seg.1.y seg.2.x seg.2.y : K) : WithTop K)
      if d < best then d else best) ⊤

def strokeHitByEraser (stroke : Stroke K) (eraserPts : List (Pt K)) : Bool :=
  if stroke.pts.isEmpty || eraserPts.isEmpty then false
  else
    stroke.pts.any (fun s => pointToPolylineDistSq s.x s.y eraserPts ≤ ((eraseRadiusSq : K) : WithTop K)) ||
      eraserPts.any fun e => pointToPolylineDistSq e.x e.y stroke.pts ≤ ((eraseRadiusSq : K) : WithTop K)

/-! ### The model -/

structure StrokeModel (K : Type) where
  strokes : List (Stroke K)
  current : Option (Stroke K)
  eraserPath : Option (List (Pt K))
  eraserWindowSeq : ℤ
  penRGBA : List K
  undoStack : List (List (Stroke K))

namespace StrokeModel

/-- `_undoCap`. -/
def undoCap : ℕ := 48

/-- The constructor. -/
def empty : StrokeModel K where
  strokes := []
  current := none
  eraserPath := none
  eraserWindowSeq := -1
  penRGBA := [0.1, 0.1, 0.1, 1]
  undoStack := []

variable (m : StrokeModel K)

/-- `_cloneStrokes`. -/
def cloneStrokes : List (Stroke K) :=
  m.strokes.map fun s => ⟨s.rgba, s.pts.map fun q => ⟨q.x, q.y, q.p⟩, s.windowSeq⟩

/-- `_pushUndoState`: the oldest snapshots go when there are too many. -/
def pushUndoState : StrokeModel K :=
  let undoStack := m.undoStack ++ [m.cloneStrokes]
  { m with undoStack := undoStack.drop (undoStack.length - undoCap) }

/-- `undoOne`. -/
def undoOne : StrokeModel K :=
  match m.undoStack.getLast? with
  | none => m
  | some strokes =>
    { m with
      strokes := strokes
      undoStack := m.undoStack.dropLast
      current := none
      eraserPath := none
      eraserWindowSeq := -1 }

def clearAll : StrokeModel K :=
  { m.pushUndoState with
    strokes := []
    current := none
    eraserPath := none
    eraserWindowSeq := -1 }

def commitCurrent : StrokeModel K :=
  match m.current with
  | none => { m with current := none }
  | some stroke =>
    let m := if stroke.pts.isEmpty then m else { m.pushUndoState with strokes := m.strokes ++ [stroke] }
    { m with current := none }

def beginStroke (x y p : K) (windowSeq : ℤ) : StrokeModel K :=
  let m := m.commitCurrent
  { m with
    eraserPath := none
    eraserWindowSeq := -1
    current := some ⟨m.penRGBA, [⟨x, y, p⟩], windowSeq⟩ }

def beginErase (x y : K) (windowSeq : ℤ) : StrokeModel K :=
  { m.commitCurrent with
    current := none
    eraserWindowSeq := windowSeq
    eraserPath := some [⟨x, y, 0⟩] }

/-- The filter of `_applyEraser`: a stroke of another window stays. -/
def erases (seq : ℤ) (path : List (Pt K)) (s : Stroke K) : Bool :=
  if 0 ≤ seq ∧ s.windowSeq ≠ seq then false else strokeHitByEraser s path

/-- `_applyEraser`. -/
def applyEraser : StrokeModel K :=
  match m.eraserPath with
  | none | some [] => m
  | some path => { m with strokes := m.strokes.filter fun s => !erases m.eraserWindowSeq path s }

def appendErase (x y : K) : StrokeModel K :=
  { m with eraserPath := some (m.eraserPath.getD [] ++ [(⟨x, y, 0⟩ : Pt K)]) }.applyEraser

def appendPoint (x y p : K) : StrokeModel K :=
  { m with current := m.current.map fun s => { s with pts := s.pts ++ [⟨x, y, p⟩] } }

def finishErase : StrokeModel K :=
  let m := match m.eraserPath with
    | none | some [] => m
    | some _ => m.pushUndoState.applyEraser
  { m with
    eraserPath := none
    eraserWindowSeq := -1 }

/-- The points of some geometry, moved. -/
def translatePts (dx dy : K) (pts : List (Pt K)) : List (Pt K) := pts.map fun q => { q with x := q.x + dx, y := q.y + dy }

def translateStroke (dx dy : K) (s : Stroke K) : Stroke K := { s with pts := translatePts dx dy s.pts }

/-- `translateAll`. -/
def translateAll (dx dy : K) : StrokeModel K :=
  { m with
    strokes := m.strokes.map (translateStroke dx dy)
    current := m.current.map (translateStroke dx dy)
    eraserPath := m.eraserPath.map (translatePts dx dy) }

/-- A call of one of the methods. -/
inductive Call (K : Type) where
  | beginStroke (x y p : K) (windowSeq : ℤ)
  | appendPoint (x y p : K)
  | commitCurrent
  | beginErase (x y : K) (windowSeq : ℤ)
  | appendErase (x y : K)
  | finishErase
  | clearAll
  | undoOne
  | translateAll (dx dy : K)

def call : Call K → StrokeModel K
  | .beginStroke x y p windowSeq => m.beginStroke x y p windowSeq
  | .appendPoint x y p => m.appendPoint x y p
  | .commitCurrent => m.commitCurrent
  | .beginErase x y windowSeq => m.beginErase x y windowSeq
  | .appendErase x y => m.appendErase x y
  | .finishErase => m.finishErase
  | .clearAll => m.clearAll
  | .undoOne => m.undoOne
  | .translateAll dx dy => m.translateAll dx dy

/-- A completed operation on the model. -/
inductive Gesture (K : Type) where
  | stroke (x y p : K) (windowSeq : ℤ) (points : List (K × K × K))
  | erase (x y : K) (windowSeq : ℤ) (points : List (K × K))
  | clearAll

/-- The calls that make up an operation. -/
def Gesture.calls : Gesture K → List (Call K)
  | .stroke x y p windowSeq points =>
    .beginStroke x y p windowSeq :: points.map (fun q => .appendPoint q.1 q.2.1 q.2.2) ++ [.commitCurrent]
  | .erase x y windowSeq points =>
    .beginErase x y windowSeq :: points.map (fun q => .appendErase q.1 q.2) ++ [.finishErase]
  | .clearAll => [.clearAll]

def perform (g : Gesture K) : StrokeModel K := run call m g.calls

/-- No stroke and no eraser path is in progress. -/
structure Idle : Prop where
  current : m.current = none
  eraserPath : m.eraserPath = none

omit [Scalar K] in
@[simp] theorem cloneStrokes_eq : m.cloneStrokes = m.strokes := by
  simp [cloneStrokes]

end StrokeModel

end Annotations.History
