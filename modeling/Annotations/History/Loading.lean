import Annotations.History.Painting
import Annotations.Js.Values

/-! The stroke model with strokes that come out of JSON. `deserialize` takes whatever the array holds,
and every method reads the strokes as they are, so that one may throw. The stroke and the
eraser path in progress are the model's own. -/

namespace Annotations.History

open Js

variable {N : Type}

structure LoadedModel (N : Type) where
  strokes : List (Value N)
  current : Option (Stroke N)
  eraserPath : Option (List (Pt N))
  eraserWindowSeq : ℤ
  penRGBA : List N
  undoStack : List (List (Value N))

variable (js : Engine N)

def Pt.value (q : Pt N) : Value N := .object [("x", .number q.x), ("y", .number q.y), ("p", .number q.p)]

def Stroke.value (s : Stroke N) : Value N :=
  .object [("rgba", .array (s.rgba.map .number) []), ("pts", .array (s.pts.map Pt.value) []),
    ("windowSeq", .number (js.literal s.windowSeq))]

namespace Loaded

/-- `s.windowSeq ?? -1`. -/
def windowSeq (s : Value N) : Except Exception (Value N) := do
  .ok ((← s.get "windowSeq").orElse (.number (js.literal (-1))))

/-! ### The hit test of the eraser -/

/-- `v - w`. -/
def minus (v w : Value N) : Except Exception N := do .ok (js.sub (← js.toNumber v) (← js.toNumber w))

def eraseRadiusSq : N := js.mul (js.literal 10) (js.literal 10)

def pointSegmentDistSq (px py aX aY bX bY : Value N) : Except Exception N := do
  let abx ← minus js bX aX
  let aby ← minus js bY aY
  let apx ← minus js px aX
  let apy ← minus js py aY
  let abLenSq := js.add (js.mul abx abx) (js.mul aby aby)
  if js.lt abLenSq (js.literal 1e-18) then
    let dx ← minus js px aX
    let dy ← minus js py aY
    .ok (js.add (js.mul dx dx) (js.mul dy dy))
  else
    let t := js.div (js.add (js.mul apx abx) (js.mul apy aby)) abLenSq
    let t := if js.lt t (js.literal 0) then js.literal 0 else if js.lt (js.literal 1) t then js.literal 1 else t
    let cx ← js.plus aX (js.mul t abx)
    let cy ← js.plus aY (js.mul t aby)
    let dx ← minus js px cx
    let dy ← minus js py cy
    .ok (js.add (js.mul dx dx) (js.mul dy dy))

def pointToPolylineDistSq (px py : Value N) : List (Value N) → Except Exception N
  | [] => .ok js.infinity
  | [q] => do
    let dx ← minus js px (← q.get "x")
    let dy ← minus js py (← q.get "y")
    .ok (js.add (js.mul dx dx) (js.mul dy dy))
  | pts => (pts.zip pts.tail).foldlM
    (fun best seg => do
      let d ← pointSegmentDistSq js px py (← seg.1.get "x") (← seg.1.get "y") (← seg.2.get "x") (← seg.2.get "y")
      .ok (if js.lt d best then d else best)) js.infinity

/-- A point is within the radius of the eraser of a polyline. -/
def near (pts : List (Value N)) (q : Value N) : Except Exception Bool := do
  let d ← pointToPolylineDistSq js (← q.get "x") (← q.get "y") pts
  .ok (js.le d (eraseRadiusSq js))

def strokeHitByEraser (stroke : Value N) (eraserPts : List (Pt N)) : Except Exception Bool := do
  let pts ← stroke.get "pts"
  if !pts.hasLength js || eraserPts.isEmpty then .ok false
  else
    if ← (← pts.iterate).anyM (near js (eraserPts.map Pt.value)) then .ok true
    else
      let vertices ← pts.elements js
      (eraserPts.map Pt.value).anyM (near js vertices)

/-! ### Drawing -/

def pressureToLineWidth (pressure : Value N) : Except Exception N := do
  let p ← js.toNumber pressure
  let minW := js.literal 0.9
  let maxW := js.literal 7
  let floorP := js.literal 0.08
  let p := if js.lt p floorP then floorP else p
  let p := if js.lt (js.literal 1) p then js.literal 1 else p
  .ok (js.add minW (js.mul (js.sub maxW minW) p))

/-- The line of a segment. Cairo takes its arguments as numbers. -/
def drawSegment (seg : Value N × Value N) : Except Exception (List (CairoOp N)) := do
  let w₁ ← pressureToLineWidth js (← seg.1.get "p")
  let w₂ ← pressureToLineWidth js (← seg.2.get "p")
  let w := js.mul (js.literal 0.5) (js.add w₁ w₂)
  let x₁ ← js.toNumber (← seg.1.get "x")
  let y₁ ← js.toNumber (← seg.1.get "y")
  let x₂ ← js.toNumber (← seg.2.get "x")
  let y₂ ← js.toNumber (← seg.2.get "y")
  .ok [.setLineWidth w, .moveTo x₁ y₁, .lineTo x₂ y₂, .stroke]

/-- `_drawStroke`. -/
def drawStroke (stroke : Value N) : Except Exception (List (CairoOp N)) := do
  let pts ← stroke.get "pts"
  if !pts.hasLength js then .ok []
  else
    let rgba ← (← stroke.get "rgba").iterate
    let rgba ← (List.range 4).mapM fun i => js.toNumber (rgba.getD i .undefined)
    if pts.lengthIsOne js then
      let q := (← pts.elements js).headD .undefined
      let rad := js.mul (js.literal 0.5) (← pressureToLineWidth js (← q.get "p"))
      let rad := if js.lt rad (js.literal 0.5) then js.literal 0.5 else rad
      .ok [.setSourceRGBA rgba, .arc (← js.toNumber (← q.get "x")) (← js.toNumber (← q.get "y")) rad, .fill]
    else
      let vertices ← pts.elements js
      let lines ← (vertices.zip vertices.tail).mapM (drawSegment js)
      .ok ([.setSourceRGBA rgba, .setLineCapRound, .setLineJoinRound] ++ lines.flatten)

end Loaded

namespace LoadedModel

/-- The constructor. -/
def empty : LoadedModel N where
  strokes := []
  current := none
  eraserPath := none
  eraserWindowSeq := -1
  penRGBA := [js.literal 0.1, js.literal 0.1, js.literal 0.1, js.literal 1]
  undoStack := []

variable (m : LoadedModel N)

/-- The element of `_cloneStrokes`. -/
def cloneStroke (s : Value N) : Except Exception (Value N) := do
  let rgba ← (← s.get "rgba").iterate
  let pts ← (← s.get "pts").map fun p => do
    .ok (.object [("x", ← p.get "x"), ("y", ← p.get "y"), ("p", ← p.get "p")])
  .ok (.object [("rgba", .array rgba []), ("pts", pts), ("windowSeq", ← Loaded.windowSeq js s)])

/-- `_pushUndoState`, with `_cloneStrokes`. -/
def pushUndoState : Except Exception (LoadedModel N) := do
  let undoStack := m.undoStack ++ [← m.strokes.mapM (cloneStroke js)]
  .ok { m with undoStack := undoStack.drop (undoStack.length - StrokeModel.undoCap) }

/-- `undoOne`. -/
def undoOne : LoadedModel N :=
  match m.undoStack.getLast? with
  | none => m
  | some strokes =>
    { m with
      strokes := strokes
      undoStack := m.undoStack.dropLast
      current := none
      eraserPath := none
      eraserWindowSeq := -1 }

def clearAll : Except Exception (LoadedModel N) := do
  .ok { ← m.pushUndoState js with
    strokes := []
    current := none
    eraserPath := none
    eraserWindowSeq := -1 }

def commitCurrent : Except Exception (LoadedModel N) :=
  match m.current with
  | none => .ok { m with current := none }
  | some stroke =>
    if stroke.pts.isEmpty then .ok { m with current := none }
    else do
      .ok { ← m.pushUndoState js with
        strokes := m.strokes ++ [stroke.value js]
        current := none }

def beginStroke (x y p : N) (windowSeq : ℤ) : Except Exception (LoadedModel N) := do
  let m ← m.commitCurrent js
  .ok { m with
    eraserPath := none
    eraserWindowSeq := -1
    current := some ⟨m.penRGBA, [⟨x, y, p⟩], windowSeq⟩ }

def beginErase (x y : N) (windowSeq : ℤ) : Except Exception (LoadedModel N) := do
  .ok { ← m.commitCurrent js with
    current := none
    eraserWindowSeq := windowSeq
    eraserPath := some [⟨x, y, js.literal 0⟩] }

/-- The filter of `_applyEraser`: a stroke of another window stays. -/
def keeps (path : List (Pt N)) (s : Value N) : Except Exception Bool := do
  if ← (if 0 ≤ m.eraserWindowSeq then do .ok !(← Loaded.windowSeq js s).isNumber js (js.literal m.eraserWindowSeq)
      else .ok false) then .ok true
  else .ok !(← Loaded.strokeHitByEraser js s path)

/-- `_applyEraser`. -/
def applyEraser : Except Exception (LoadedModel N) :=
  match m.eraserPath with
  | none | some [] => .ok m
  | some path => do .ok { m with strokes := ← m.strokes.filterM (m.keeps js path) }

def appendErase (x y : N) : Except Exception (LoadedModel N) :=
  { m with eraserPath := some (m.eraserPath.getD [] ++ [(⟨x, y, js.literal 0⟩ : Pt N)]) }.applyEraser js

def appendPoint (x y p : N) : LoadedModel N :=
  { m with current := m.current.map fun s => { s with pts := s.pts ++ [⟨x, y, p⟩] } }

def finishErase : Except Exception (LoadedModel N) :=
  match m.eraserPath with
  | none | some [] =>
    .ok { m with
      eraserPath := none
      eraserWindowSeq := -1 }
  | some _ => do
    .ok { ← (← m.pushUndoState js).applyEraser js with
      eraserPath := none
      eraserWindowSeq := -1 }

/-- `p.x += dx; p.y += dy` -/
def translatePoint (dx dy : N) (p : Value N) : Except Exception (Value N) := do
  let p ← p.set "x" (← js.plus (← p.get "x") dx)
  p.set "y" (← js.plus (← p.get "y") dy)

def translateStroke (dx dy : N) (s : Value N) : Except Exception (Value N) := do
  s.set "pts" (← (← s.get "pts").forOf (translatePoint js dx dy))

/-- The points of the model's own geometry, moved. -/
def translatePts (dx dy : N) (pts : List (Pt N)) : List (Pt N) :=
  pts.map fun q => { q with x := js.add q.x dx, y := js.add q.y dy }

/-- `translateAll`. -/
def translateAll (dx dy : N) : Except Exception (LoadedModel N) := do
  .ok { m with
    strokes := ← m.strokes.mapM (translateStroke js dx dy)
    current := m.current.map fun s => { s with pts := translatePts js dx dy s.pts }
    eraserPath := m.eraserPath.map (translatePts js dx dy) }

/-! ### Painting -/

/-- `drawEraserPreview`. -/
def drawEraserPreview : List (CairoOp N) :=
  match m.eraserPath with
  | some (p :: q :: rest) =>
    [.save, .setSourceRGBA [js.literal 1, js.literal 0.2, js.literal 0.2, js.literal 0.35],
      .setLineWidth (js.literal 2), .setLineCapRound, .moveTo p.x p.y] ++
      (q :: rest).map (fun r => .lineTo r.x r.y) ++ [.stroke, .restore]
  | _ => []

/-- A loop over the strokes that draws those of the window. -/
def drawWindow (seq : ℤ) : Except Exception (List (CairoOp N)) := do
  let drawn ← m.strokes.mapM fun s => do
    if (← Loaded.windowSeq js s).isNumber js (js.literal seq) then Loaded.drawStroke js s else .ok []
  .ok drawn.flatten

def drawCurrent (draws : Stroke N → Bool) : Except Exception (List (CairoOp N)) :=
  match m.current with
  | some s => if draws s then Loaded.drawStroke js (s.value js) else .ok []
  | none => .ok []

/-- `paint`. -/
def paint (clipRects : Option (List (ClipRect N))) : Except Exception (List (CairoOp N)) := do
  let head := [.save, .setOperatorClear, .paint, .restore, .setOperatorOver]
  match clipRects with
  | none | some [] =>
    let drawn ← m.strokes.mapM (Loaded.drawStroke js)
    let current ← m.drawCurrent js fun _ => true
    .ok (head ++ drawn.flatten ++ current ++ m.drawEraserPreview js)
  | some rects =>
    let below ← m.drawWindow js (-1)
    let inside ← rects.mapM fun r => do
      let drawn ← m.drawWindow js r.seq
      let current ← m.drawCurrent js fun s => s.windowSeq = r.seq
      .ok ([.save, .rectangle r.box, .clip] ++ drawn ++ current ++ [.restore])
    let current ← m.drawCurrent js fun s => s.windowSeq = -1
    .ok (head ++ below ++ inside.flatten ++ current ++ m.drawEraserPreview js)

/-! ### JSON -/

/-- The object that `serialize` writes. -/
def json : Value N := .object [("strokes", .array m.strokes [])]

def serialize : String := js.stringify m.json

/-- What the `try` of `deserialize` assigns. -/
def readStrokes (json : String) : Except Exception (Option (List (Value N))) := do
  let o ← js.parse json
  match ← o.get "strokes" with
  | .array strokes _ => .ok (some strokes)
  | _ => .ok none

/-- `deserialize`: what is thrown is ignored. -/
def deserialize (json : String) : LoadedModel N :=
  match readStrokes js json with
  | .ok (some strokes) => { m with strokes := strokes }
  | _ => m

/-- A call of one of the methods. -/
inductive Call (N : Type) where
  | edit (call : StrokeModel.Call N)
  | deserialize (json : String)
  | paint (clipRects : Option (List (ClipRect N)))

def call : Call N → Except Exception (LoadedModel N)
  | .edit (.beginStroke x y p windowSeq) => m.beginStroke js x y p windowSeq
  | .edit (.appendPoint x y p) => .ok (m.appendPoint x y p)
  | .edit .commitCurrent => m.commitCurrent js
  | .edit (.beginErase x y windowSeq) => m.beginErase js x y windowSeq
  | .edit (.appendErase x y) => m.appendErase js x y
  | .edit .finishErase => m.finishErase js
  | .edit .clearAll => m.clearAll js
  | .edit .undoOne => .ok m.undoOne
  | .edit (.translateAll dx dy) => m.translateAll js dx dy
  | .deserialize json => .ok (m.deserialize js json)
  | .paint clipRects => do
    let _ ← m.paint js clipRects
    .ok m

/-- The model after some calls, the first that throws ends them. -/
def after (calls : List (Call N)) : Except Exception (LoadedModel N) := calls.foldlM (fun m c => m.call js c) (empty js)

end LoadedModel

end Annotations.History
