import Annotations.Clutter.Input

/-! The data of `meta-annotation-layer.c`: strokes and canvases, the window
records, the composite and the layer itself. Pointers to windows are window ids,
a NULL anchor is `none`, and a `Stroke *` is the address the stroke was allocated
at. The cogl texture and the signal handler ids are left out: nothing the layer
decides reads them, and a window has its handlers connected exactly while it has
a `WindowInk`. -/

namespace Annotations

/-- A `MetaWindow *`. -/
abbrev WindowId := ℕ

/-- A canvas: the ink of a window or, for a NULL anchor, the unattached ink of the desktop. -/
abbrev Canvas := Option WindowId

/-! ### Windows -/

structure MtkRectangle where
  x : ℤ
  y : ℤ
  width : ℤ
  height : ℤ
  deriving DecidableEq

inductive MetaWindowType where
  | normal | desktop | dock | dialog | modalDialog | toolbar | menu | utility | splashscreen
  | dropdownMenu | popupMenu | tooltip | notification | combo | dnd | overrideOther
  deriving DecidableEq

/-- What the layer reads of a `MetaWindow`. `layer` and `stackPosition` are the two
keys of the stacking order. -/
structure MetaWindow where
  frameRect : MtkRectangle
  overrideRedirect : Bool
  hidden : Bool
  minimized : Bool
  windowType : MetaWindowType
  onAllWorkspaces : Bool
  workspace : Option ℕ
  pid : ℕ
  layer : ℤ
  stackPosition : ℤ
  deriving DecidableEq

/-- The display: the windows of `meta_display_list_all_windows`, what each window id
points to, and the active workspace. -/
structure MetaDisplay where
  windows : List WindowId
  window : WindowId → MetaWindow
  activeWorkspace : Option ℕ

/-! ### Strokes -/

structure Rgba (K : Type) where
  r : K
  g : K
  b : K
  a : K
  deriving DecidableEq

/-- A point of a stroke. `stamp` is not in the source: it is the number of the layer
operation that handled the event whose position the point records. -/
@[ext] structure InkPoint (K : Type) where
  x : K
  y : K
  pressure : K
  tiltFactor : K
  stamp : ℕ
  deriving DecidableEq

structure StrokeBbox (K : Type) where
  minX : K
  minY : K
  maxX : K
  maxY : K
  deriving DecidableEq

/-- A stroke, with the address it was allocated at. The bounding box of a stroke
without points, `G_MAXFLOAT` down to `-G_MAXFLOAT` in the source, is `none`. -/
structure Stroke (K : Type) where
  addr : ℕ
  points : List (InkPoint K)
  rgba : Rgba K
  bbox : Option (StrokeBbox K)
  followScroll : Bool
  deriving DecidableEq

/-! ### Surfaces -/

/-- The clip and the translation of a `cairo_t`. -/
structure CairoContext (K : Type) where
  clip : Option (K × K × K × K)
  translateX : K
  translateY : K
  deriving DecidableEq

/-- One call of `draw_segment_on_cr`, in the context it was made in. -/
structure PaintOp (K : Type) where
  cr : CairoContext K
  rgba : Rgba K
  x1 : K
  y1 : K
  x2 : K
  y2 : K
  p1 : K
  p2 : K
  tilt1 : K
  tilt2 : K
  deriving DecidableEq

/-- A canvas surface: its size and what was painted on it since it was last cleared. -/
structure Surface (K : Type) where
  width : ℤ
  height : ℤ
  ops : List (PaintOp K)
  deriving DecidableEq

/-- A pixel of a canvas surface, in the coordinates of that surface. -/
structure CanvasPixel (K : Type) where
  surface : Surface K
  x : ℤ
  y : ℤ
  deriving DecidableEq

/-- What a pixel of the composite is blended from, the last painted first; `[]` is a
cleared pixel. -/
abbrev Pixel (K : Type) := List (CanvasPixel K)

/-- The stage-sized surface that mirrors into the actor. -/
structure Composite (K : Type) where
  width : ℤ
  height : ℤ
  pixel : ℤ → ℤ → Pixel K

/-! ### The layer -/

/-- The ink of one window. -/
structure WindowInk (K : Type) where
  surface : Surface K
  strokes : List (Stroke K)
  width : ℤ
  height : ℤ
  hasEditorRegion : Bool
  editorX : K
  editorY : K
  editorW : K
  editorH : K
  scrollX : K
  scrollY : K

structure TapRecord where
  timeUs : ℤ
  anchor : Canvas
  deriving DecidableEq

/-- A chrome region. Only rectangles of positive size are ever stored. -/
structure ChromeRegion where
  id : String
  rect : MtkRectangle
  width_pos : 0 < rect.width
  height_pos : 0 < rect.height
  deriving DecidableEq

/-- Bookkeeping of the specification, which the source does not have and no decision
of the model reads: how many operations the layer has executed, the number of the
one whose event `strokeLastX` and `strokeLastY` record, and the canvas that last
received an ink point. -/
structure Ledger where
  clock : ℕ
  strokeLastStamp : ℕ
  newestInk : Option Canvas
  deriving DecidableEq

/-- `struct _MetaAnnotationLayer`, with the process-wide `input` record that the
activation writes. A GLib source id is only tested for being non-zero. `nextStroke`
is the address the next `stroke_new` returns. -/
structure MetaAnnotationLayer (K : Type) where
  display : MetaDisplay
  input : AnnotationInput K
  actorShown : Bool
  surface : Option (Composite K)
  unattachedSurface : Option (Surface K)
  unattachedStrokes : List (Stroke K)
  stageWidth : ℤ
  stageHeight : ℤ
  perWindow : WindowId → Option (WindowInk K)
  active : Bool
  paused : Bool
  rgba : Rgba K
  strokeAnchor : Canvas
  strokeLastX : K
  strokeLastY : K
  strokeActive : Bool
  lastPressure : K
  lastTiltFactor : K
  currentStroke : Option ℕ
  strokeFollowScroll : Bool
  penBarrelButtons : BitVec 32
  lastInkAnchor : Canvas
  lastInkPresent : Bool
  pendingTap : Bool
  pendingTapPressUs : ℤ
  pendingTapPressStageX : K
  pendingTapPressStageY : K
  pendingTapAnchor : Canvas
  tapHistory : List TapRecord
  recomposeIdle : Bool
  recomposeDirty : Bool
  chromeRegions : List ChromeRegion
  chromePressId : Option String
  nextStroke : ℕ
  ledger : Ledger

namespace MetaAnnotationLayer

variable {K : Type} (layer : MetaAnnotationLayer K)

/-- The strokes of a canvas; `none` for a window without a `WindowInk`. -/
def canvasStrokes : Canvas → Option (List (Stroke K))
  | none => some layer.unattachedStrokes
  | some win => (layer.perWindow win).map (·.strokes)

def canvasSurface : Canvas → Option (Surface K)
  | none => layer.unattachedSurface
  | some win => (layer.perWindow win).map (·.surface)

/-- Write a window's record, where it has one. -/
def modifyInk (win : WindowId) (f : WindowInk K → WindowInk K) : MetaAnnotationLayer K :=
  { layer with perWindow := Function.update layer.perWindow win ((layer.perWindow win).map f) }

def setCanvasStrokes (c : Canvas) (strokes : List (Stroke K)) : MetaAnnotationLayer K :=
  match c with
  | none => { layer with unattachedStrokes := strokes }
  | some win => layer.modifyInk win fun ink => { ink with strokes := strokes }

/-- Write the surface of a canvas, where there is one. -/
def modifyCanvasSurface (c : Canvas) (f : Surface K → Surface K) : MetaAnnotationLayer K :=
  match c with
  | none => { layer with unattachedSurface := layer.unattachedSurface.map f }
  | some win => layer.modifyInk win fun ink => { ink with surface := f ink.surface }

def setStrokeAnchor (anchor : Canvas) : MetaAnnotationLayer K :=
  { layer with strokeAnchor := anchor }

def setLastInkAnchor (anchor : Canvas) (present : Bool) : MetaAnnotationLayer K :=
  { layer with lastInkAnchor := anchor, lastInkPresent := present }

end MetaAnnotationLayer

end Annotations
