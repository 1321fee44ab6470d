import Annotations.Tracing.Coverage

/-! A pen over canvases. A drawing keeps for every canvas what was painted on it, the
strokes a replay paints, and the frame it paints them in; the pen holds the stroke in
flight by its address. The moves are what a pen, and a keeper that repaints, shortens
and removes canvases behind its back, can do. What an operation may do of it is its
`Permit`. -/

namespace Annotations

variable {K : Type} [Scalar K]

/-- `tip` is the last position of the pen, in the coordinates of the canvas it is on. -/
@[ext] structure Drawing (K : Type) where
  rgba : Rgba K
  down : Bool
  anchor : Canvas
  current : Option ℕ
  follow : Bool
  tip : InkPoint K
  clock : ℕ
  next : ℕ
  strokes : Canvas → Option (List (Stroke K))
  surface : Canvas → Option (Surface K)
  frame : Canvas → Option (Frame K)

namespace Drawing

variable (d : Drawing K)

/-- Where the position of the pen is stored at a press. -/
def pressed (tip : InkPoint K) : InkPoint K :=
  if d.follow then (d.frame d.anchor).elim tip fun f => f.pressed tip else tip

/-- Where it is stored while the stroke is under way. -/
def stored (tip : InkPoint K) : InkPoint K :=
  if d.follow then (d.frame d.anchor).elim tip fun f => f.stored tip else tip

def Stores (tip q : InkPoint K) : Prop := q = d.pressed tip ∨ q = d.stored tip

/-- A new stroke through the points. -/
def sketch (points : List (InkPoint K)) : Stroke K :=
  points.foldl strokeAppendPoint { strokeNew d.next d.rgba with followScroll := d.follow }

/-- Put a new stroke after the others of the anchor canvas. -/
def openWith (points : List (InkPoint K)) (strokes : List (Stroke K)) : Drawing K :=
  { d with
    strokes := Function.update d.strokes d.anchor (some (strokes ++ [d.sketch points]))
    current := some d.next
    next := d.next + 1 }

/-- The segment that is painted when the pen moves to `tip`. -/
def segment (tip : InkPoint K) : PaintOp K := drawInkSegment cairoCreate d.rgba d.tip tip

/-- Move the pen to `tip` and paint the segment. -/
def paint (surface : Surface K) (tip : InkPoint K) : Drawing K :=
  { d with
    surface := Function.update d.surface d.anchor
      (some { surface with ops := surface.ops ++ [d.segment tip] })
    tip := tip }

def lift (follow : Bool) : Drawing K :=
  { d with down := false, current := none, follow := follow, anchor := none }

/-- Lift the pen from one of the canvases in `C`. -/
def liftFrom (C : Canvas → Bool) : Drawing K := if C d.anchor then d.lift d.follow else d

def setPage (c : Canvas) (strokes : Option (List (Stroke K))) (surface : Option (Surface K))
    (frame : Option (Frame K)) : Drawing K :=
  { d with
    strokes := Function.update d.strokes c strokes
    surface := Function.update d.surface c surface
    frame := Function.update d.frame c frame }

omit [Scalar K] in
theorem setPage_strokes {c : Canvas} {strokes : Option (List (Stroke K))} :
    d.setPage c strokes (d.surface c) (d.frame c) =
      { d with strokes := Function.update d.strokes c strokes } := by
  simp [setPage]

omit [Scalar K] in
theorem setPage_surface {c : Canvas} {surface : Option (Surface K)} :
    d.setPage c (d.strokes c) surface (d.frame c) =
      { d with surface := Function.update d.surface c surface } := by
  simp [setPage]

/-! Lifting changes nothing but the pen. -/

omit [Scalar K] in
@[simp] theorem liftFrom_rgba (C : Canvas → Bool) : (d.liftFrom C).rgba = d.rgba := by
  unfold liftFrom
  split_ifs <;> rfl

omit [Scalar K] in
@[simp] theorem liftFrom_follow (C : Canvas → Bool) : (d.liftFrom C).follow = d.follow := by
  unfold liftFrom
  split_ifs <;> rfl

omit [Scalar K] in
@[simp] theorem liftFrom_clock (C : Canvas → Bool) : (d.liftFrom C).clock = d.clock := by
  unfold liftFrom
  split_ifs <;> rfl

omit [Scalar K] in
@[simp] theorem liftFrom_next (C : Canvas → Bool) : (d.liftFrom C).next = d.next := by
  unfold liftFrom
  split_ifs <;> rfl

omit [Scalar K] in
@[simp] theorem liftFrom_strokes (C : Canvas → Bool) : (d.liftFrom C).strokes = d.strokes := by
  unfold liftFrom
  split_ifs <;> rfl

omit [Scalar K] in
@[simp] theorem liftFrom_surface (C : Canvas → Bool) : (d.liftFrom C).surface = d.surface := by
  unfold liftFrom
  split_ifs <;> rfl

omit [Scalar K] in
@[simp] theorem liftFrom_frame (C : Canvas → Bool) : (d.liftFrom C).frame = d.frame := by
  unfold liftFrom
  split_ifs <;> rfl

omit [Scalar K] in
theorem liftFrom_setPage {C : Canvas → Bool} {c : Canvas} {strokes : Option (List (Stroke K))}
    {surface : Option (Surface K)} {frame : Option (Frame K)} :
    (d.setPage c strokes surface frame).liftFrom C = (d.liftFrom C).setPage c strokes surface frame := by
  unfold liftFrom
  rw [apply_ite fun e : Drawing K => e.setPage c strokes surface frame]
  rfl

/-- Clear the canvases in `C`. -/
def wipe (C : Canvas → Bool) : Drawing K :=
  { d with
    strokes := fun c => if C c then (d.strokes c).map fun _ => [] else d.strokes c
    surface := fun c => if C c then (d.surface c).map surfaceClear else d.surface c }

/-- What a replay paints of the stroke in flight while it is a single point. -/
def loneInk : Set (K × K) :=
  {p | ∃ before s q, d.current = some s.addr ∧ d.strokes d.anchor = some (before ++ [s]) ∧
    s.points = [q] ∧ p ∈ inkOf (printStroke (d.frame d.anchor) s)}

/-- The stroke in flight is a single point, and a replay would paint it where nothing is
painted. -/
def Stranded : Prop :=
  ∃ surface, d.surface d.anchor = some surface ∧
    ¬ surface.extent ∩ d.loneInk ⊆ inkOf surface.ops

/-- The segment to `tip` is part of a stroke that follows the scroll, and inks something
outside the editor region. -/
def Leaks (tip : InkPoint K) : Prop :=
  d.follow ∧ ∃ f surface, d.frame d.anchor = some f ∧ d.surface d.anchor = some surface ∧
    ¬ surface.extent ∩ (d.segment tip).inked ⊆ f.region ∪ inkOf surface.ops

/-- The segment to `tip` is part of a stroke that follows the scroll and ends at the point
`q`, and the replay takes one of its ends elsewhere. -/
def Blurs (q tip : InkPoint K) : Prop :=
  d.follow ∧ ∃ f, d.frame d.anchor = some f ∧ ¬ (f.Shows q d.tip ∧ f.Shows (f.stored tip) tip)

end Drawing

/-- What an operation may do to a drawing: where it may press and move the pen, and
whether it may ink, repaint canvases, change frames or the colour, leave a single point
stranded, ink outside the region, store ink where it is not taken back from, or ink a
stroke in another colour than its own. -/
structure Permit (K : Type) where
  press : Canvas → Bool → InkPoint K → Prop
  trace : Canvas → InkPoint K → Prop
  ink : Prop
  repaint : Prop
  reframe : Prop
  recolour : Prop
  strand : Prop
  leak : Prop
  blur : Prop
  tint : Prop

/-- One move. -/
inductive Move (L : Permit K) : Drawing K → Drawing K → Prop
  | press {d : Drawing K} (c : Canvas) (follow : Bool) (tip : InkPoint K)
    (hpress : L.press c follow tip) (hstamp : tip.stamp = d.clock) (hc : (d.strokes c).isSome)
    (hfollow : follow → ∃ f, d.frame c = some f ∧ f.hasRegion) (hstrand : d.Stranded → L.strand) :
    Move L d { d with anchor := c, current := none, follow := follow, down := true, tip := tip }
  | dot {d : Drawing K} (strokes : List (Stroke K)) (hpress : L.press d.anchor d.follow d.tip)
    (hstamp : d.tip.stamp = d.clock) (hdown : d.down) (hcur : d.current = none)
    (hstrokes : d.strokes d.anchor = some strokes) :
    Move L d (d.openWith [d.pressed d.tip] strokes)
  | resume {d : Drawing K} (strokes : List (Stroke K)) (surface : Surface K) (tip : InkPoint K)
    (hink : L.ink) (htrace : L.trace d.anchor tip) (hstamp : tip.stamp = d.clock) (hdown : d.down)
    (hcur : d.current = none) (hstrokes : d.strokes d.anchor = some strokes)
    (hsurface : d.surface d.anchor = some surface) (hleak : d.Leaks tip → L.leak)
    (hblur : d.Blurs (d.stored d.tip) tip → L.blur) :
    Move L d ((d.paint surface tip).openWith [d.stored d.tip, d.stored tip] strokes)
  | extend {d : Drawing K} (before : List (Stroke K)) (s : Stroke K) (surface : Surface K)
    (tip : InkPoint K) (hink : L.ink) (htrace : L.trace d.anchor tip) (hstamp : tip.stamp = d.clock)
    (hdown : d.down) (hcur : d.current = some s.addr)
    (hstrokes : d.strokes d.anchor = some (before ++ [s]))
    (hsurface : d.surface d.anchor = some surface) (hleak : d.Leaks tip → L.leak)
    (hblur : ∀ q, s.points.getLast? = some q → d.Blurs q tip → L.blur)
    (htint : s.rgba ≠ d.rgba → L.tint) :
    Move L d { d.paint surface tip with
      strokes := Function.update d.strokes d.anchor
        (some (before ++ [strokeAppendPoint s (d.stored tip)])) }
  | hover {d : Drawing K} (tip : InkPoint K) (htrace : L.trace d.anchor tip)
    (hstamp : tip.stamp = d.clock) (hdown : d.down) (hcur : d.current = none) :
    Move L d { d with tip := tip }
  | lift {d : Drawing K} (follow : Bool) (hstrand : d.Stranded → L.strand) : Move L d (d.lift follow)
  | drop {d : Drawing K} (hstrand : d.Stranded → L.strand) : Move L d { d with current := none }
  | recolour {d : Drawing K} (rgba : Rgba K) (h : L.recolour) : Move L d { d with rgba := rgba }
  | attach {d : Drawing K} (win : WindowId) (width height : ℤ) (habsent : d.strokes (some win) = none) :
    Move L d (d.setPage (some win) (some []) (some (cairoSurfaceNewCleared width height)) (some .blank))
  | detach {d : Drawing K} (win : WindowId) :
    Move L d ((d.setPage (some win) none none none).liftFrom (· = some win))
  | wipe {d : Drawing K} (C : Canvas → Bool) : Move L d ((d.wipe C).liftFrom C)
  | repaint {d : Drawing K} (c : Canvas) (strokes strokes' : List (Stroke K))
    (surface : Option (Surface K)) (frame : Option (Frame K)) (h : L.repaint)
    (hstrokes : d.strokes c = some strokes) (hsub : strokes'.Sublist strokes)
    (hcur : c = d.anchor → d.current = none ∨ strokes' = strokes)
    (hsurface : ∀ target, surface = some target → target.ops = printed frame strokes')
    (hkeep : surface = none → d.surface c = none)
    (hreframe : frame ≠ d.frame c → L.reframe ∧ (d.frame c).isSome ∧ frame.isSome ∧
      (c = d.anchor → d.down → d.follow = false)) :
    Move L d (d.setPage c (some strokes') surface frame)
  | reframe {d : Drawing K} (c : Canvas) (f f' : Frame K) (h : L.reframe) (hframe : d.frame c = some f)
    (hno : f.hasRegion = false) (hno' : f'.hasRegion = false) :
    Move L d { d with frame := Function.update d.frame c (some f') }

/-- A sequence of moves. -/
def Traces (L : Permit K) : Drawing K → Drawing K → Prop := Relation.ReflTransGen (Move L)

variable {L : Permit K} {d e f : Drawing K}

theorem Traces.refl : Traces L d d := Relation.ReflTransGen.refl

theorem Traces.trans (h : Traces L d e) (h' : Traces L e f) : Traces L d f :=
  Relation.ReflTransGen.trans h h'

theorem Move.traces (h : Move L d e) : Traces L d e := .single h

/-- The invariant rule for sequences of moves. -/
theorem Traces.invariant {P : Drawing K → Prop} (hmove : ∀ d e, Move L d e → P d → P e)
    (h : Traces L d e) (hd : P d) : P e := by
  induction h with
  | refl => exact hd
  | tail _ hstep ih => exact hmove _ _ hstep ih

end Annotations
