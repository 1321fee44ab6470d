import Annotations.Layer.Stroking
import Annotations.Plane.Shapes

/-! What painting covers. `fill` is the area that one call of `draw_segment_on_cr`
fills in the coordinates it is given, and `inked` the part of the surface that the
transform and the clip leave of it. A replay is a list of such calls for every
stroke, and a stroke that follows the scroll covers, inside the region, what the same
points drawn where the replay takes them cover. -/

namespace Annotations

open Plane
open Scalar (toFloat sub_add_cancel_onGrid add_sub_cancel_onGrid)

variable {K : Type} [Scalar K]

/-! ### What a segment fills -/

/-- The width of the brush. -/
def brushWidth (pressure tilt : K) : K :=
  annotBaseWidth * pressureToWidthMultiplier pressure * tilt

/-- The paths that `draw_segment_on_cr` fills with brushes of widths `w1` and `w2` at the
ends: a disc for a segment shorter than half a pixel, else a quadrilateral with a disc at
both ends. -/
def brushFill (x1 y1 x2 y2 w1 w2 : K) : Set (K × K) :=
  let dx := x2 - x1
  let dy := y2 - y1
  let len2 := dx * dx + dy * dy
  if len2 < 0.25 then disc (x1, y1) (w1 * 0.5)
  else
    let len := Scalar.sqrtf len2
    let nx := -dy / len
    let ny := dx / len
    let hx1 := nx * w1 * 0.5
    let hy1 := ny * w1 * 0.5
    let hx2 := nx * w2 * 0.5
    let hy2 := ny * w2 * 0.5
    convexPolygon [(x1 + hx1, y1 + hy1), (x2 + hx2, y2 + hy2), (x2 - hx2, y2 - hy2),
        (x1 - hx1, y1 - hy1)] ∪
      disc (x1, y1) (w1 * 0.5) ∪ disc (x2, y2) (w2 * 0.5)

def PaintOp.fill (op : PaintOp K) : Set (K × K) :=
  brushFill op.x1 op.y1 op.x2 op.y2 (brushWidth op.p1 op.tilt1) (brushWidth op.p2 op.tilt2)

/-- The clip of the context lets the point through. -/
def CairoContext.admits (cr : CairoContext K) (p : K × K) : Prop :=
  match cr.clip with
  | none => True
  | some (x, y, w, h) => x ≤ p.1 ∧ p.1 < x + w ∧ y ≤ p.2 ∧ p.2 < y + h

def CairoContext.translation (cr : CairoContext K) : K × K := (cr.translateX, cr.translateY)

/-- The points of the target that a segment covers. -/
def PaintOp.inked (op : PaintOp K) : Set (K × K) :=
  {p | op.cr.admits p ∧ p - op.cr.translation ∈ op.fill}

/-- The points that some of the segments cover. -/
def inkOf (ops : List (PaintOp K)) : Set (K × K) := {p | ∃ op ∈ ops, p ∈ op.inked}

namespace Surface

variable (surface : Surface K)

/-- The area of a surface. -/
def extent : Set (K × K) :=
  {p | 0 ≤ p.1 ∧ p.1 < surface.width ∧ 0 ≤ p.2 ∧ p.2 < surface.height}

/-- The part of a surface that is covered by what was painted on it since it was last
cleared. -/
def inked : Set (K × K) := surface.extent ∩ inkOf surface.ops

end Surface

variable {op : PaintOp K} {ops ops' : List (PaintOp K)} {p v : K × K} {cr : CairoContext K}
  {rgba : Rgba K} {a b : InkPoint K}

theorem mem_inked : p ∈ op.inked ↔ op.cr.admits p ∧ p - op.cr.translation ∈ op.fill := Iff.rfl

theorem mem_inkOf : p ∈ inkOf ops ↔ ∃ op ∈ ops, p ∈ op.inked := Iff.rfl

@[simp] theorem inkOf_nil : inkOf ([] : List (PaintOp K)) = ∅ := by
  ext p
  simp [mem_inkOf]

@[simp] theorem inkOf_singleton : inkOf [op] = op.inked := by
  ext p
  simp [mem_inkOf]

@[simp] theorem inkOf_append : inkOf (ops ++ ops') = inkOf ops ∪ inkOf ops' := by
  ext p
  simp only [mem_inkOf, List.mem_append, Set.mem_union, or_and_right, exists_or]

theorem mem_inkOf_flatMap {α : Type} {f : α → List (PaintOp K)} {l : List α} :
    p ∈ inkOf (l.flatMap f) ↔ ∃ x ∈ l, p ∈ inkOf (f x) := by
  simp only [mem_inkOf, List.mem_flatMap]
  constructor
  · rintro ⟨op, ⟨x, hx, hop⟩, hp⟩
    exact ⟨x, hx, op, hop, hp⟩
  · rintro ⟨x, hx, op, hop, hp⟩
    exact ⟨op, ⟨x, hx, hop⟩, hp⟩

/-- Without a clip and a transform a segment covers what it fills. -/
theorem mem_inked_cairoCreate (hcr : op.cr = cairoCreate) : p ∈ op.inked ↔ p ∈ op.fill := by
  have htranslation : p - (cairoCreate : CairoContext K).translation = p := by
    simp [CairoContext.translation, cairoCreate]
  rw [mem_inked, hcr, htranslation]
  exact and_iff_right trivial

/-- A segment of length zero fills a disc. -/
theorem brushFill_self (x y w w' : K) : brushFill x y x y w w' = disc (x, y) (w * 0.5) := by
  have hlen : ((x - x) * (x - x) + (y - y) * (y - y) : K) < 0.25 := by norm_num
  exact if_pos hlen

/-- A segment covers the disc it starts with. -/
theorem disc_subset_brushFill (x1 y1 x2 y2 w1 w2 : K) :
    disc (x1, y1) (w1 * 0.5) ⊆ brushFill x1 y1 x2 y2 w1 w2 := by
  intro p hp
  unfold brushFill
  dsimp only
  split_ifs
  · exact hp
  · exact Or.inl (Or.inr hp)

/-- A dot is part of every segment that starts there. -/
theorem inked_dot_subset :
    (drawInkSegment cr rgba a a).inked ⊆ (drawInkSegment cr rgba a b).inked := by
  intro p hp
  have hdisc : p - cr.translation ∈ brushFill a.x a.y a.x a.y _ _ := hp.2
  rw [brushFill_self] at hdisc
  exact ⟨hp.1, disc_subset_brushFill _ _ _ _ _ _ hdisc⟩

/-! ### Translations -/

/-- The point moved by `v`. -/
def InkPoint.shift (a : InkPoint K) (v : K × K) : InkPoint K := { a with x := a.x + v.1, y := a.y + v.2 }

/-- The point is on the grid. -/
def InkPoint.OnGrid (e : ℤ) (a : InkPoint K) : Prop := Scalar.OnGrid e a.x ∧ Scalar.OnGrid e a.y

theorem mem_brushFill_add (x1 y1 x2 y2 w1 w2 : K) :
    p + v ∈ brushFill (x1 + v.1) (y1 + v.2) (x2 + v.1) (y2 + v.2) w1 w2 ↔
      p ∈ brushFill x1 y1 x2 y2 w1 w2 := by
  have hdisc : ∀ x y r : K, p + v ∈ disc (x + v.1, y + v.2) r ↔ p ∈ disc (x, y) r := fun x y r =>
    mem_disc_add (c := (x, y))
  have hcorner : ∀ x y hx hy : K, ((x + v.1 + hx, y + v.2 + hy) : K × K) = (x + hx, y + hy) + v :=
    fun x y hx hy => Prod.ext (add_right_comm ..) (add_right_comm ..)
  have hcorner' : ∀ x y hx hy : K, ((x + v.1 - hx, y + v.2 - hy) : K × K) = (x - hx, y - hy) + v :=
    fun x y hx hy => Prod.ext (add_sub_right_comm ..) (add_sub_right_comm ..)
  have hpolygon : ∀ a b c d : K × K, p + v ∈ convexPolygon [a + v, b + v, c + v, d + v] ↔
      p ∈ convexPolygon [a, b, c, d] := by
    intro a b c d
    have hmap : [a + v, b + v, c + v, d + v] = [a, b, c, d].map (· + v) := rfl
    rw [hmap, mem_convexPolygon_add]
  unfold brushFill
  simp only [add_sub_add_right_eq_sub]
  split_ifs
  · exact hdisc _ _ _
  · simp only [Set.mem_union, hdisc, hcorner, hcorner', hpolygon]

theorem mem_fill_shift :
    p + v ∈ (drawInkSegment cr rgba (a.shift v) (b.shift v)).fill ↔
      p ∈ (drawInkSegment cr rgba a b).fill := mem_brushFill_add ..

/-! ### Replays -/

/-- The editor region and the scroll of a record: what its strokes are replayed under. -/
@[ext] structure Frame (K : Type) where
  hasEditorRegion : Bool
  editorX : K
  editorY : K
  editorW : K
  editorH : K
  scrollX : K
  scrollY : K

def WindowInk.frame (ink : WindowInk K) : Frame K :=
  ⟨ink.hasEditorRegion, ink.editorX, ink.editorY, ink.editorW, ink.editorH, ink.scrollX, ink.scrollY⟩

namespace Frame

variable (frame : Frame K)

/-- The frame of a new record. -/
def blank : Frame K := ⟨false, 0, 0, 0, 0, 0, 0⟩

/-- The test `has_region`. -/
def hasRegion : Bool := frame.hasEditorRegion && 0 < frame.editorW && 0 < frame.editorH

def region : Set (K × K) :=
  {p | frame.editorX ≤ p.1 ∧ p.1 < frame.editorX + frame.editorW ∧ frame.editorY ≤ p.2 ∧
    p.2 < frame.editorY + frame.editorH}

/-- What takes a point of the window to content space. -/
def contentOffset : K × K := (frame.scrollX - frame.editorX, frame.scrollY - frame.editorY)

/-- Where a press stores a point of the window. -/
def pressed (q : InkPoint K) : InkPoint K :=
  { q with
    x := toFloat (toFloat (q.x - frame.editorX) + frame.scrollX)
    y := toFloat (toFloat (q.y - frame.editorY) + frame.scrollY) }

/-- Where a stroke under way stores it. -/
def stored (q : InkPoint K) : InkPoint K :=
  q.moved (some (toFloat (frame.scrollX - frame.editorX), toFloat (frame.scrollY - frame.editorY)))

def Stores (tip q : InkPoint K) : Prop := q = frame.pressed tip ∨ q = frame.stored tip

/-- The context that follow-scroll strokes are replayed in. -/
def followContext : CairoContext K :=
  ⟨some (frame.editorX, frame.editorY, frame.editorW, frame.editorH),
    toFloat (frame.editorX - frame.scrollX), toFloat (frame.editorY - frame.scrollY)⟩

/-- The replay takes the stored point `q` back to where the pen was. -/
def Shows (q tip : InkPoint K) : Prop :=
  q.x + toFloat (frame.editorX - frame.scrollX) = tip.x ∧ q.y + toFloat (frame.editorY - frame.scrollY) = tip.y

/-- The corner of the region and the scroll are on the grid. -/
structure OnGrid (e : ℤ) : Prop where
  x : Scalar.OnGrid e frame.editorX
  y : Scalar.OnGrid e frame.editorY
  scrollX : Scalar.OnGrid e frame.scrollX
  scrollY : Scalar.OnGrid e frame.scrollY

variable {frame} {tip q : InkPoint K}

/-- Only the position is moved. -/
theorem Stores.rest_eq (h : frame.Stores tip q) :
    q.pressure = tip.pressure ∧ q.tiltFactor = tip.tiltFactor ∧ q.stamp = tip.stamp := by
  rcases h with rfl | rfl <;> exact ⟨rfl, rfl, rfl⟩

/-- Where the region, the scroll and the tip are on a grid, nothing is lost. -/
theorem Stores.shows {e : ℤ} (he : -149 ≤ e ∧ e ≤ 103) (hframe : frame.OnGrid e) (htip : tip.OnGrid e)
    (h : frame.Stores tip q) : frame.Shows q tip := by
  rcases h with rfl | rfl
  · exact ⟨sub_add_cancel_onGrid he htip.1 hframe.x hframe.scrollX, sub_add_cancel_onGrid he htip.2 hframe.y hframe.scrollY⟩
  · exact ⟨add_sub_cancel_onGrid he htip.1 hframe.x hframe.scrollX, add_sub_cancel_onGrid he htip.2 hframe.y hframe.scrollY⟩

/-- The replay draws a point that it takes back like the tip of the pen. -/
theorem Stores.shift_eq (h : frame.Stores tip q) (hshows : frame.Shows q tip) :
    q.shift frame.followContext.translation = tip := by
  obtain ⟨hpressure, htilt, hstamp⟩ := h.rest_eq
  exact InkPoint.ext hshows.1 hshows.2 hpressure htilt hstamp

end Frame

/-- How the rasterizer paints one stroke. -/
def printStroke (frame : Option (Frame K)) (s : Stroke K) : List (PaintOp K) :=
  if s.followScroll then
    match frame with
    | none => []
    | some f => if f.hasRegion then rasterizeStrokeOnCr f.followContext s else []
  else rasterizeStrokeOnCr cairoCreate s

def printed (frame : Option (Frame K)) (strokes : List (Stroke K)) : List (PaintOp K) :=
  strokes.flatMap (printStroke frame)

theorem rasterizeAllStrokesWithInk_eq (target : Surface K) (strokes : List (Stroke K))
    (ink : Option (WindowInk K)) :
    rasterizeAllStrokesWithInk target strokes ink =
      { target with ops := printed (ink.map WindowInk.frame) strokes } := by
  refine congrArg (fun ops => { target with ops := ops }) (List.flatMap_congr fun s hs => ?_)
  unfold printStroke
  cases hfollow : s.followScroll with
  | false => rfl
  | true =>
    have hany : strokes.any (·.followScroll) = true := List.any_eq_true.mpr ⟨s, hs, hfollow⟩
    simp only [if_true]
    cases ink with
    | none => rfl
    | some i =>
      have hregion : hasRegion (some i) = i.frame.hasRegion := rfl
      simp only [crFollow, hany, Bool.and_true, hregion, Option.map_some]
      cases i.frame.hasRegion <;> rfl

theorem ops_of_rasterizeAllStrokesWithInk {surface : Option (Surface K)} {target : Surface K}
    {strokes : List (Stroke K)} {ink : Option (WindowInk K)}
    (h : surface.map (fun s => rasterizeAllStrokesWithInk s strokes ink) = some target) :
    target.ops = printed (ink.map WindowInk.frame) strokes := by
  obtain ⟨s, _, rfl⟩ := Option.map_eq_some_iff.mp h
  rw [rasterizeAllStrokesWithInk_eq]

/-- Without a region no follow-scroll stroke is painted. -/
theorem printStroke_congr {f f' : Frame K} (hf : f.hasRegion = false) (hf' : f'.hasRegion = false)
    (s : Stroke K) : printStroke (some f) s = printStroke (some f') s := by
  simp only [printStroke, hf, hf', Bool.false_eq_true, if_false]

omit [Scalar K] in
/-- A stroke is replayed in its own colour. -/
theorem rgba_of_mem_rasterizeStrokeOnCr {s : Stroke K} (h : op ∈ rasterizeStrokeOnCr cr s) :
    op.rgba = s.rgba := by
  have hzip : ∀ l l' : List (InkPoint K), op ∈ List.zipWith (drawInkSegment cr s.rgba) l l' →
      op.rgba = s.rgba := by
    intro l l' hop
    rw [← List.map_uncurry_zip_eq_zipWith] at hop
    obtain ⟨_, _, rfl⟩ := List.mem_map.mp hop
    rfl
  unfold rasterizeStrokeOnCr at h
  split at h
  · simp at h
  · rw [List.mem_singleton.mp h]
    rfl
  · exact hzip _ _ h

theorem zipWith_tail_append {α β : Type} (f : α → α → β) (l : List α) (a b : α) :
    List.zipWith f (l ++ [a, b]) (l ++ [a, b]).tail =
      List.zipWith f (l ++ [a]) (l ++ [a]).tail ++ [f a b] := by
  induction l with
  | nil => rfl
  | cons x l ih =>
    cases l with
    | nil => rfl
    | cons y l => simpa using ih

/-- A replay grows by the segment to a new point; a dot is covered by it. -/
theorem inkOf_rasterizeStrokeOnCr_append {s : Stroke K} (hlast : s.points.getLast? = some a) :
    inkOf (rasterizeStrokeOnCr cr (strokeAppendPoint s b)) =
      inkOf (rasterizeStrokeOnCr cr s) ∪ (drawInkSegment cr s.rgba a b).inked := by
  obtain ⟨l, hl⟩ := List.getLast?_eq_some_iff.mp hlast
  have hpoints : (strokeAppendPoint s b).points = l ++ [a, b] := by simp [hl]
  have hrgba : (strokeAppendPoint s b).rgba = s.rgba := rfl
  have hgrown : rasterizeStrokeOnCr cr (strokeAppendPoint s b) =
      List.zipWith (drawInkSegment cr s.rgba) (l ++ [a, b]) (l ++ [a, b]).tail := by
    rw [rasterizeStrokeOnCr, hpoints, hrgba]
    rcases l with _ | ⟨x, _ | ⟨y, l⟩⟩ <;> rfl
  rw [hgrown, zipWith_tail_append, inkOf_append, inkOf_singleton]
  cases l with
  | nil =>
    have hdot : rasterizeStrokeOnCr cr s = [drawInkSegment cr s.rgba a a] := by
      rw [rasterizeStrokeOnCr, hl]
      rfl
    rw [hdot, inkOf_singleton, Set.union_eq_self_of_subset_left inked_dot_subset]
    simp
  | cons x l =>
    have hsame : rasterizeStrokeOnCr cr s =
        List.zipWith (drawInkSegment cr s.rgba) (x :: l ++ [a]) (x :: l ++ [a]).tail := by
      rw [rasterizeStrokeOnCr, hl]
      cases l <;> rfl
    rw [hsame]

/-- Inside the region, a segment in content space covers what the same segment drawn
where the replay takes its ends covers. -/
theorem mem_inked_follow {frame : Frame K} (rgba' : Rgba K) :
    p ∈ (drawInkSegment frame.followContext rgba a b).inked ↔ p ∈ frame.region ∧
      p ∈ (drawInkSegment cairoCreate rgba' (a.shift frame.followContext.translation)
        (b.shift frame.followContext.translation)).inked := by
  have hcontext : (drawInkSegment frame.followContext rgba a b).cr = frame.followContext := rfl
  have hfill : p - frame.followContext.translation ∈ (drawInkSegment frame.followContext rgba a b).fill ↔
      p ∈ (drawInkSegment cairoCreate rgba' (a.shift frame.followContext.translation)
        (b.shift frame.followContext.translation)).fill := by
    rw [← mem_fill_shift (v := frame.followContext.translation), sub_add_cancel]
    exact Iff.rfl
  rw [mem_inked, hcontext, hfill]
  exact and_congr_right' (mem_inked_cairoCreate rfl).symm

end Annotations
