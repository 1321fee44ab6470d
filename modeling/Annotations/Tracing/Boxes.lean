import Annotations.Layer.Surfaces
import Annotations.Plane.Boxes
import Annotations.Tracing.Coverage

/-! The bounding box that a stroke keeps as its points are appended. Every point widens it by the
half width of the brush there, so that at all times it covers the points of the stroke with their
discs, and with them all that painting the stroke fills. -/

namespace Annotations

open Plane

variable {K : Type} [Scalar K]

/-- The points inside the box. -/
def StrokeBbox.region (b : StrokeBbox K) : Set (K × K) := Set.Icc (b.minX, b.minY) (b.maxX, b.maxY)

/-- The box reaches past the point by the half width of the brush. -/
structure StrokeBbox.Covers (b : StrokeBbox K) (p : InkPoint K) : Prop where
  left : b.minX ≤ p.x - inkPointMaxHalfWidth p
  right : p.x + inkPointMaxHalfWidth p ≤ b.maxX
  top : b.minY ≤ p.y - inkPointMaxHalfWidth p
  bottom : p.y + inkPointMaxHalfWidth p ≤ b.maxY

/-- A stroke with points has a box that covers them. -/
def Stroke.Covered (s : Stroke K) : Prop := ∀ p ∈ s.points, ∃ b, s.bbox = some b ∧ b.Covers p

variable {s : Stroke K} {b : StrokeBbox K} {p q : InkPoint K}

/-! ### Appending points -/

/-- The box after a point, as far as the brush reaches there. -/
def StrokeBbox.extend (b : StrokeBbox K) (p : InkPoint K) : StrokeBbox K :=
  let r := inkPointMaxHalfWidth p
  { minX := if p.x - r < b.minX then p.x - r else b.minX
    minY := if p.y - r < b.minY then p.y - r else b.minY
    maxX := if b.maxX < p.x + r then p.x + r else b.maxX
    maxY := if b.maxY < p.y + r then p.y + r else b.maxY }

/-- The box of one point. -/
def StrokeBbox.around (p : InkPoint K) : StrokeBbox K :=
  let r := inkPointMaxHalfWidth p
  ⟨p.x - r, p.y - r, p.x + r, p.y + r⟩

theorem strokeAppendPoint_bbox (s : Stroke K) (p : InkPoint K) :
    (strokeAppendPoint s p).bbox = some ((s.bbox.map (·.extend p)).getD (.around p)) := by
  unfold strokeAppendPoint
  cases s.bbox with
  | none => rfl
  | some b => rfl

theorem covers_around : (StrokeBbox.around p).Covers p := ⟨le_rfl, le_rfl, le_rfl, le_rfl⟩

theorem covers_extend (hq : b.Covers q ∨ q = p) : (b.extend p).Covers q := by
  have hmin : ∀ x y z : K, y ≤ z ∨ x = z → (if x < y then x else y) ≤ z := by
    rintro x y z (hz | rfl) <;> split_ifs with hlt <;> linarith
  have hmax : ∀ x y z : K, z ≤ y ∨ z = x → z ≤ if y < x then x else y := by
    rintro x y z (hz | rfl) <;> split_ifs with hlt <;> linarith
  constructor
  · exact hmin _ _ _ (hq.imp StrokeBbox.Covers.left fun heq => by rw [heq])
  · exact hmax _ _ _ (hq.imp StrokeBbox.Covers.right fun heq => by rw [heq])
  · exact hmin _ _ _ (hq.imp StrokeBbox.Covers.top fun heq => by rw [heq])
  · exact hmax _ _ _ (hq.imp StrokeBbox.Covers.bottom fun heq => by rw [heq])

/-- Appending a point keeps what was covered, and covers the point. -/
theorem Stroke.Covered.append (hs : s.Covered) (p : InkPoint K) : (strokeAppendPoint s p).Covered := by
  intro q hq
  rw [strokeAppendPoint_points] at hq
  refine ⟨_, strokeAppendPoint_bbox s p, ?_⟩
  cases hbox : s.bbox with
  | none =>
    -- without a box there were no points
    have hold : q ∉ s.points := by
      intro hold
      obtain ⟨b, hb, -⟩ := hs q hold
      simp [hbox] at hb
    obtain rfl : q = p := by simpa [hold] using hq
    exact covers_around
  | some b =>
    refine covers_extend ?_
    rcases List.mem_append.mp hq with hq | hq
    · obtain ⟨b', hb', hcovers⟩ := hs q hq
      rw [hbox] at hb'
      obtain rfl := Option.some.inj hb'
      exact .inl hcovers
    · exact .inr (List.mem_singleton.mp hq)

/-- Whatever the box of a stroke without points, it covers the points that are appended. -/
theorem covered_foldl (hempty : s.points = []) (points : List (InkPoint K)) :
    (points.foldl strokeAppendPoint s).Covered := by
  have hstart : s.Covered := by
    intro p hp
    rw [hempty] at hp
    cases hp
  clear hempty
  induction points generalizing s with
  | nil => exact hstart
  | cons p points ih => exact ih (hstart.append p)

/-- One box covers all points. -/
theorem Stroke.Covered.exists_box (hs : s.Covered) (hne : s.points ≠ []) :
    ∃ b, s.bbox = some b ∧ ∀ p ∈ s.points, b.Covers p := by
  obtain ⟨p, hp⟩ := List.exists_mem_of_ne_nil _ hne
  obtain ⟨b, hb, -⟩ := hs p hp
  refine ⟨b, hb, fun q hq => ?_⟩
  obtain ⟨b', hb', hcovers⟩ := hs q hq
  obtain rfl := Option.some.inj (hb.symm.trans hb')
  exact hcovers

/-! ### What is painted -/

omit [Scalar K] in
theorem mem_zipWith_drawInkSegment {cr : CairoContext K} {rgba : Rgba K} {l l' : List (InkPoint K)} {op : PaintOp K} :
    op ∈ List.zipWith (drawInkSegment cr rgba) l l' ↔ ∃ seg ∈ l.zip l', op = drawInkSegment cr rgba seg.1 seg.2 := by
  rw [← List.map_uncurry_zip_eq_zipWith, List.mem_map]
  simp only [Function.uncurry, eq_comm]

/-- The brush is twice as wide as the half width that the box allows for. -/
theorem brushWidth_half (p : InkPoint K) : brushWidth p.pressure p.tiltFactor * 0.5 = inkPointMaxHalfWidth p := by
  unfold brushWidth inkPointMaxHalfWidth
  ring

theorem disc_subset_region (hp : b.Covers p) (hh : 0 ≤ inkPointMaxHalfWidth p) :
    disc (p.x, p.y) (inkPointMaxHalfWidth p) ⊆ b.region :=
  disc_subset_Icc hh ⟨hp.left, hp.right⟩ ⟨hp.top, hp.bottom⟩

/-- On both sides of a covered point the box reaches as far as the brush. -/
theorem mem_region_of_beside (hp : b.Covers p) (hh : 0 ≤ inkPointMaxHalfWidth p) {n n' : K} (hn : |n| ≤ 1)
    (hn' : |n'| ≤ 1) :
    (p.x + n * inkPointMaxHalfWidth p, p.y + n' * inkPointMaxHalfWidth p) ∈ b.region ∧
      (p.x - n * inkPointMaxHalfWidth p, p.y - n' * inkPointMaxHalfWidth p) ∈ b.region := by
  obtain ⟨hlow, hhigh⟩ := abs_le.mp hn
  obtain ⟨hlow', hhigh'⟩ := abs_le.mp hn'
  have hX := mul_le_mul_of_nonneg_right hlow hh
  have hX' := mul_le_mul_of_nonneg_right hhigh hh
  have hY := mul_le_mul_of_nonneg_right hlow' hh
  have hY' := mul_le_mul_of_nonneg_right hhigh' hh
  refine ⟨⟨⟨?_, ?_⟩, ?_, ?_⟩, ⟨?_, ?_⟩, ?_, ?_⟩ <;> dsimp only <;> linarith [hp.left, hp.right, hp.top, hp.bottom]

end Annotations
