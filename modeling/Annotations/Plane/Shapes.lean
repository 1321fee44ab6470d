import Mathlib

/-! Filled shapes in the plane over an ordered field, as sets of points: open discs
and the insides of convex polygons, and what a translation does to them. -/

namespace Annotations.Plane

variable {K : Type*} [Field K] [LinearOrder K] [IsStrictOrderedRing K]

/-- The open disc around `c`. -/
def disc (c : K × K) (r : K) : Set (K × K) :=
  {p | (p.1 - c.1) * (p.1 - c.1) + (p.2 - c.2) * (p.2 - c.2) < r * r}

/-- Twice the signed area of the triangle `a b p`. -/
def cross (a b p : K × K) : K := (b.1 - a.1) * (p.2 - a.2) - (b.2 - a.2) * (p.1 - a.1)

/-- The edges of the closed path through the corners. -/
def edges (corners : List (K × K)) : List ((K × K) × (K × K)) := corners.zip (corners.rotate 1)

/-- The points strictly to one side of every edge. -/
def convexPolygon (corners : List (K × K)) : Set (K × K) :=
  {p | (∀ e ∈ edges corners, 0 < cross e.1 e.2 p) ∨ ∀ e ∈ edges corners, cross e.1 e.2 p < 0}

variable {a b c p v : K × K} {r : K} {corners : List (K × K)}

omit [IsStrictOrderedRing K] in
theorem mem_disc :
    p ∈ disc c r ↔ (p.1 - c.1) * (p.1 - c.1) + (p.2 - c.2) * (p.2 - c.2) < r * r := Iff.rfl

omit [IsStrictOrderedRing K] in
theorem mem_disc_add : p + v ∈ disc (c + v) r ↔ p ∈ disc c r := by
  simp only [mem_disc, Prod.fst_add, Prod.snd_add, add_sub_add_right_eq_sub]

theorem center_mem_disc (hr : r ≠ 0) : c ∈ disc c r := by
  simpa [mem_disc] using mul_self_pos.mpr hr

omit [LinearOrder K] [IsStrictOrderedRing K] in
@[simp] theorem cross_add : cross (a + v) (b + v) (p + v) = cross a b p := by
  simp only [cross, Prod.fst_add, Prod.snd_add, add_sub_add_right_eq_sub]

omit [LinearOrder K] [IsStrictOrderedRing K] in
theorem edges_map_add :
    edges (corners.map (· + v)) = (edges corners).map fun e => (e.1 + v, e.2 + v) := by
  rw [edges, edges, ← List.map_rotate, List.zip_map]
  rfl

omit [IsStrictOrderedRing K] in
theorem mem_convexPolygon : p ∈ convexPolygon corners ↔
    (∀ e ∈ edges corners, 0 < cross e.1 e.2 p) ∨ ∀ e ∈ edges corners, cross e.1 e.2 p < 0 := Iff.rfl

omit [IsStrictOrderedRing K] in
theorem mem_convexPolygon_add :
    p + v ∈ convexPolygon (corners.map (· + v)) ↔ p ∈ convexPolygon corners := by
  simp only [mem_convexPolygon, edges_map_add, List.forall_mem_map, cross_add]

end Annotations.Plane
