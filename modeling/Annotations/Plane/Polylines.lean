import Annotations.Plane.Segments

/-! Polylines: the points of a list and the segments between consecutive ones. Two polylines no
segments of which cross properly are nearest at a vertex of one of them. -/

namespace Annotations.Plane

variable {K : Type*} [Field K] [LinearOrder K] [IsStrictOrderedRing K]

/-- The segments of a polyline, by their ends. -/
def segments (pts : List (K × K)) : List ((K × K) × (K × K)) := pts.zip pts.tail

/-- The points of a polyline. A single vertex is a polyline too. -/
def polyline (pts : List (K × K)) : Set (K × K) := {z | z ∈ pts ∨ ∃ seg ∈ segments pts, z ∈ segment K seg.1 seg.2}

/-- A segment of the one crosses a segment of the other properly. -/
def Crosses (as bs : List (K × K)) : Prop :=
  ∃ ab ∈ segments as, ∃ cd ∈ segments bs, ProperCross ab.1 ab.2 cd.1 cd.2

/-- Some points of the two are no farther apart than `r`. -/
def Within (r : K) (as bs : List (K × K)) : Prop := ∃ e ∈ polyline as, ∃ z ∈ polyline bs, distSq e z ≤ r * r

variable {as bs : List (K × K)} {seg : (K × K) × (K × K)} {e z : K × K} {r : K}

omit [Field K] [LinearOrder K] [IsStrictOrderedRing K] in
theorem mem_of_mem_segments (h : seg ∈ segments as) : seg.1 ∈ as ∧ seg.2 ∈ as :=
  ⟨(List.of_mem_zip h).1, List.mem_of_mem_tail (List.of_mem_zip h).2⟩

omit [Field K] [LinearOrder K] [IsStrictOrderedRing K] in
/-- A vertex of a polyline with segments is an end of one. -/
theorem exists_segment_of_mem (hlength : 2 ≤ as.length) (h : e ∈ as) : ∃ seg ∈ segments as, e = seg.1 ∨ e = seg.2 := by
  induction as with
  | nil => cases h
  | cons a rest ih =>
    cases rest with
    | nil =>
      rw [List.length_singleton] at hlength
      omega
    | cons b rest =>
      have hcons : segments (a :: b :: rest) = (a, b) :: segments (b :: rest) := rfl
      rw [hcons]
      rcases List.mem_cons.mp h with rfl | htail
      · exact ⟨_, List.mem_cons_self .., .inl rfl⟩
      · cases rest with
        | nil =>
          obtain rfl := List.mem_singleton.mp htail
          exact ⟨_, List.mem_cons_self .., .inr rfl⟩
        | cons c rest =>
          obtain ⟨seg, hseg, hend⟩ := ih (by simp) htail
          exact ⟨seg, List.mem_cons_of_mem _ hseg, hend⟩

theorem Crosses.within (h : Crosses as bs) (r : K) : Within r as bs := by
  obtain ⟨ab, hab, cd, hcd, hcross⟩ := h
  obtain ⟨z, hz, hz'⟩ := exists_mem_of_cross hcross.1 hcross.2
  refine ⟨z, .inr ⟨ab, hab, hz⟩, z, .inr ⟨cd, hcd, hz'⟩, ?_⟩
  rw [distSq_self]
  exact mul_self_nonneg r

/-- Away from proper crossings, two points of the polylines are no nearer than a vertex of one is to
the other. -/
theorem exists_vertex_near (hcross : ¬ Crosses as bs) (he : e ∈ polyline as) (hz : z ∈ polyline bs) :
    (∃ v ∈ as, ∃ w ∈ polyline bs, distSq v w ≤ distSq e z) ∨ ∃ v ∈ bs, ∃ w ∈ polyline as, distSq v w ≤ distSq e z := by
  rcases he with hvertex | ⟨ab, hab, he⟩
  · exact .inl ⟨e, hvertex, z, hz, le_rfl⟩
  rcases hz with hvertex | ⟨cd, hcd, hz⟩
  · exact .inr ⟨z, hvertex, e, .inr ⟨ab, hab, he⟩, distSq_comm.le⟩
  have hends := mem_of_mem_segments hab
  have hends' := mem_of_mem_segments hcd
  have hproper : ¬ ProperCross ab.1 ab.2 cd.1 cd.2 := fun h => hcross ⟨ab, hab, cd, hcd, h⟩
  rcases exists_end_near hproper he hz with ⟨w, hw, hle | hle⟩ | ⟨w, hw, hle | hle⟩
  · exact .inl ⟨ab.1, hends.1, w, .inr ⟨cd, hcd, hw⟩, hle⟩
  · exact .inl ⟨ab.2, hends.2, w, .inr ⟨cd, hcd, hw⟩, hle⟩
  · exact .inr ⟨cd.1, hends'.1, w, .inr ⟨ab, hab, hw⟩, hle⟩
  · exact .inr ⟨cd.2, hends'.2, w, .inr ⟨ab, hab, hw⟩, hle⟩

end Annotations.Plane
