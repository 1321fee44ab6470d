import Annotations.Plane.Distance

/-! Boxes around filled shapes. A disc lies in the box around its centre, and the inside of a closed
path in every half plane, and so in every box, that the corners of the path lie in. -/

namespace Annotations.Plane

variable {K : Type*} [Field K] [LinearOrder K] [IsStrictOrderedRing K]

variable {a b c p lo hi : K × K} {r u v m : K} {corners : List (K × K)}

theorem disc_subset_Icc (hr : 0 ≤ r) (hfst : lo.1 ≤ c.1 - r ∧ c.1 + r ≤ hi.1) (hsnd : lo.2 ≤ c.2 - r ∧ c.2 + r ≤ hi.2) :
    disc c r ⊆ Set.Icc lo hi := by
  intro p hp
  have hnear : distSq p c ≤ r * r := le_of_lt hp
  obtain ⟨hX, hY⟩ := abs_sub_le_of_distSq hr hnear
  rw [abs_le] at hX hY
  constructor <;> constructor <;> linarith [hX.1, hX.2, hY.1, hY.2, hfst.1, hfst.2, hsnd.1, hsnd.2]

/-! ### Closed paths -/

omit [Field K] [IsStrictOrderedRing K] in
/-- No value rises along every edge of a closed path. -/
theorem exists_edge_le (f : K × K → K) (hne : corners ≠ []) : ∃ e ∈ edges corners, f e.2 ≤ f e.1 := by
  obtain ⟨i, hi, hmax⟩ : ∃ i, ∃ hi : i < corners.length, ∀ c ∈ corners, f c ≤ f corners[i] := by
    obtain ⟨top, htop, hmax⟩ := corners.toFinset.exists_max_image f (by simpa using hne)
    obtain ⟨i, hi, rfl⟩ := List.mem_iff_getElem.mp (List.mem_toFinset.mp htop)
    exact ⟨i, hi, fun c hc => hmax c (List.mem_toFinset.mpr hc)⟩
  have hnext : i < (corners.rotate 1).length := by rwa [List.length_rotate]
  refine ⟨(corners[i], (corners.rotate 1)[i]), ?_, ?_⟩
  · unfold edges
    rw [← List.getElem_zip (h := by rw [List.length_zip]; omega)]
    exact List.getElem_mem _
  · exact hmax _ (List.mem_rotate.mp (List.getElem_mem hnext))

omit [LinearOrder K] [IsStrictOrderedRing K] in
/-- The signed area in coordinates along a direction and across it. -/
theorem cross_eq_of_direction (u v : K) :
    (u * u + v * v) * cross a b p =
      (u * (p.2 - b.2) - v * (p.1 - b.1)) * (u * (p.1 - a.1) + v * (p.2 - a.2)) -
        (u * (p.2 - a.2) - v * (p.1 - a.1)) * (u * (p.1 - b.1) + v * (p.2 - b.2)) := by
  unfold cross
  ring

/-- A half plane that holds the corners of a closed path holds its inside. -/
theorem le_of_mem_convexPolygon (hne : corners ≠ []) (hcorners : ∀ c ∈ corners, u * c.1 + v * c.2 ≤ m)
    (hp : p ∈ convexPolygon corners) : u * p.1 + v * p.2 ≤ m := by
  by_contra hout
  -- seen from `p` all corners lie on one side, so that their slopes can be compared
  have hside : ∀ c ∈ corners, 0 < u * (p.1 - c.1) + v * (p.2 - c.2) := by
    intro c hc
    have hle := hcorners c hc
    rw [not_le] at hout
    linarith
  have hdirection : 0 < u * u + v * v := by
    obtain ⟨c, hc⟩ := List.exists_mem_of_ne_nil _ hne
    rcases (add_nonneg (mul_self_nonneg u) (mul_self_nonneg v)).eq_or_lt with hzero | hpos
    · obtain ⟨rfl, rfl⟩ := mul_self_add_mul_self_eq_zero.mp hzero.symm
      have hpos := hside c hc
      simp at hpos
    · exact hpos
  let slope (c : K × K) : K := (u * (p.2 - c.2) - v * (p.1 - c.1)) / (u * (p.1 - c.1) + v * (p.2 - c.2))
  have hslope : ∀ e ∈ edges corners, (0 < cross e.1 e.2 p → slope e.1 < slope e.2) ∧
      (cross e.1 e.2 p < 0 → slope e.2 < slope e.1) := by
    intro e he
    have hfst := hside e.1 (List.of_mem_zip he).1
    have hsnd := hside e.2 (List.mem_rotate.mp (List.of_mem_zip he).2)
    have harea := cross_eq_of_direction (a := e.1) (b := e.2) (p := p) u v
    constructor <;> intro hcross
    · have hpos := mul_pos hdirection hcross
      rw [div_lt_div_iff₀ hfst hsnd]
      linarith
    · have hneg := mul_neg_of_pos_of_neg hdirection hcross
      rw [div_lt_div_iff₀ hsnd hfst]
      linarith
  rcases hp with hleft | hright
  · obtain ⟨e, he, hle⟩ := exists_edge_le slope hne
    exact absurd ((hslope e he).1 (hleft e he)) (not_lt.mpr hle)
  · obtain ⟨e, he, hle⟩ := exists_edge_le (fun c => -slope c) hne
    exact absurd ((hslope e he).2 (hright e he)) (not_lt.mpr (neg_le_neg_iff.mp hle))

theorem convexPolygon_subset_Icc (hne : corners ≠ []) (hcorners : ∀ c ∈ corners, c ∈ Set.Icc lo hi) :
    convexPolygon corners ⊆ Set.Icc lo hi := by
  intro p hp
  have hside : ∀ u v m : K, (∀ c ∈ corners, u * c.1 + v * c.2 ≤ m) → u * p.1 + v * p.2 ≤ m := fun u v m h =>
    le_of_mem_convexPolygon hne h hp
  have hleft := hside (-1) 0 (-lo.1) fun c hc => by linarith [(hcorners c hc).1.1]
  have hlow := hside 0 (-1) (-lo.2) fun c hc => by linarith [(hcorners c hc).1.2]
  have hright := hside 1 0 hi.1 fun c hc => by linarith [(hcorners c hc).2.1]
  have hhigh := hside 0 1 hi.2 fun c hc => by linarith [(hcorners c hc).2.2]
  constructor <;> constructor <;> linarith

end Annotations.Plane
