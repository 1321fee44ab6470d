import Annotations.Plane.Distance

/-! How near two segments come. The nearest point of a segment to a point is the foot of the
perpendicular, or an end; and two segments that do not cross properly are nearest at an end of one
of them. -/

namespace Annotations.Plane

variable {K : Type*} [Field K] [LinearOrder K] [IsStrictOrderedRing K]

/-- The point a part `t` of the way from `a` to `b`. -/
def along (a b : K × K) (t : K) : K × K := (a.1 + t * (b.1 - a.1), a.2 + t * (b.2 - a.2))

variable {a b c d e p q z : K × K} {s t : K}

omit [LinearOrder K] [IsStrictOrderedRing K] in
@[simp] theorem along_zero : along a b 0 = a := by
  simp [along]

omit [LinearOrder K] [IsStrictOrderedRing K] in
@[simp] theorem along_one : along a b 1 = b := by
  simp [along]

theorem mem_segment_iff_along : z ∈ segment K a b ↔ ∃ t, 0 ≤ t ∧ t ≤ 1 ∧ z = along a b t := by
  constructor
  · rintro ⟨x, t, hx, ht, hsum, rfl⟩
    have hx' : x = 1 - t := by linarith
    refine ⟨t, ht, by linarith, Prod.ext ?_ ?_⟩ <;>
      simp only [along, hx', Prod.fst_add, Prod.snd_add, Prod.smul_fst, Prod.smul_snd, smul_eq_mul] <;> ring
  · rintro ⟨t, h0, h1, rfl⟩
    exact along_mem_segment h0 h1

/-! ### The nearest point of a segment -/

/-- Along a segment the distance to `p` grows on the far side of a point that is not beyond the foot of
the perpendicular. -/
theorem distSq_along_le (hside : 0 ≤ (s - t) * (t * distSq b a - ((p.1 - a.1) * (b.1 - a.1) + (p.2 - a.2) * (b.2 - a.2)))) :
    distSq p (along a b t) ≤ distSq p (along a b s) := by
  have hgrow : distSq p (along a b s) - distSq p (along a b t) =
      2 * ((s - t) * (t * distSq b a - ((p.1 - a.1) * (b.1 - a.1) + (p.2 - a.2) * (b.2 - a.2)))) +
        distSq b a * ((s - t) * (s - t)) := by
    simp only [distSq, along]
    ring
  have hsquare : 0 ≤ distSq b a * ((s - t) * (s - t)) := mul_nonneg distSq_nonneg (mul_self_nonneg _)
  linarith

/-- How far along `ab` the nearest point to `p` is: at the foot of the perpendicular, or at an end. -/
def foot (a b p : K × K) : K :=
  let t := ((p.1 - a.1) * (b.1 - a.1) + (p.2 - a.2) * (b.2 - a.2)) / distSq b a
  if t < 0 then 0 else if 1 < t then 1 else t

theorem foot_mem : 0 ≤ foot a b p ∧ foot a b p ≤ 1 := by
  unfold foot
  dsimp only
  split_ifs with hlow hhigh
  · exact ⟨le_rfl, zero_le_one⟩
  · exact ⟨zero_le_one, le_rfl⟩
  · exact ⟨not_lt.mp hlow, not_lt.mp hhigh⟩

theorem distSq_foot_le (hpos : 0 < distSq b a) (ht0 : 0 ≤ t) (ht1 : t ≤ 1) :
    distSq p (along a b (foot a b p)) ≤ distSq p (along a b t) := by
  set dot := (p.1 - a.1) * (b.1 - a.1) + (p.2 - a.2) * (b.2 - a.2)
  have hdot : dot / distSq b a * distSq b a = dot := div_mul_cancel₀ dot hpos.ne'
  have hside : ∀ x : K, x * distSq b a - dot = (x - dot / distSq b a) * distSq b a := by
    intro x
    rw [sub_mul, hdot]
  refine distSq_along_le ?_
  rw [hside, ← mul_assoc]
  refine mul_nonneg ?_ hpos.le
  unfold foot
  dsimp only
  split_ifs with hlow hhigh
  · exact mul_nonneg (by rwa [sub_zero]) (sub_nonneg.mpr hlow.le)
  · exact mul_nonneg_of_nonpos_of_nonpos (sub_nonpos.mpr ht1) (sub_nonpos.mpr hhigh.le)
  · rw [sub_self, mul_zero]

/-! ### Leaving the unit square -/

/-- A number of the unit interval on its way down to `y` reaches zero. -/
theorem exists_exit_zero {y : K} (h0 : 0 ≤ s) (h1 : s ≤ 1) (hy : y ≤ 0) :
    ∃ l, 0 ≤ l ∧ l ≤ 1 ∧ (∀ m, 0 ≤ m → m ≤ l → 0 ≤ s + m * (y - s) ∧ s + m * (y - s) ≤ 1) ∧ s + l * (y - s) = 0 := by
  have hnonneg : 0 ≤ s - y := by linarith
  rcases hnonneg.eq_or_lt with hzero | hpos
  · have hs : s = 0 := by linarith
    refine ⟨0, le_rfl, zero_le_one, fun m hm hm' => ?_, by simp [hs]⟩
    obtain rfl : m = 0 := le_antisymm hm' hm
    simp [hs]
  · have hend : s / (s - y) * (s - y) = s := div_mul_cancel₀ s hpos.ne'
    refine ⟨s / (s - y), div_nonneg h0 hnonneg, (div_le_one hpos).mpr (by linarith), fun m hm hm' => ?_, ?_⟩
    · have hle : m * (s - y) ≤ s := (mul_le_mul_of_nonneg_right hm' hnonneg).trans_eq hend
      have hge : 0 ≤ m * (s - y) := mul_nonneg hm hnonneg
      have heq : s + m * (y - s) = s - m * (s - y) := by ring
      rw [heq]
      constructor <;> linarith
    · calc s + s / (s - y) * (y - s) = s - s / (s - y) * (s - y) := by ring
        _ = 0 := by rw [hend, sub_self]

/-- A number of the unit interval on its way to `y` stays in the interval up to a moment at which it is
at an end of it, or `y` is inside. -/
theorem exists_exit (h0 : 0 ≤ s) (h1 : s ≤ 1) (y : K) :
    ∃ l, 0 ≤ l ∧ l ≤ 1 ∧ (∀ m, 0 ≤ m → m ≤ l → 0 ≤ s + m * (y - s) ∧ s + m * (y - s) ≤ 1) ∧
      ((0 < y ∧ y < 1) ∧ l = 1 ∨ s + l * (y - s) = 0 ∨ s + l * (y - s) = 1) := by
  rcases le_or_gt y 0 with hy | hy
  · obtain ⟨l, hl0, hl1, hstay, hend⟩ := exists_exit_zero h0 h1 hy
    exact ⟨l, hl0, hl1, hstay, .inr (.inl hend)⟩
  rcases le_or_gt 1 y with hy' | hy'
  · -- upside down
    obtain ⟨l, hl0, hl1, hstay, hend⟩ :=
      exists_exit_zero (s := 1 - s) (y := 1 - y) (by linarith) (by linarith) (by linarith)
    have hflip : ∀ m, 1 - s + m * (1 - y - (1 - s)) = 1 - (s + m * (y - s)) := fun m => by ring
    refine ⟨l, hl0, hl1, fun m hm hm' => ?_, .inr (.inr ?_)⟩
    · have h := hstay m hm hm'
      rw [hflip] at h
      constructor <;> linarith [h.1, h.2]
    · rw [hflip] at hend
      linarith
  · refine ⟨1, zero_le_one, le_rfl, fun m hm hm' => ?_, .inl ⟨⟨hy, hy'⟩, rfl⟩⟩
    have hmix : s + m * (y - s) = (1 - m) * s + m * y := by ring
    have hm'' : 0 ≤ 1 - m := by linarith
    rw [hmix]
    constructor
    · exact add_nonneg (mul_nonneg hm'' h0) (mul_nonneg hm hy.le)
    · nlinarith

/-- A point of the unit square on its way to a point that is not strictly inside passes an edge. -/
theorem exists_edge (hs0 : 0 ≤ s) (hs1 : s ≤ 1) (ht0 : 0 ≤ t) (ht1 : t ≤ 1) (x y : K)
    (hout : ¬ ((0 < x ∧ x < 1) ∧ 0 < y ∧ y < 1)) :
    ∃ l, 0 ≤ l ∧ l ≤ 1 ∧ (0 ≤ s + l * (x - s) ∧ s + l * (x - s) ≤ 1) ∧ (0 ≤ t + l * (y - t) ∧ t + l * (y - t) ≤ 1) ∧
      ((s + l * (x - s) = 0 ∨ s + l * (x - s) = 1) ∨ t + l * (y - t) = 0 ∨ t + l * (y - t) = 1) := by
  obtain ⟨l, hl0, hl1, hstay, hend⟩ := exists_exit hs0 hs1 x
  obtain ⟨l', hl0', hl1', hstay', hend'⟩ := exists_exit ht0 ht1 y
  -- the first of the two exits
  rcases le_total l l' with hle | hle
  · rcases hend with ⟨hx, rfl⟩ | hend
    · obtain rfl : l' = 1 := le_antisymm hl1' hle
      have hend'' := hend'.resolve_left fun hy => hout ⟨hx, hy.1⟩
      exact ⟨1, hl0, hl1, hstay 1 hl0 le_rfl, hstay' 1 hl0' le_rfl, .inr hend''⟩
    · exact ⟨l, hl0, hl1, hstay l hl0 le_rfl, hstay' l hl0 hle, .inl hend⟩
  · rcases hend' with ⟨hy, rfl⟩ | hend'
    · obtain rfl : l = 1 := le_antisymm hl1 hle
      have hend'' := hend.resolve_left fun hx => hout ⟨hx.1, hy⟩
      exact ⟨1, hl0, hl1, hstay 1 hl0 le_rfl, hstay' 1 hl0' le_rfl, .inl hend''⟩
    · exact ⟨l', hl0', hl1', hstay l' hl0' hle, hstay' l' hl0' le_rfl, .inr hend'⟩

/-! ### Two segments -/

/-- The ends of each of the segments lie strictly on different sides of the other. -/
def ProperCross (a b c d : K × K) : Prop :=
  ((0 < cross c d a ∧ cross c d b < 0) ∨ (cross c d a < 0 ∧ 0 < cross c d b)) ∧
    ((0 < cross a b c ∧ cross a b d < 0) ∨ (cross a b c < 0 ∧ 0 < cross a b d))

/-- A ratio strictly inside the unit interval has its two sides on different sides of zero. -/
theorem signs_of_balance {x y : K} (hne : x - y ≠ 0) (h0 : 0 < x / (x - y)) (h1 : x / (x - y) < 1) :
    (0 < x ∧ y < 0) ∨ (x < 0 ∧ 0 < y) := by
  have hx : x / (x - y) * (x - y) = x := div_mul_cancel₀ x hne
  rcases lt_or_gt_of_ne hne with hneg | hpos
  · refine .inr ⟨?_, ?_⟩
    · nlinarith
    · nlinarith
  · refine .inl ⟨?_, ?_⟩
    · nlinarith
    · nlinarith

omit [LinearOrder K] [IsStrictOrderedRing K] in
/-- The lines through two segments that are not parallel meet. -/
theorem along_meet (hne : cross c d a - cross c d b ≠ 0) :
    cross a b c - cross a b d ≠ 0 ∧
      along a b (cross c d a / (cross c d a - cross c d b)) = along c d (cross a b c / (cross a b c - cross a b d)) := by
  have hopposite : cross a b c - cross a b d = -(cross c d a - cross c d b) := by
    simp only [cross]
    ring
  refine ⟨?_, ?_⟩
  · rw [hopposite]
    exact neg_ne_zero.mpr hne
  · rw [hopposite, div_neg]
    refine Prod.ext ?_ ?_ <;> simp only [along] <;> field_simp <;> simp only [cross] <;> ring

/-- The gap between two points of the lines, on a straight way on which its end is `k` times its start. -/
theorem distSq_along_le_of_gap {x y k l : K} (hk0 : 0 ≤ k) (hk1 : k ≤ 1) (hl0 : 0 ≤ l) (hl1 : l ≤ 1)
    (hfst : (along a b x).1 - (along c d y).1 = k * ((along a b s).1 - (along c d t).1))
    (hsnd : (along a b x).2 - (along c d y).2 = k * ((along a b s).2 - (along c d t).2)) :
    distSq (along a b (s + l * (x - s))) (along c d (t + l * (y - t))) ≤ distSq (along a b s) (along c d t) := by
  have hscale : distSq (along a b (s + l * (x - s))) (along c d (t + l * (y - t))) =
      (1 - l * (1 - k)) * (1 - l * (1 - k)) * distSq (along a b s) (along c d t) := by
    have hfst' : (along a b (s + l * (x - s))).1 - (along c d (t + l * (y - t))).1 =
        (1 - l) * ((along a b s).1 - (along c d t).1) + l * ((along a b x).1 - (along c d y).1) := by
      simp only [along]
      ring
    have hsnd' : (along a b (s + l * (x - s))).2 - (along c d (t + l * (y - t))).2 =
        (1 - l) * ((along a b s).2 - (along c d t).2) + l * ((along a b x).2 - (along c d y).2) := by
      simp only [along]
      ring
    rw [hfst] at hfst'
    rw [hsnd] at hsnd'
    unfold distSq
    rw [hfst', hsnd']
    ring
  have hshrink : 0 ≤ 1 - l * (1 - k) ∧ 1 - l * (1 - k) ≤ 1 := by
    constructor <;> nlinarith
  rw [hscale]
  exact mul_le_of_le_one_left distSq_nonneg (mul_le_one₀ hshrink.2 hshrink.1 hshrink.2)

/-- There is a way out of the unit square, or to its edge, on which the gap does not grow. -/
theorem exists_way_out (hcross : ¬ ProperCross a b c d) (s t : K) (hs0 : 0 ≤ s) (ht0 : 0 ≤ t) :
    ∃ x y k : K, 0 ≤ k ∧ k ≤ 1 ∧ ¬ ((0 < x ∧ x < 1) ∧ 0 < y ∧ y < 1) ∧
      (along a b x).1 - (along c d y).1 = k * ((along a b s).1 - (along c d t).1) ∧
      (along a b x).2 - (along c d y).2 = k * ((along a b s).2 - (along c d t).2) := by
  by_cases hparallel : cross c d a - cross c d b = 0
  · have hzero : (d.1 - c.1) * (b.2 - a.2) = (d.2 - c.2) * (b.1 - a.1) := by
      simp only [cross] at hparallel
      linear_combination -hparallel
    -- along both segments at once, so that the gap stays
    by_cases hd1 : d.1 - c.1 = 0
    · by_cases hd2 : d.2 - c.2 = 0
      · refine ⟨s, t + 1, 1, zero_le_one, le_rfl, fun h => absurd h.2.2 (by linarith), ?_, ?_⟩ <;>
          simp [along, hd1, hd2]
      · refine ⟨s + 1, t + (b.2 - a.2) / (d.2 - c.2), 1, zero_le_one, le_rfl, fun h => absurd h.1.2 (by linarith), ?_, ?_⟩
        · have hb : b.1 - a.1 = 0 := by
            rw [hd1, zero_mul] at hzero
            exact (mul_eq_zero.mp hzero.symm).resolve_left hd2
          simp [along, hd1, hb]
        · simp only [along]
          field_simp
          ring
    · refine ⟨s + 1, t + (b.1 - a.1) / (d.1 - c.1), 1, zero_le_one, le_rfl, fun h => absurd h.1.2 (by linarith), ?_, ?_⟩
      · simp only [along]
        field_simp
        ring
      · simp only [along]
        field_simp
        linear_combination hzero
  · obtain ⟨hne, hmeet⟩ := along_meet hparallel
    refine ⟨cross c d a / (cross c d a - cross c d b), cross a b c / (cross a b c - cross a b d), 0, le_rfl, zero_le_one,
      fun h => hcross ⟨?_, ?_⟩, ?_, ?_⟩
    · exact signs_of_balance hparallel h.1.1 h.1.2
    · exact signs_of_balance hne h.2.1 h.2.2
    · rw [hmeet]
      simp
    · rw [hmeet]
      simp

/-- Two segments that do not cross properly are nearest at an end of one of them. -/
theorem exists_end_near (hcross : ¬ ProperCross a b c d) (he : e ∈ segment K a b) (hz : z ∈ segment K c d) :
    (∃ w ∈ segment K c d, distSq a w ≤ distSq e z ∨ distSq b w ≤ distSq e z) ∨
      ∃ w ∈ segment K a b, distSq c w ≤ distSq e z ∨ distSq d w ≤ distSq e z := by
  obtain ⟨s, hs0, hs1, rfl⟩ := mem_segment_iff_along.mp he
  obtain ⟨t, ht0, ht1, rfl⟩ := mem_segment_iff_along.mp hz
  obtain ⟨x, y, k, hk0, hk1, hout, hfst, hsnd⟩ := exists_way_out hcross s t hs0 ht0
  obtain ⟨l, hl0, hl1, hs, ht, hedge⟩ := exists_edge hs0 hs1 ht0 ht1 x y hout
  have hle := distSq_along_le_of_gap hk0 hk1 hl0 hl1 hfst hsnd
  have hfirst : along a b (s + l * (x - s)) ∈ segment K a b := mem_segment_iff_along.mpr ⟨_, hs.1, hs.2, rfl⟩
  have hsecond : along c d (t + l * (y - t)) ∈ segment K c d := mem_segment_iff_along.mpr ⟨_, ht.1, ht.2, rfl⟩
  rcases hedge with (h | h) | h | h
  · rw [h, along_zero] at hle
    exact .inl ⟨_, hsecond, .inl hle⟩
  · rw [h, along_one] at hle
    exact .inl ⟨_, hsecond, .inr hle⟩
  · rw [h, along_zero, distSq_comm] at hle
    exact .inr ⟨_, hfirst, .inl hle⟩
  · rw [h, along_one, distSq_comm] at hle
    exact .inr ⟨_, hfirst, .inr hle⟩

omit [IsStrictOrderedRing K] in
theorem ProperCross.swap (h : ProperCross a b c d) : ProperCross c d a b := ⟨h.2, h.1⟩

/-- The squares of the distances between a point of `ab` and a point of `cd`. -/
def gaps (a b c d : K × K) : Set K := Set.image2 distSq (segment K a b) (segment K c d)

end Annotations.Plane
