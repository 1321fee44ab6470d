import Annotations.Motion.Shifts

/-! Recovery of a known shift. An image is shifted with the border kept from the original,
and the matcher is run on the pair: the shift has error zero, and it is the one reported
when no earlier shift of the search has error zero too. -/

namespace Annotations.Motion

/-! ### The synthetic pair -/

/-- One step of the xorshift generator of `fillRandomishGrey8`. -/
def xorshift32 (s : UInt32) : UInt32 :=
  let s := s ^^^ (s <<< 13)
  let s := s ^^^ (s >>> 17)
  s ^^^ (s <<< 5)

def randomishBytes : ℕ → UInt32 → List UInt8
  | 0, _ => []
  | n + 1, s => ((xorshift32 s) &&& 255).toUInt8 :: randomishBytes n (xorshift32 s)

theorem length_randomishBytes (n : ℕ) (s : UInt32) : (randomishBytes n s).length = n := by
  induction n generalizing s with
  | zero => rfl
  | succ n ih => simp [randomishBytes, ih]

/-- `fillRandomishGrey8`. -/
def fillRandomishGrey8 (w h : ℕ) : Grey8 w h :=
  ⟨(randomishBytes (w * h) 2463534242).toArray, by simp [length_randomishBytes]⟩

variable {w h : ℕ}

/-- The loops of `buildSyntheticGreyPair` that fill `cur`, pixel by pixel. -/
def syntheticCur (prev : Grey8 w h) (tdx tdy : ℤ) : Grey8 w h :=
  Vector.ofFn fun i : Fin (w * h) =>
    let x : ℤ := (i.val % w : ℕ)
    let y : ℤ := (i.val / w : ℕ)
    let xs := x - tdx
    let ys := y - tdy
    if 0 ≤ xs ∧ xs < w ∧ 0 ≤ ys ∧ ys < h then prev.read (ys * w + xs) else prev.read (y * w + x)

def buildSyntheticGreyPair (w h : ℕ) (tdx tdy : ℤ) : Grey8 w h × Grey8 w h :=
  let prev := fillRandomishGrey8 w h
  (prev, syntheticCur prev tdx tdy)

theorem Grey8.read_ofFn (f : Fin (w * h) → UInt8) {i : ℕ} (hi : i < w * h) :
    Grey8.read (Vector.ofFn f) i = f ⟨i, hi⟩ := by
  unfold Grey8.read
  rw [Int.toNat_natCast, Vector.toArray_ofFn, Array.getD_eq_getD_getElem?, Array.getElem?_ofFn, dif_pos hi]
  rfl

/-- Where a pixel of `prev` stays in the image when shifted, `cur` has its grey level. -/
theorem read_syntheticCur (prev : Grey8 w h) {tdx tdy x y : ℤ} (hx : 0 ≤ x ∧ x < w) (hy : 0 ≤ y ∧ y < h)
    (hxs : 0 ≤ x + tdx ∧ x + tdx < w) (hys : 0 ≤ y + tdy ∧ y + tdy < h) :
    (syntheticCur prev tdx tdy).read ((y + tdy) * w + (x + tdx)) = prev.read (y * w + x) := by
  obtain ⟨x', hx'⟩ := Int.eq_ofNat_of_zero_le hxs.1
  obtain ⟨y', hy'⟩ := Int.eq_ofNat_of_zero_le hys.1
  have hxw : x' < w := by omega
  have hyh : y' < h := by omega
  have hindex : y' * w + x' < w * h := by
    calc y' * w + x' < y' * w + w := Nat.add_lt_add_left hxw _
      _ = (y' + 1) * w := by ring
      _ ≤ h * w := Nat.mul_le_mul_right w hyh
      _ = w * h := Nat.mul_comm h w
  have hmod : (y' * w + x') % w = x' := by
    rw [Nat.add_comm, Nat.add_mul_mod_self_right, Nat.mod_eq_of_lt hxw]
  have hdiv : (y' * w + x') / w = y' := by
    rw [Nat.add_comm, Nat.add_mul_div_right _ _ (by omega), Nat.div_eq_of_lt hxw, Nat.zero_add]
  have hcast : (y + tdy) * w + (x + tdx) = ((y' * w + x' : ℕ) : ℤ) := by
    rw [hx', hy']
    push_cast
    rfl
  have hxs' : (x' : ℤ) - tdx = x := by omega
  have hys' : (y' : ℤ) - tdy = y := by omega
  rw [hcast, syntheticCur, Grey8.read_ofFn _ hindex]
  simp only [hmod, hdiv, hxs', hys']
  rw [if_pos ⟨hx.1, hx.2, hy.1, hy.2⟩]

theorem difference_syntheticCur (prev : Grey8 w h) (tdx tdy : ℤ) {p : ℕ × ℕ} (hp : p ∈ overlap w h tdx tdy) :
    difference prev (syntheticCur prev tdx tdy) tdx tdy p = 0 := by
  obtain ⟨⟨hx, hxs⟩, hy, hys⟩ := mem_overlap.mp hp
  unfold difference
  rw [read_syntheticCur prev ⟨by omega, by omega⟩ ⟨by omega, by omega⟩ hxs hys]
  exact sub_self _

/-! ### The error of the true shift -/

variable (fl : DoubleRounding)

theorem foldl_add_of_zero (f : ℕ × ℕ → ℤ) (pixels : List (ℕ × ℕ)) (hzero : ∀ p ∈ pixels, f p = 0) (n : ℤ) :
    pixels.foldl (fun acc p => acc.add fl (f p)) ⟨0, n⟩ = (⟨0, n + pixels.length⟩ : Ssd) := by
  induction pixels generalizing n with
  | nil => simp
  | cons p rest ih =>
    have hp : f p = 0 := hzero p (List.mem_cons_self ..)
    have hadd : Ssd.add fl ⟨0, n⟩ (f p) = ⟨0, n + 1⟩ := by simp [Ssd.add, hp]
    rw [List.foldl_cons, hadd, ih (fun q hq => hzero q (List.mem_cons_of_mem p hq)), List.length_cons]
    congr 1
    push_cast
    ring

theorem searchRadius_lt (hw : 8 < w) (hh : 8 < h) : searchRadius w h < w ∧ searchRadius w h < h := by
  simp only [searchRadius]
  split_ifs <;> omega

/-- A shift within the search radius leaves something of the image. -/
theorem overlap_ne_nil (hw : 8 < w) (hh : 8 < h) {sx sy : ℤ} (hsx : |sx| ≤ searchRadius w h)
    (hsy : |sy| ≤ searchRadius w h) : overlap w h sx sy ≠ [] := by
  obtain ⟨hrw, hrh⟩ := searchRadius_lt hw hh
  have hx := abs_le.mp hsx
  have hy := abs_le.mp hsy
  refine List.ne_nil_of_mem (a := ((-sx).toNat, (-sy).toNat)) (mem_overlap.mpr ?_)
  dsimp only
  omega

theorem ssdShift_syntheticCur (hw : 8 < w) (hh : 8 < h) (prev : Grey8 w h) {tdx tdy : ℤ}
    (hdx : |tdx| ≤ searchRadius w h) (hdy : |tdy| ≤ searchRadius w h) :
    ssdShift fl prev (syntheticCur prev tdx tdy) tdx tdy = 0 := by
  have hlength := List.length_pos_of_ne_nil (overlap_ne_nil hw hh hdx hdy)
  have hfold := foldl_add_of_zero fl (difference prev (syntheticCur prev tdx tdy) tdx tdy)
    (overlap w h tdx tdy) (fun p hp => difference_syntheticCur prev tdx tdy hp) 0
  unfold ssdShift
  rw [foldl_row, hfold]
  dsimp only
  rw [if_neg (by omega), zero_div, fl.round_zero]

theorem length_kept_le (n : ℕ) (s : ℤ) : (kept n s).length ≤ n :=
  (List.length_filter_le _ _).trans_eq List.length_range

theorem length_overlap (w h : ℕ) (sx sy : ℤ) : (overlap w h sx sy).length = (kept h sy).length * (kept w sx).length := by
  simp [overlap, List.length_flatMap]

theorem length_overlap_le (hw : w ≤ 4096) (hh : h ≤ 4096) (sx sy : ℤ) : (overlap w h sx sy).length ≤ 2 ^ 24 := by
  have harea : 2 ^ 24 = 4096 * 4096 := by norm_num
  rw [length_overlap, harea]
  exact Nat.mul_le_mul ((length_kept_le h sy).trans hh) ((length_kept_le w sx).trans hw)

theorem count_foldl_add (f : ℕ × ℕ → ℤ) (pixels : List (ℕ × ℕ)) (acc : Ssd) :
    (pixels.foldl (fun acc p => acc.add fl (f p)) acc).count = acc.count + pixels.length := by
  induction pixels generalizing acc with
  | nil => simp
  | cons p rest ih =>
    rw [List.foldl_cons, ih, List.length_cons]
    simp only [Ssd.add]
    push_cast
    ring

/-- A sum that is a whole one stays so, whatever the rounding. -/
theorem one_le_foldl_add (f : ℕ × ℕ → ℤ) (pixels : List (ℕ × ℕ)) (acc : Ssd) (hacc : 0 ≤ acc.sum)
    (h : 1 ≤ acc.sum ∨ ∃ p ∈ pixels, f p ≠ 0) :
    1 ≤ (pixels.foldl (fun acc p => acc.add fl (f p)) acc).sum := by
  have hone : fl.round 1 = 1 := by exact_mod_cast fl.round_intCast 1 (by norm_num)
  induction pixels generalizing acc with
  | nil => exact h.resolve_right (by simp)
  | cons p rest ih =>
    have hsquare : 0 ≤ fl.round ((f p : ℚ) * f p) := fl.round_nonneg (mul_self_nonneg _)
    rw [List.foldl_cons]
    refine ih _ (fl.round_nonneg (add_nonneg hacc hsquare)) ?_
    have hkept : ∀ x : ℚ, 1 ≤ x → 1 ≤ fl.round x := fun x hx => hone.symm.trans_le (fl.mono hx)
    rcases h with hacc' | ⟨q, hq, hne⟩
    · exact .inl (hkept _ (hacc'.trans (le_add_of_nonneg_right hsquare)))
    rcases List.mem_cons.mp hq with rfl | hq
    · have hpos : (1 : ℚ) ≤ f q * f q := by exact_mod_cast Int.add_one_le_iff.mpr (mul_self_pos.mpr hne)
      exact .inl (hkept _ ((hkept _ hpos).trans (le_add_of_nonneg_left hacc)))
    · exact .inr ⟨q, hq, hne⟩

/-- A shift at which some pixel differs has an error above zero. -/
theorem ssdShift_pos (hw : w ≤ 4096) (hh : h ≤ 4096) {prev cur : Grey8 w h} {sx sy : ℤ} {p : ℕ × ℕ}
    (hp : p ∈ overlap w h sx sy) (hdiffers : difference prev cur sx sy p ≠ 0) : 0 < ssdShift fl prev cur sx sy := by
  have hlength : 0 < (overlap w h sx sy).length := List.length_pos_of_mem hp
  have hcount : ((overlap w h sx sy).length : ℚ) ≤ 2 ^ 24 := by exact_mod_cast length_overlap_le hw hh sx sy
  have hsum := one_le_foldl_add fl (difference prev cur sx sy) (overlap w h sx sy) ⟨0, 0⟩ le_rfl
    (.inr ⟨p, hp, hdiffers⟩)
  have hleast : fl.round (1 * 2 ^ (-24 : ℤ)) = 1 * 2 ^ (-24 : ℤ) := by
    exact_mod_cast fl.keeps 1 (-24) (by norm_num) (by norm_num) (by norm_num)
  unfold ssdShift
  rw [foldl_row]
  dsimp only
  rw [count_foldl_add, zero_add, if_neg (by omega), Int.cast_natCast]
  refine (hleast.symm ▸ (by positivity) : (0 : ℚ) < fl.round (1 * 2 ^ (-24 : ℤ))).trans_le (fl.mono ?_)
  rw [le_div_iff₀ (by exact_mod_cast hlength)]
  calc 1 * 2 ^ (-24 : ℤ) * ((overlap w h sx sy).length : ℚ) ≤ 1 * 2 ^ (-24 : ℤ) * 2 ^ 24 :=
        mul_le_mul_of_nonneg_left hcount (by positivity)
    _ = 1 := by norm_num
    _ ≤ _ := hsum

/-! ### The search on the pair -/

/-- The shift has error zero, and so has no earlier shift of the search. -/
structure FirstExact (prev cur : Grey8 w h) (sx sy : ℤ) : Prop where
  searched : (sx, sy) ∈ shifts (searchRadius w h)
  exact : ssdShift fl prev cur sx sy = 0
  earlier : ∀ s ∈ shifts (searchRadius w h), ScanBefore s (sx, sy) → ssdShift fl prev cur s.1 s.2 ≠ 0

variable {fl} {prev cur : Grey8 w h} {tdx tdy : ℤ}

/-- When a shift of the square has error zero, the search reports the first that has. -/
theorem search_of_exact (hdx : |tdx| ≤ searchRadius w h) (hdy : |tdy| ≤ searchRadius w h)
    (hexact : ssdShift fl prev cur tdx tdy = 0) :
    (search fl prev cur).best = 0 ∧
      FirstExact fl prev cur (search fl prev cur).bestSx (search fl prev cur).bestSy := by
  have hmem : (tdx, tdy) ∈ shifts (searchRadius w h) := mem_shifts.mpr ⟨hdx, hdy⟩
  have hstart : 0 < (Search.start fl).best := fl.round_pos (one_le_pow₀ (by norm_num))
  have hle : (search fl prev cur).best ≤ 0 := (Search.visit_best_le_error hmem).trans_eq hexact
  obtain ⟨before, shift, after, hsplit, hsx, hsy, hbest, hbefore⟩ := Search.visit_first (hle.trans_lt hstart)
  have hzero : ssdShift fl prev cur shift.1 shift.2 = 0 :=
    le_antisymm (hbest.symm.trans_le hle) (ssdShift_nonneg fl prev cur shift.1 shift.2)
  refine ⟨hbest.trans hzero, ?_⟩
  unfold search
  rw [hsx, hsy]
  refine ⟨by rw [hsplit]; simp, hzero, ?_⟩
  intro s hs hearlier
  have horder := shifts_pairwise (searchRadius w h)
  rw [hsplit] at hs horder
  rcases List.mem_append.mp hs with hs | hs
  · have hpos := hbefore s hs
    rw [hzero] at hpos
    exact hpos.ne'
  · -- the shift reported does not come before itself, nor after what follows it
    exfalso
    rcases List.mem_cons.mp hs with rfl | hs
    · rcases hearlier with hlt | ⟨_, hlt⟩ <;> exact lt_irrefl _ hlt
    · have hlater := (List.pairwise_cons.mp (List.pairwise_append.mp horder).2.1).1 s hs
      unfold ScanBefore at hearlier hlater
      dsimp only at hearlier
      omega

theorem FirstExact.unique {sx sy tx ty : ℤ} (hs : FirstExact fl prev cur sx sy)
    (ht : FirstExact fl prev cur tx ty) : sx = tx ∧ sy = ty := by
  by_contra hne
  have hcases : ScanBefore (sx, sy) (tx, ty) ∨ ScanBefore (tx, ty) (sx, sy) := by
    unfold ScanBefore
    dsimp only
    omega
  rcases hcases with hlt | hlt
  · exact ht.earlier _ hs.searched hlt hs.exact
  · exact hs.earlier _ ht.searched hlt ht.exact

theorem readRaw_toArray {len : ℕ} (bytes : Vector UInt8 len) : readRaw (some bytes.toArray) len = some bytes := by
  unfold readRaw
  simp

/-- The helper on two files that hold the images. -/
theorem main_files (hw : 8 < w) (hw' : w ≤ 4096) (hh : 8 < h) (hh' : h ≤ 4096) :
    main fl w h (some prev.toArray) (some cur.toArray) = .ok ((search fl prev cur).report fl) := by
  unfold main
  rw [if_neg (by omega)]
  have hprev : readRaw (some prev.toArray) ((w : ℤ).toNat * (h : ℤ).toNat) = some prev := readRaw_toArray prev
  have hcur : readRaw (some cur.toArray) ((w : ℤ).toNat * (h : ℤ).toNat) = some cur := readRaw_toArray cur
  rw [hprev, hcur]

variable (fl) in
/-- The matcher recovers the shift of a synthetic pair. -/
theorem main_syntheticCur (hw : 8 < w) (hw' : w ≤ 4096) (hh : 8 < h) (hh' : h ≤ 4096) (prev : Grey8 w h)
    (hdx : |tdx| ≤ searchRadius w h) (hdy : |tdy| ≤ searchRadius w h) :
    ssdShift fl prev (syntheticCur prev tdx tdy) tdx tdy = 0 ∧
      ∃ report, main fl w h (some prev.toArray) (some (syntheticCur prev tdx tdy).toArray) = .ok report ∧
        report.mse = 0 ∧ ssdShift fl prev (syntheticCur prev tdx tdy) report.dx report.dy = 0 ∧
        ((∀ s ∈ shifts (searchRadius w h), ssdShift fl prev (syntheticCur prev tdx tdy) s.1 s.2 = 0 →
            s = (tdx, tdy)) → report.dx = tdx ∧ report.dy = tdy) ∧
        (FirstExact fl prev (syntheticCur prev tdx tdy) tdx tdy → report.dx = tdx ∧ report.dy = tdy) := by
  have hexact := ssdShift_syntheticCur fl hw hh prev hdx hdy
  obtain ⟨hbest, hfirst⟩ := search_of_exact hdx hdy hexact
  refine ⟨hexact, (search fl prev _).report fl, main_files hw hw' hh hh', hbest, hfirst.exact, ?_, ?_⟩
  · intro honly
    exact Prod.mk.inj (honly _ hfirst.searched hfirst.exact)
  · intro htrue
    exact hfirst.unique htrue

/-! A pair of which only the true shift has error zero. -/

set_option maxRecDepth 4000 in
theorem differs_buildSyntheticGreyPair : ∀ s ∈ shifts (searchRadius 9 9), s = (2, -1) ∨
    ∃ p ∈ overlap 9 9 s.1 s.2,
      difference (buildSyntheticGreyPair 9 9 2 (-1)).1 (buildSyntheticGreyPair 9 9 2 (-1)).2 s.1 s.2 p ≠ 0 := by
  decide +kernel

variable (fl) in
theorem only_buildSyntheticGreyPair {s : ℤ × ℤ} (hs : s ∈ shifts (searchRadius 9 9))
    (hexact : ssdShift fl (buildSyntheticGreyPair 9 9 2 (-1)).1 (buildSyntheticGreyPair 9 9 2 (-1)).2 s.1 s.2 = 0) :
    s = (2, -1) := by
  rcases differs_buildSyntheticGreyPair s hs with heq | ⟨p, hp, hdiffers⟩
  · exact heq
  · exact absurd hexact (ssdShift_pos fl (by decide) (by decide) hp hdiffers).ne'

variable (fl) in
theorem search_buildSyntheticGreyPair :
    let pair := buildSyntheticGreyPair 9 9 2 (-1)
    (search fl pair.1 pair.2).best = 0 ∧ (search fl pair.1 pair.2).bestSx = 2 ∧ (search fl pair.1 pair.2).bestSy = -1 := by
  intro pair
  have hdx : |(2 : ℤ)| ≤ searchRadius 9 9 := by decide
  have hdy : |(-1 : ℤ)| ≤ searchRadius 9 9 := by decide
  obtain ⟨hbest, hfirst⟩ := search_of_exact hdx hdy
    (ssdShift_syntheticCur fl (by decide) (by decide) (fillRandomishGrey8 9 9) hdx hdy)
  exact ⟨hbest, Prod.mk.inj (only_buildSyntheticGreyPair fl hfirst.searched hfirst.exact)⟩

/-- The shift of a small pair is recovered. -/
theorem main_syntheticCur_recovered :
    ∃ report, main .exact (9 : ℕ) (9 : ℕ) (some (buildSyntheticGreyPair 9 9 2 (-1)).1.toArray)
      (some (buildSyntheticGreyPair 9 9 2 (-1)).2.toArray) = .ok report ∧
        report.mse = 0 ∧ report.dx = 2 ∧ report.dy = -1 := by
  have hdx : |(2 : ℤ)| ≤ searchRadius 9 9 := by decide
  have hdy : |(-1 : ℤ)| ≤ searchRadius 9 9 := by decide
  obtain ⟨_, report, hmain, hmse, _, honly, _⟩ := main_syntheticCur .exact (by decide) (by decide) (by decide) (by decide)
    (fillRandomishGrey8 9 9) hdx hdy
  exact ⟨report, hmain, hmse, honly fun s hs => only_buildSyntheticGreyPair .exact hs⟩

end Annotations.Motion
