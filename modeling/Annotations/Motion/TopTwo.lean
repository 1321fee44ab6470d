import Annotations.Motion.Sums
import Annotations.Text.Decimal
import Mathlib

/-! The best error and the runner-up. The search keeps the two least of the errors seen, with
multiplicity, and the confidence that it derives is zero unless the least stands alone. -/

namespace Annotations.Motion

/-! ### The running top two -/

/-- The two least members of a list, with multiplicity. -/
def twoLeast (errors : List ℚ) : List ℚ := (errors.insertionSort (· ≤ ·)).take 2

theorem twoLeast_perm {errors errors' : List ℚ} (h : errors.Perm errors') : twoLeast errors = twoLeast errors' := by
  have hsorted : errors.insertionSort (· ≤ ·) = errors'.insertionSort (· ≤ ·) :=
    ((errors.perm_insertionSort _).trans (h.trans (errors'.perm_insertionSort _).symm)).eq_of_pairwise'
      (errors.pairwise_insertionSort _) (errors'.pairwise_insertionSort _)
  rw [twoLeast, hsorted, twoLeast]

/-- What exceeds every error of two or more does not count. -/
theorem twoLeast_append_of_le {errors above : List ℚ} (hlength : 2 ≤ errors.length) (habove : above.Pairwise (· ≤ ·))
    (hle : ∀ e ∈ errors, ∀ a ∈ above, e ≤ a) : twoLeast (errors ++ above) = twoLeast errors := by
  have hsorted : (errors ++ above).insertionSort (· ≤ ·) = errors.insertionSort (· ≤ ·) ++ above := by
    refine (((errors ++ above).perm_insertionSort _).trans ((errors.perm_insertionSort _).symm.append_right _)).eq_of_pairwise'
      ((errors ++ above).pairwise_insertionSort _) ?_
    refine List.pairwise_append.mpr ⟨errors.pairwise_insertionSort _, habove, ?_⟩
    intro e he
    exact hle e ((errors.perm_insertionSort _).mem_iff.mp he)
  rw [twoLeast, hsorted, List.take_append_of_le_length (by rwa [List.length_insertionSort]), twoLeast]

namespace Search

variable {s : Search} {errors : List ℚ}

theorem twoLeast_consider (h : twoLeast errors = [s.best, s.second]) (shift : ℤ × ℤ) (e : ℚ) :
    twoLeast (e :: errors) = [(s.consider shift e).best, (s.consider shift e).second] := by
  have hsorted := errors.pairwise_insertionSort (· ≤ ·)
  obtain ⟨rest, hrest⟩ : ∃ rest, errors.insertionSort (· ≤ ·) = s.best :: s.second :: rest :=
    ⟨_, ((List.take_append_drop 2 _).symm.trans (congrArg (· ++ _) h))⟩
  rw [hrest] at hsorted
  have hle : s.best ≤ s.second := (List.pairwise_cons.mp hsorted).1 _ (List.mem_cons_self ..)
  unfold twoLeast consider
  rw [List.insertionSort_cons, hrest]
  simp only [List.orderedInsert_cons]
  rcases lt_trichotomy e s.best with hlt | heq | hgt
  · rw [if_pos hlt.le, if_pos hlt]
    rfl
  · -- a tie with the best: the least value is kept twice
    rw [if_pos heq.le, if_neg heq.not_lt]
    split_ifs with hsecond
    · rw [heq]
      rfl
    · have hsame : s.second = s.best := le_antisymm (by rw [← heq]; exact not_lt.mp hsecond) hle
      rw [heq, hsame]
      rfl
  · rw [if_neg (not_le.mpr hgt), if_neg (not_lt.mpr hgt.le)]
    rcases lt_trichotomy e s.second with hlt | heq | hgt'
    · rw [if_pos hlt.le, if_pos hlt]
      rfl
    · rw [if_pos heq.le, if_neg heq.not_lt, heq]
      rfl
    · rw [if_neg (not_le.mpr hgt'), if_neg (not_lt.mpr hgt'.le)]
      rfl

/-- The invariant of the two loops. -/
theorem twoLeast_visit {err : ℤ × ℤ → ℚ} (h : twoLeast errors = [s.best, s.second]) (visited : List (ℤ × ℤ)) :
    twoLeast (visited.map err ++ errors) = [(s.visit err visited).best, (s.visit err visited).second] := by
  induction visited generalizing s errors with
  | nil => exact h
  | cons shift rest ih =>
    rw [visit_cons, ← ih (twoLeast_consider h shift (err shift))]
    exact twoLeast_perm List.perm_middle.symm

end Search

/-! ### The window of the search -/

/-- The shifts of at most `m` along each axis. -/
noncomputable def window (m : ℕ) : Finset (ℤ × ℤ) := Finset.Icc (-(m : ℤ)) m ×ˢ Finset.Icc (-(m : ℤ)) m

theorem mem_window {m : ℕ} {shift : ℤ × ℤ} : shift ∈ window m ↔ shift ∈ shifts m := by
  simp only [window, Finset.mem_product, Finset.mem_Icc, mem_shifts, abs_le]

theorem ScanBefore.ne {s t : ℤ × ℤ} (h : ScanBefore s t) : s ≠ t := by
  rintro rfl
  rcases h with hlt | ⟨_, hlt⟩ <;> exact lt_irrefl _ hlt

/-- The loops visit the window, each shift once. -/
theorem coe_shifts (m : ℕ) : ((shifts m : List (ℤ × ℤ)) : Multiset (ℤ × ℤ)) = (window m).val := by
  have hnodup : (shifts m).Nodup := (shifts_pairwise m).imp ScanBefore.ne
  refine (Multiset.Nodup.ext (Multiset.coe_nodup.mpr hnodup) (window m).nodup).mpr ?_
  intro shift
  exact mem_window.symm

theorem length_shifts (m : ℕ) : (shifts m).length = (2 * m + 1) * (2 * m + 1) := by
  simp [shifts, span, List.length_flatMap, Function.comp_def]

theorem two_le_length_shifts (w h : ℕ) : 2 ≤ (shifts (searchRadius w h)).length := by
  have hradius : 4 ≤ searchRadius w h := by
    simp only [searchRadius]
    split_ifs <;> omega
  have hside : 2 ≤ 2 * searchRadius w h + 1 := by omega
  rw [length_shifts]
  exact hside.trans (Nat.le_mul_of_pos_right _ (by omega))

/-- The two least errors of the window are those of the list that the loops visit. -/
theorem sort_window (m : ℕ) (err : ℤ × ℤ → ℚ) :
    (((window m).val.map err).sort (· ≤ ·)).take 2 = twoLeast ((shifts m).map err) := by
  rw [← coe_shifts, Multiset.map_coe, Multiset.coe_sort, List.mergeSort_eq_insertionSort, twoLeast]

/-! ### The result of the search -/

variable (fl : DoubleRounding) {w h : ℕ}

/-- The square sum of a shift over its count: what the error rounds. -/
def mean (prev cur : Grey8 w h) (shift : ℤ × ℤ) : ℚ :=
  squares (difference prev cur shift.1 shift.2) (overlap w h shift.1 shift.2) / (overlap w h shift.1 shift.2).length

theorem mean_le (prev cur : Grey8 w h) (shift : ℤ × ℤ) : mean prev cur shift ≤ 65025 := by
  unfold mean
  refine div_le_of_le_mul₀ (Nat.cast_nonneg _) (by norm_num) ?_
  exact_mod_cast squares_le (abs_difference_le prev cur shift.1 shift.2) _

/-- A mean that is not zero is far above the least normal number. -/
theorem mean_eq_zero_or_le (hw : w ≤ 4096) (hh : h ≤ 4096) (prev cur : Grey8 w h) (shift : ℤ × ℤ) :
    mean prev cur shift = 0 ∨ (2 : ℚ) ^ (-24 : ℤ) ≤ mean prev cur shift := by
  have hnonneg := squares_nonneg (difference prev cur shift.1 shift.2) (overlap w h shift.1 shift.2)
  rcases hnonneg.eq_or_lt with hzero | hpos
  · exact .inl (by rw [mean, ← hzero, Int.cast_zero, zero_div])
  rcases Nat.eq_zero_or_pos (overlap w h shift.1 shift.2).length with hempty | hlength
  · exact .inl (by rw [mean, hempty, Nat.cast_zero, div_zero])
  right
  have hcount : ((overlap w h shift.1 shift.2).length : ℚ) ≤ 2 ^ 24 := by
    exact_mod_cast length_overlap_le hw hh shift.1 shift.2
  have hone : (1 : ℚ) ≤ squares (difference prev cur shift.1 shift.2) (overlap w h shift.1 shift.2) := by
    exact_mod_cast hpos
  unfold mean
  rw [le_div_iff₀ (by exact_mod_cast hlength)]
  calc (2 : ℚ) ^ (-24 : ℤ) * (overlap w h shift.1 shift.2).length ≤ 2 ^ (-24 : ℤ) * 2 ^ 24 :=
        mul_le_mul_of_nonneg_left hcount (by positivity)
    _ = 1 := by norm_num
    _ ≤ _ := hone

variable {fl} in
/-- Every error of the window is below the value that the search starts from. -/
theorem ssdShift_lt_start (hw : 8 < w) (hw' : w ≤ 4096) (hh : 8 < h) (hh' : h ≤ 4096) (prev cur : Grey8 w h)
    {shift : ℤ × ℤ} (hshift : shift ∈ shifts (searchRadius w h)) :
    ssdShift fl prev cur shift.1 shift.2 < fl.round (10 ^ 300) := by
  obtain ⟨hsx, hsy⟩ := mem_shifts.mp hshift
  have hle : fl.round (mean prev cur shift) ≤ 65025 :=
    (fl.mono (mean_le prev cur shift)).trans_eq (by exact_mod_cast fl.round_intCast 65025 (by norm_num))
  have hstart : (65026 : ℚ) ≤ fl.round (10 ^ 300) := by
    have hkept : fl.round 65026 = 65026 := by exact_mod_cast fl.round_intCast 65026 (by norm_num)
    rw [← hkept]
    exact fl.mono ((by norm_num : (65026 : ℚ) ≤ 10 ^ 5).trans (pow_le_pow_right₀ (by norm_num) (by norm_num)))
  rw [ssdShift_eq_mean fl hw hw' hh hh' prev cur hsx hsy]
  exact (hle.trans_lt (by norm_num)).trans_le hstart

/-- What a search of the window is to find: the first shift of least error, and the two least
errors, with multiplicity. -/
structure FirstAndRunnerUp (prev cur : Grey8 w h) (s : Search) : Prop where
  searched : (s.bestSx, s.bestSy) ∈ window (searchRadius w h)
  attained : ssdShift fl prev cur s.bestSx s.bestSy = s.best
  least : ∀ shift ∈ window (searchRadius w h), s.best ≤ ssdShift fl prev cur shift.1 shift.2
  first : ∀ shift ∈ window (searchRadius w h), ssdShift fl prev cur shift.1 shift.2 = s.best →
    shift ≠ (s.bestSx, s.bestSy) → ScanBefore (s.bestSx, s.bestSy) shift
  runnerUp : (((window (searchRadius w h)).val.map fun shift => ssdShift fl prev cur shift.1 shift.2).sort (· ≤ ·)).take 2 =
    [s.best, s.second]

theorem search_firstAndRunnerUp (hw : 8 < w) (hw' : w ≤ 4096) (hh : 8 < h) (hh' : h ≤ 4096) (prev cur : Grey8 w h) :
    FirstAndRunnerUp fl prev cur (search fl prev cur) := by
  set err : ℤ × ℤ → ℚ := fun shift => ssdShift fl prev cur shift.1 shift.2 with herr
  have hlength := two_le_length_shifts w h
  have hlt : ∀ shift ∈ shifts (searchRadius w h), err shift < (Search.start fl).best :=
    fun shift hshift => ssdShift_lt_start hw hw' hh hh' prev cur hshift
  have hseen : (search fl prev cur).best < (Search.start fl).best := by
    obtain ⟨shift, hshift⟩ := List.exists_mem_of_length_pos (two_pos.trans_le hlength)
    exact (Search.visit_best_le_error hshift).trans_lt (hlt shift hshift)
  obtain ⟨before, shift, after, hsplit, hsx, hsy, hbest, hbefore⟩ := Search.visit_first hseen
  have hshift : ((search fl prev cur).bestSx, (search fl prev cur).bestSy) = shift := Prod.ext hsx hsy
  refine ⟨?_, ?_, ?_, ?_, ?_⟩
  · rw [hshift, mem_window, hsplit]
    exact List.mem_append_right _ (List.mem_cons_self ..)
  · have hattained := hbest.symm
    rw [← hshift] at hattained
    exact hattained
  · intro other hother
    exact Search.visit_best_le_error (mem_window.mp hother)
  · intro other hother heq hne
    rw [hshift] at hne ⊢
    rw [mem_window] at hother
    have horder := shifts_pairwise (searchRadius w h)
    rw [hsplit] at hother horder
    rcases List.mem_append.mp hother with hmem | hmem
    · -- an earlier shift has a greater error
      have hgreater := hbefore other hmem
      rw [← hbest] at hgreater
      exact absurd heq hgreater.ne'
    · exact (List.pairwise_cons.mp (List.pairwise_append.mp horder).2.1).1 other
        ((List.mem_cons.mp hmem).resolve_left hne)
  · -- the sentinels that the search starts from exceed every error
    have hstart : twoLeast [(Search.start fl).best, (Search.start fl).second] =
        [(Search.start fl).best, (Search.start fl).second] := by
      simp [twoLeast, Search.start]
    have hdrop : twoLeast ((shifts (searchRadius w h)).map err ++ [(Search.start fl).best, (Search.start fl).second]) =
        twoLeast ((shifts (searchRadius w h)).map err) := by
      refine twoLeast_append_of_le (by rwa [List.length_map]) (by simp [Search.start]) ?_
      intro e he a ha
      obtain ⟨other, hother, rfl⟩ := List.mem_map.mp he
      have hsentinel : a = (Search.start fl).best := by simpa [Search.start] using ha
      rw [hsentinel]
      exact (hlt other hother).le
    rw [sort_window, ← hdrop]
    exact Search.twoLeast_visit hstart (shifts (searchRadius w h))

/-! ### The confidence of a tie -/

/-- A mean, rounded, does not exceed its own product with the margin of the separation. -/
theorem round_mean_le_margin (hw : w ≤ 4096) (hh : h ≤ 4096) (prev cur : Grey8 w h) (shift : ℤ × ℤ) :
    fl.round (mean prev cur shift) ≤ fl.round (fl.round (mean prev cur shift) * fl.round 1.0000001) := by
  rcases mean_eq_zero_or_le hw hh prev cur shift with hzero | hlow
  · rw [hzero, fl.round_zero, zero_mul, fl.round_zero]
  -- the margin exceeds what the two roundings lose
  refine fl.mono ?_
  have hpos : 0 < mean prev cur shift := lt_of_lt_of_le (by positivity) hlow
  have hmean := fl.mul_le_round (le_trans (zpow_le_zpow_right₀ one_le_two (by norm_num)) hlow)
    ((mean_le prev cur shift).trans_lt (lt_of_lt_of_le (by norm_num : (65025 : ℚ) < 2 ^ (16 : ℤ))
      (zpow_le_zpow_right₀ one_le_two (by norm_num))))
  have hmargin := fl.mul_le_round (x := 1.0000001)
    (le_trans (zpow_le_one_of_nonpos₀ one_le_two (by norm_num)) (by norm_num))
    (lt_of_lt_of_le (by norm_num : (1.0000001 : ℚ) < 2 ^ (1 : ℤ)) (zpow_le_zpow_right₀ one_le_two (by norm_num)))
  have hlost : (1 : ℚ) ≤ (1 - 2 ^ (-52 : ℤ)) * (1.0000001 * (1 - 2 ^ (-52 : ℤ))) := by norm_num
  calc mean prev cur shift ≤ mean prev cur shift * ((1 - 2 ^ (-52 : ℤ)) * (1.0000001 * (1 - 2 ^ (-52 : ℤ)))) :=
        le_mul_of_one_le_right hpos.le hlost
    _ = mean prev cur shift * (1 - 2 ^ (-52 : ℤ)) * (1.0000001 * (1 - 2 ^ (-52 : ℤ))) := (mul_assoc ..).symm
    _ ≤ fl.round (mean prev cur shift) * fl.round 1.0000001 :=
        mul_le_mul hmean hmargin (by norm_num) (fl.round_nonneg hpos.le)

theorem confidence_mem_unit (best second : ℚ) : 0 ≤ confidence fl best second ∧ confidence fl best second ≤ 1 := by
  have hquarter : ∀ c : ℚ, 0 ≤ c ∧ c ≤ 1 → 0 ≤ fl.round (c * 0.25) ∧ fl.round (c * 0.25) ≤ 1 := by
    intro c hc
    have hone : fl.round 1 = 1 := by exact_mod_cast fl.round_intCast 1 (by norm_num)
    have hle : fl.round (c * 0.25) ≤ fl.round 1 := fl.mono (by linarith)
    exact ⟨fl.round_nonneg (by linarith), hle.trans_eq hone⟩
  have hclamp : ∀ c : ℚ, 0 ≤ (if 1 < (if c < 0 then 0 else c) then 1 else if c < 0 then 0 else c) ∧
      (if 1 < (if c < 0 then 0 else c) then 1 else if c < 0 then 0 else c) ≤ 1 := by
    intro c
    split_ifs <;> constructor <;> linarith
  unfold confidence
  dsimp only
  by_cases hflat : best < fl.round 1e-6
  · rw [if_pos hflat]
    exact hquarter _ (hclamp _)
  · rw [if_neg hflat]
    exact hclamp _

theorem confidence_tie {best : ℚ} (hmargin : best ≤ fl.round (best * fl.round 1.0000001)) :
    confidence fl best best = 0 := by
  have hsep : ¬ (fl.round (best * fl.round 1.0000001) < best ∧ best < fl.round (10 ^ 290)) :=
    fun h => absurd h.1 (not_lt.mpr hmargin)
  unfold confidence
  rw [if_neg hsep]
  norm_num

/-! ### The report -/

/-- The digits that `%.nf` prints: the nearest number of `n` decimals, in units of the last. -/
def printed (n : ℕ) (x : ℚ) : ℤ := Text.roundHalfEven (x * 10 ^ n)

theorem printed_intCast (n : ℕ) (k : ℤ) : printed n k = k * 10 ^ n := by
  unfold printed
  exact_mod_cast Text.roundHalfEven_intCast (k * 10 ^ n)

theorem printed_mono (n : ℕ) : Monotone (printed n) := fun _ _ h =>
  Text.roundHalfEven_mono (mul_le_mul_of_nonneg_right h (by positivity))

theorem printed_zero (n : ℕ) : printed n 0 = 0 := by
  simpa using printed_intCast n 0

theorem printed_mem_unit (n : ℕ) {x : ℚ} (hx : 0 ≤ x) (hx' : x ≤ 1) : 0 ≤ printed n x ∧ printed n x ≤ 10 ^ n := by
  have hone : printed n 1 = 10 ^ n := by simpa using printed_intCast n 1
  exact ⟨(printed_zero n).symm.trans_le (printed_mono n hx), (printed_mono n hx').trans_eq hone⟩

/-- Two shifts of the window have the least error. -/
def Tied (prev cur : Grey8 w h) (s : Search) : Prop :=
  ∃ shift ∈ window (searchRadius w h), ∃ other ∈ window (searchRadius w h), shift ≠ other ∧
    ssdShift fl prev cur shift.1 shift.2 = s.best ∧ ssdShift fl prev cur other.1 other.2 = s.best

namespace FirstAndRunnerUp

variable {fl} {prev cur : Grey8 w h} {s : Search}

theorem sorted (hs : FirstAndRunnerUp fl prev cur s) :
    ∃ rest : List ℚ, (s.best :: s.second :: rest).Pairwise (· ≤ ·) ∧
      (window (searchRadius w h)).val.map (fun shift => ssdShift fl prev cur shift.1 shift.2) =
        s.best ::ₘ s.second ::ₘ (rest : Multiset ℚ) := by
  set errors := (window (searchRadius w h)).val.map fun shift => ssdShift fl prev cur shift.1 shift.2
  obtain ⟨rest, hrest⟩ : ∃ rest, errors.sort (· ≤ ·) = s.best :: s.second :: rest :=
    ⟨_, (List.take_append_drop 2 _).symm.trans (congrArg (· ++ _) hs.runnerUp)⟩
  have hsorted := errors.pairwise_sort (· ≤ ·)
  have heq := errors.sort_eq (· ≤ ·)
  rw [hrest] at hsorted heq
  exact ⟨rest, hsorted, heq.symm⟩

theorem best_le_second (hs : FirstAndRunnerUp fl prev cur s) : s.best ≤ s.second := by
  obtain ⟨rest, hsorted, _⟩ := hs.sorted
  exact (List.pairwise_cons.mp hsorted).1 _ (List.mem_cons_self ..)

/-- A tie makes the runner-up equal to the best. -/
theorem second_of_tied (hs : FirstAndRunnerUp fl prev cur s) (htied : Tied fl prev cur s) : s.second = s.best := by
  obtain ⟨shift, hshift, other, hother, hne, hbest, hbest'⟩ := htied
  obtain ⟨rest, hsorted, herrors⟩ := hs.sorted
  obtain ⟨others, hothers⟩ := Multiset.exists_cons_of_mem (Finset.mem_val.mpr hshift)
  have hmem : other ∈ others := by
    have hmem' := Finset.mem_val.mpr hother
    rw [hothers, Multiset.mem_cons] at hmem'
    exact hmem'.resolve_left hne.symm
  -- the least error is left when one of its shifts is taken out
  rw [hothers, Multiset.map_cons, hbest, Multiset.cons_inj_right] at herrors
  have hleft : s.best ∈ s.second ::ₘ (rest : Multiset ℚ) :=
    herrors ▸ Multiset.mem_map.mpr ⟨other, hmem, hbest'⟩
  rw [List.pairwise_cons, List.pairwise_cons] at hsorted
  have hle : s.second ≤ s.best := by
    rcases Multiset.mem_cons.mp hleft with heq | hlater
    · exact heq.ge
    · exact hsorted.2.1 _ (Multiset.mem_coe.mp hlater)
  exact le_antisymm hle hs.best_le_second

/-- And only a tie does. -/
theorem best_lt_second (hs : FirstAndRunnerUp fl prev cur s) (hsingle : ¬ Tied fl prev cur s) : s.best < s.second := by
  refine lt_of_le_of_ne hs.best_le_second fun hsecond => hsingle ?_
  obtain ⟨rest, _, herrors⟩ := hs.sorted
  have hshift := Finset.mem_val.mpr hs.searched
  obtain ⟨others, hothers⟩ := Multiset.exists_cons_of_mem hshift
  rw [hothers, Multiset.map_cons, hs.attained, Multiset.cons_inj_right, ← hsecond] at herrors
  have hleft : s.best ∈ others.map fun shift => ssdShift fl prev cur shift.1 shift.2 :=
    herrors ▸ Multiset.mem_cons_self ..
  obtain ⟨other, hother, hbest⟩ := Multiset.mem_map.mp hleft
  have hnodup := (window (searchRadius w h)).nodup
  rw [hothers, Multiset.nodup_cons] at hnodup
  have hmem : other ∈ window (searchRadius w h) :=
    Finset.mem_val.mp (hothers ▸ Multiset.mem_cons_of_mem hother)
  exact ⟨_, hs.searched, other, hmem, fun heq => hnodup.1 (heq ▸ hother), hs.attained, hbest⟩

end FirstAndRunnerUp

theorem confidence_of_tied (hw : 8 < w) (hw' : w ≤ 4096) (hh : 8 < h) (hh' : h ≤ 4096) (prev cur : Grey8 w h)
    (htied : Tied fl prev cur (search fl prev cur)) :
    confidence fl (search fl prev cur).best (search fl prev cur).second = 0 := by
  have hfound := search_firstAndRunnerUp fl hw hw' hh hh' prev cur
  have hshift := mem_window.mp hfound.searched
  obtain ⟨hsx, hsy⟩ := mem_shifts.mp hshift
  have hmean : (search fl prev cur).best =
      fl.round (mean prev cur ((search fl prev cur).bestSx, (search fl prev cur).bestSy)) := by
    rw [← hfound.attained, ssdShift_eq_mean fl hw hw' hh hh' prev cur hsx hsy]
    rfl
  rw [hfound.second_of_tied htied, hmean]
  exact confidence_tie fl (round_mean_le_margin fl hw' hh' prev cur _)

/-- On every input that it accepts, the helper reports the first shift of least error; the search
has the two least errors, and the confidence is within its bounds and is zero on a tie. -/
theorem main_firstAndRunnerUp {w h : ℤ} {prevFile curFile : Option (Array UInt8)} {report : Report}
    (hmain : main fl w h prevFile curFile = .ok report) :
    ∃ prev cur : Grey8 w.toNat h.toNat,
      readRaw prevFile (w.toNat * h.toNat) = some prev ∧ readRaw curFile (w.toNat * h.toNat) = some cur ∧
        report = (search fl prev cur).report fl ∧ FirstAndRunnerUp fl prev cur (search fl prev cur) ∧
        (0 ≤ report.c ∧ report.c ≤ 1) ∧ (0 ≤ printed 6 report.c ∧ printed 6 report.c ≤ 10 ^ 6) ∧
        (Tied fl prev cur (search fl prev cur) →
          (search fl prev cur).second = (search fl prev cur).best ∧ report.c = 0 ∧ printed 6 report.c = 0) := by
  unfold main at hmain
  split_ifs at hmain with hdims
  split at hmain
  next prev cur hprev hcur =>
    obtain rfl := Except.ok.inj hmain
    have hw : 8 < w.toNat ∧ w.toNat ≤ 4096 := by omega
    have hh : 8 < h.toNat ∧ h.toNat ≤ 4096 := by omega
    have hfound := search_firstAndRunnerUp fl hw.1 hw.2 hh.1 hh.2 prev cur
    have hunit := confidence_mem_unit fl (search fl prev cur).best (search fl prev cur).second
    have hreport : ((search fl prev cur).report fl).c =
        confidence fl (search fl prev cur).best (search fl prev cur).second := rfl
    refine ⟨prev, cur, hprev, hcur, rfl, hfound, ?_⟩
    rw [hreport]
    refine ⟨hunit, printed_mem_unit 6 hunit.1 hunit.2, ?_⟩
    intro htied
    have hzero := confidence_of_tied fl hw.1 hw.2 hh.1 hh.2 prev cur htied
    rw [hzero]
    exact ⟨hfound.second_of_tied htied, rfl, printed_zero 6⟩
  next => cases hmain

/-- A pair with one shift of error zero. -/
theorem main_firstAndRunnerUp_shifted :
    let pair := buildSyntheticGreyPair 9 9 2 (-1)
    ∃ report, main .exact (9 : ℕ) (9 : ℕ) (some pair.1.toArray) (some pair.2.toArray) = .ok report ∧
      report.dx = 2 ∧ report.dy = -1 ∧ 0 ≤ printed 6 report.c ∧ printed 6 report.c ≤ 10 ^ 6 ∧
      FirstAndRunnerUp .exact pair.1 pair.2 (search .exact pair.1 pair.2) ∧
        (search .exact pair.1 pair.2).best = 0 ∧ 0 < (search .exact pair.1 pair.2).second := by
  -- the images are named, so that they are not computed again
  suffices hnamed : ∀ prev cur : Grey8 9 9, (search .exact prev cur).best = 0 ∧ (search .exact prev cur).bestSx = 2 ∧
      (search .exact prev cur).bestSy = -1 →
      (∀ shift ∈ shifts (searchRadius 9 9), ssdShift .exact prev cur shift.1 shift.2 = 0 → shift = (2, -1)) →
      ∃ report, main .exact (9 : ℕ) (9 : ℕ) (some prev.toArray) (some cur.toArray) = .ok report ∧
        report.dx = 2 ∧ report.dy = -1 ∧ 0 ≤ printed 6 report.c ∧ printed 6 report.c ≤ 10 ^ 6 ∧
        FirstAndRunnerUp .exact prev cur (search .exact prev cur) ∧
          (search .exact prev cur).best = 0 ∧ 0 < (search .exact prev cur).second from
    hnamed _ _ (search_buildSyntheticGreyPair .exact) fun _ => only_buildSyntheticGreyPair .exact
  rintro prev cur ⟨hbest, hdx, hdy⟩ honly
  have hmain : main .exact (9 : ℕ) (9 : ℕ) (some prev.toArray) (some cur.toArray) =
      .ok ((search .exact prev cur).report .exact) :=
    main_files (by decide) (by decide) (by decide) (by decide)
  obtain ⟨prev', cur', hprev, hcur, _, hfound, _, hprinted, _⟩ := main_firstAndRunnerUp .exact hmain
  obtain rfl : prev = prev' := Option.some.inj ((readRaw_toArray prev).symm.trans hprev)
  obtain rfl : cur = cur' := Option.some.inj ((readRaw_toArray cur).symm.trans hcur)
  refine ⟨_, hmain, hdx, hdy, hprinted.1, hprinted.2, hfound, hbest, ?_⟩
  rw [← hbest]
  refine hfound.best_lt_second ?_
  rintro ⟨shift, hshift, other, hother, hne, hexact, hexact'⟩
  exact hne ((honly shift (mem_window.mp hshift) (hexact.trans hbest)).trans
    (honly other (mem_window.mp hother) (hexact'.trans hbest)).symm)

end Annotations.Motion
