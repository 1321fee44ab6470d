import Annotations.Kate.Returning

/-! The height of a line that the tracker measures. It divides the way of character 0 by the way of
the scrollbar, each from a base value of its own, and nothing makes the two base values be of
one scroll position. A retry of the discovery also replaces the height that was measured. -/

namespace Annotations

open Atspi Runs

variable {K : Type} [Scalar K] [FloorRing K]

/-- From the base values of `v₁` and `v₂`, at `v`, the height of a line is measured where lines are
`H` high. -/
structure SmallScroll (H v₁ v₂ v : K) : Prop where
  one_le : 1 ≤ |v - v₂|
  le_three : |v - v₂| ≤ 3
  eight_le : 8 * |v - v₂| ≤ H * |v - v₁|
  le_eighty : H * |v - v₁| ≤ 80 * |v - v₂|

namespace KateWindowTracker

/-- The tracker after a callback. -/
def advance (t : KateWindowTracker K) (e : TrackerEvent K) : KateWindowTracker K := (t.handle e).1

/-- The callback reads a document with lines of height `H` at some scroll position `v`: the
scrollbar, where it is read, is at `v`, and character 0, where it is, at `c - H * v`. -/
def ReadsDocument (c H : K) (t : KateWindowTracker K) (e : TrackerEvent K) : Prop :=
  ∀ t', t.scrollSite e = some t' → ∃ v, (∀ x, t'.sbVal e.view = some x → x = v) ∧
    ∀ rect ed, t'.charExtents e.view = some (rect, ed) → ((rect.y - ed.y : ℤ) : K) = c - H * v

/-- Before the calibration, a height is only measured from base values of one scroll position, or
halfway between the two. After it, a retry reads no height, or the right one. -/
structure Calibrates (c H : K) (t : KateWindowTracker K) (e : TrackerEvent K) : Prop where
  base : t.lineHeightCalibrated = false → ∀ t', t.scrollSite e = some t' →
    ∀ base v₁ v₂ v, t'.charBaseYRel = some base → (base : K) = c - H * v₁ → t'.baseSbVal = some v₂ →
      t'.sbVal e.view = some v → (t'.charExtents e.view).isSome → SmallScroll H v₁ v₂ v →
      v₁ = v₂ ∨ v + v = v₁ + v₂
  height : t.lineHeightCalibrated = true → ∀ view minimized, e = .retry view minimized →
    ∀ t' rect ed, t.scrollSite e = some t' → t'.charExtents view = some (rect, ed) → 0 < rect.height →
      (rect.height : K) = H

/-- The height of character 0, if it has one. -/
def heightRead (t : KateWindowTracker K) (view : View K) : Option K :=
  (t.charExtents view).bind fun extents => if extents.1.height > 0 then some (extents.1.height : K) else none

/-- A measured height is the height of a line. -/
def Measured (H : K) (t : KateWindowTracker K) : Prop := t.lineHeightCalibrated = true → t.lineHeight = H

/-- A height is measured from base values, and these stay. -/
def Based (t : KateWindowTracker K) : Prop :=
  t.lineHeightCalibrated = true → t.charBaseYRel.isSome ∧ t.baseSbVal.isSome

variable {t t' : KateWindowTracker K} {e : TrackerEvent K} {view : View K} {minimized : Bool}
  {c H base v₁ v₂ v : K}

/-! ### What a measurement gives -/

omit [FloorRing K] in
theorem quotient_eq_iff (hH : 0 < H) (hv : 1 ≤ |v - v₂|) :
    H * |v - v₁| / |v - v₂| = H ↔ v₁ = v₂ ∨ v + v = v₁ + v₂ := by
  have hpos : 0 < |v - v₂| := zero_lt_one.trans_le hv
  rw [div_eq_iff hpos.ne', mul_right_inj' hH.ne', abs_eq_abs]
  constructor
  · rintro (h | h)
    · exact .inl (sub_right_injective h)
    · exact .inr (by linear_combination h)
  · rintro (h | h)
    · exact .inl (by rw [h])
    · exact .inr (by linear_combination h)

omit [FloorRing K] in
theorem measured_of_positions {base : ℤ} {rect ed : Rect} (hcalibrated : t.lineHeightCalibrated = false) (hH : 0 < H)
    (hbase : t.charBaseYRel = some base) (hv₁ : (base : K) = c - H * v₁) (hsb : t.baseSbVal = some v₂)
    (hval : t.sbVal view = some v) (hchar : t.charExtents view = some (rect, ed))
    (hy : ((rect.y - ed.y : ℤ) : K) = c - H * v) (m : K) :
    t.measured view = some m ↔ SmallScroll H v₁ v₂ v ∧ m = H * |v - v₁| / |v - v₂| := by
  have htext : t.textDelta view = some (base - (rect.y - ed.y)) := by simp [textDelta, hbase, hchar]
  have hdelta : t.sbDelta view = some (v - v₂) := by simp [sbDelta, hsb, hval]
  have hway : ((base - (rect.y - ed.y) : ℤ) : K) = H * (v - v₁) := by
    rw [Int.cast_sub, hv₁, hy]
    ring
  have habs : |((base - (rect.y - ed.y) : ℤ) : K) / (v - v₂)| = H * |v - v₁| / |v - v₂| := by
    rw [hway, abs_div, abs_mul, abs_of_pos hH]
  have hgate : (1 ≤ |v - v₂| ∧ |v - v₂| ≤ 3 ∧ base - (rect.y - ed.y) ≠ 0) ∧
      8 ≤ H * |v - v₁| / |v - v₂| ∧ H * |v - v₁| / |v - v₂| ≤ 80 ↔ SmallScroll H v₁ v₂ v := by
    constructor
    · rintro ⟨⟨hone, hthree, -⟩, height, heighty⟩
      have hpos : 0 < |v - v₂| := zero_lt_one.trans_le hone
      exact ⟨hone, hthree, (le_div_iff₀ hpos).mp height, (div_le_iff₀ hpos).mp heighty⟩
    · intro h
      have hpos : 0 < |v - v₂| := zero_lt_one.trans_le h.one_le
      refine ⟨⟨h.one_le, h.le_three, fun hzero => ?_⟩, (le_div_iff₀ hpos).mpr h.eight_le,
        (div_le_iff₀ hpos).mpr h.le_eighty⟩
      rw [hzero, Int.cast_zero, zero_eq_mul, or_iff_right hH.ne'] at hway
      have height := h.eight_le
      rw [hway, abs_zero, mul_zero] at height
      linarith
  simp only [measured, htext, hdelta, hcalibrated, habs, Bool.not_false, true_and]
  rw [Option.ite_none_right_eq_some, Option.ite_none_right_eq_some, ← hgate, Option.some_inj, eq_comm]
  tauto

omit [FloorRing K] in
/-- What a measurement has read. -/
theorem exists_of_measured {m : K} (h : t.measured view = some m) :
    t.lineHeightCalibrated = false ∧ (∃ base, t.charBaseYRel = some base) ∧ (∃ v₂, t.baseSbVal = some v₂) ∧
      (∃ v, t.sbVal view = some v) ∧ ∃ extents, t.charExtents view = some extents := by
  unfold measured at h
  split at h
  next text sb htext hsb =>
    obtain ⟨base, hbase, htext⟩ := Option.bind_eq_some_iff.mp htext
    obtain ⟨extents, hextents, -⟩ := Option.map_eq_some_iff.mp htext
    obtain ⟨v₂, hv₂, hsb⟩ := Option.bind_eq_some_iff.mp hsb
    obtain ⟨v, hv, -⟩ := Option.map_eq_some_iff.mp hsb
    split_ifs at h with hgate
    exact ⟨by simpa using hgate.1, ⟨base, hbase⟩, ⟨v₂, hv₂⟩, ⟨v, hv⟩, ⟨extents, hextents⟩⟩
  next => cases h

omit [FloorRing K] in
theorem capturedHeight_eq : t.capturedHeight view = (t.heightRead view).getD t.lineHeight := by
  unfold capturedHeight heightRead
  cases t.charExtents view with
  | none => rfl
  | some extents => by_cases hheight : extents.1.height > 0 <;> simp [hheight]

/-! ### What a callback changes -/

/-- `_republishScroll` calibrates, also where there is no editor and so nothing to measure. -/
theorem meter_republishScroll (view : View K) : ((t.republishScroll view).1.lineHeight = (t.measured view).getD t.lineHeight ∧
      (t.republishScroll view).1.lineHeightCalibrated = (t.lineHeightCalibrated || (t.measured view).isSome)) ∧
    (t.republishScroll view).1.charBaseYRel = t.charBaseYRel ∧ (t.republishScroll view).1.baseSbVal = t.baseSbVal := by
  by_cases heditor : t.editor.isSome
  · rw [republishScroll_eq heditor, calibrate_eq]
    exact ⟨⟨rfl, rfl⟩, rfl, rfl⟩
  · have hnone : t.editor = none := by simpa using heditor
    have hmeasured : t.measured view = none := by simp [measured, textDelta, charExtents, hnone]
    rw [republishScroll_of_no_editor hnone, hmeasured]
    simp

theorem advance_of_scrollSite (h : t.scrollSite e = some t') :
    ((t.advance e).lineHeight = (t'.measured e.view).getD t'.lineHeight ∧
      (t.advance e).lineHeightCalibrated = (t'.lineHeightCalibrated || (t'.measured e.view).isSome)) ∧
    (t.advance e).charBaseYRel = t'.charBaseYRel ∧ (t.advance e).baseSbVal = t'.baseSbVal := by
  have hmeter := (handle_of_scrollSite h).1
  obtain ⟨⟨hheight, hcalibrated⟩, hbase, hsb⟩ := meter_republishScroll (t := t') e.view
  refine ⟨⟨?_, ?_⟩, ?_, ?_⟩
  · exact (congrArg (fun m : Meter K => m.lineHeight) hmeter).trans hheight
  · exact (congrArg Meter.lineHeightCalibrated hmeter).trans hcalibrated
  · exact (congrArg Meter.charBaseYRel hmeter).trans hbase
  · exact (congrArg (fun m : Meter K => m.baseSbVal) hmeter).trans hsb

theorem advance_of_no_scrollSite (h : t.scrollSite e = none) : (t.advance e).meter = t.meter :=
  (handle_of_no_scrollSite h).1

omit [FloorRing K] in
/-- On the way to `_republishScroll` the tracker stays calibrated or not, and base values stay. -/
theorem scrollSite_calibration (h : t.scrollSite e = some t') :
    t'.lineHeightCalibrated = t.lineHeightCalibrated ∧ (t.charBaseYRel.isSome → t'.charBaseYRel.isSome) ∧
      (t.baseSbVal.isSome → t'.baseSbVal.isSome) := by
  obtain ⟨t₀, sig, hmeter, -, rfl⟩ := scrollSite_eq h
  have hcalibrated : t₀.lineHeightCalibrated = t.lineHeightCalibrated := congrArg Meter.lineHeightCalibrated hmeter
  have hbase : t₀.charBaseYRel = t.charBaseYRel := congrArg Meter.charBaseYRel hmeter
  have hsb : t₀.baseSbVal = t.baseSbVal := congrArg (fun m : Meter K => m.baseSbVal) hmeter
  rw [← hcalibrated, ← hbase, ← hsb]
  split
  · rw [captureBaseline_eq]
    refine ⟨rfl, fun hsome => ?_, fun hsome => ?_⟩
    · simp [hsome]
    · simp [hsome]
  · exact ⟨rfl, id, id⟩

omit [FloorRing K] in
/-- The height of a line only changes there with a height of character 0 that is captured. -/
theorem lineHeight_of_scrollSite (h : t.scrollSite e = some t') :
    t'.lineHeight = if t.captures e then (t'.heightRead e.view).getD t.lineHeight else t.lineHeight := by
  obtain ⟨t₀, sig, hmeter, -, rfl⟩ := scrollSite_eq h
  have hheight : t₀.lineHeight = t.lineHeight := congrArg (fun m : Meter K => m.lineHeight) hmeter
  rw [← hheight]
  split
  · rw [captureBaseline_eq]
    exact capturedHeight_eq
  · rfl

omit [FloorRing K] in
theorem heightRead_eq_some_iff {height : K} : t.heightRead view = some height ↔
    ∃ rect ed, t.charExtents view = some (rect, ed) ∧ 0 < rect.height ∧ (rect.height : K) = height := by
  unfold heightRead
  rw [Option.bind_eq_some_iff]
  constructor
  · rintro ⟨⟨rect, ed⟩, hchar, h⟩
    split_ifs at h with hheight
    exact ⟨rect, ed, hchar, hheight, Option.some.inj h⟩
  · rintro ⟨rect, ed, hchar, hheight, rfl⟩
    exact ⟨(rect, ed), hchar, if_pos hheight⟩

/-! ### Steps -/

theorem based_advance (hbased : t.Based) : (t.advance e).Based := by
  unfold Based at hbased ⊢
  cases hsite : t.scrollSite e with
  | none =>
    have hmeter := advance_of_no_scrollSite hsite
    have hcalibrated : (t.advance e).lineHeightCalibrated = t.lineHeightCalibrated :=
      congrArg Meter.lineHeightCalibrated hmeter
    have hbase : (t.advance e).charBaseYRel = t.charBaseYRel := congrArg Meter.charBaseYRel hmeter
    have hsb : (t.advance e).baseSbVal = t.baseSbVal := congrArg (fun m : Meter K => m.baseSbVal) hmeter
    rwa [hcalibrated, hbase, hsb]
  | some t' =>
    obtain ⟨⟨-, hcalibrated⟩, hbase, hsb⟩ := advance_of_scrollSite hsite
    obtain ⟨hsame, hkeep, hkeep'⟩ := scrollSite_calibration hsite
    rw [hcalibrated, hbase, hsb, hsame]
    intro h
    rcases Bool.or_eq_true_iff.mp h with h | h
    · exact ⟨hkeep (hbased h).1, hkeep' (hbased h).2⟩
    · obtain ⟨m, hm⟩ := Option.isSome_iff_exists.mp h
      obtain ⟨-, ⟨base, hbase'⟩, ⟨v₂, hv₂⟩, -, -⟩ := exists_of_measured hm
      simp [hbase', hv₂]

omit [Scalar K] [FloorRing K] in
/-- After the calibration only a retry captures. -/
theorem captures_of_based (hbased : t.Based) (hcalibrated : t.lineHeightCalibrated = true) :
    t.captures e = true ↔ ∃ view minimized, e = .retry view minimized := by
  obtain ⟨hbase, hsb⟩ := hbased hcalibrated
  cases e <;> simp [captures, Option.isSome_iff_ne_none.mp hbase, Option.isSome_iff_ne_none.mp hsb]

/-- A calibrated tracker keeps the height of a line as long as no retry reads another one. -/
theorem measured_advance_of_calibrated (hbased : t.Based) (hmeasured : t.lineHeight = H)
    (hcalibrated : t.lineHeightCalibrated = true) (hsite : t.scrollSite e = some t') :
    (t.advance e).Measured H ↔ Calibrates c H t e := by
  obtain ⟨⟨hheight, hcalibrated'⟩, -⟩ := advance_of_scrollSite hsite
  have hsame : t'.lineHeightCalibrated = true := (scrollSite_calibration hsite).1.trans hcalibrated
  have hnone : t'.measured e.view = none := by
    cases hm : t'.measured e.view with
    | none => rfl
    | some m => exact absurd (exists_of_measured hm).1 (by simp [hsame])
  have hleft : (t.advance e).Measured H ↔ t'.lineHeight = H := by
    rw [Measured, hheight, hcalibrated', hsame, hnone]
    simp
  rw [hleft, lineHeight_of_scrollSite hsite, hmeasured]
  constructor
  · intro h
    refine ⟨fun hnot => absurd hcalibrated (by simp [hnot]), ?_⟩
    intro _ view minimized he t'' rect ed hsite' hchar hpos
    obtain rfl : t' = t'' := Option.some.inj (hsite.symm.trans hsite')
    subst he
    have hread : t'.heightRead view = some (rect.height : K) := heightRead_eq_some_iff.mpr ⟨rect, ed, hchar, hpos, rfl⟩
    simpa [captures, TrackerEvent.view, hread] using h
  · intro h
    split
    next hcaptures =>
      obtain ⟨view, minimized, rfl⟩ := (captures_of_based hbased hcalibrated).mp hcaptures
      cases hread : t'.heightRead view with
      | none => simp [TrackerEvent.view, hread]
      | some height =>
        obtain ⟨rect, ed, hchar, hpos, rfl⟩ := heightRead_eq_some_iff.mp hread
        simpa [TrackerEvent.view, hread] using h.height hcalibrated view minimized rfl t' rect ed hsite hchar hpos
    next => rfl

/-- A tracker is calibrated with the height of a line just where it measures from base values of one
position, or halfway between. -/
theorem measured_advance_of_uncalibrated (hH : 0 < H) (hreads : ReadsDocument c H t e)
    (hcalibrated : t.lineHeightCalibrated = false) (hsite : t.scrollSite e = some t') :
    (t.advance e).Measured H ↔ Calibrates c H t e := by
  obtain ⟨⟨hheight, hcalibrated'⟩, -⟩ := advance_of_scrollSite hsite
  have hsame : t'.lineHeightCalibrated = false := (scrollSite_calibration hsite).1.trans hcalibrated
  obtain ⟨position, hval, hy⟩ := hreads t' hsite
  constructor
  · intro h
    refine ⟨fun _ t'' hsite' base v₁ v₂ v hbase hv₁ hsb hv hchar hsmall => ?_,
      fun hnot => absurd hcalibrated (by simp [hnot])⟩
    obtain rfl : t' = t'' := Option.some.inj (hsite.symm.trans hsite')
    obtain ⟨⟨rect, ed⟩, hchar⟩ := Option.isSome_iff_exists.mp hchar
    obtain rfl := hval v hv
    have hm := (measured_of_positions hsame hH hbase hv₁ hsb hv hchar (hy rect ed hchar) _).mpr ⟨hsmall, rfl⟩
    rw [Measured, hheight, hcalibrated', hm] at h
    exact (quotient_eq_iff hH hsmall.one_le).mp (h (by simp))
  · intro h
    rw [Measured, hheight, hcalibrated', hsame]
    intro hsome
    obtain ⟨m, hm⟩ := Option.isSome_iff_exists.mp hsome
    obtain ⟨-, ⟨base, hbase⟩, ⟨v₂, hsb⟩, ⟨v, hv⟩, ⟨⟨rect, ed⟩, hchar⟩⟩ := exists_of_measured hm
    obtain rfl := hval v hv
    have hv₁ : (base : K) = c - H * ((c - base) / H) := by
      rw [mul_div_cancel₀ _ hH.ne']
      ring
    obtain ⟨hsmall, rfl⟩ := (measured_of_positions hsame hH hbase hv₁ hsb hv hchar (hy rect ed hchar) m).mp hm
    rw [hm, Option.getD_some, quotient_eq_iff hH hsmall.one_le]
    exact h.base hcalibrated t' hsite base _ v₂ v hbase hv₁ hsb hv (by simp [hchar]) hsmall

/-- One callback. -/
theorem measured_advance_iff (hH : 0 < H) (hreads : ReadsDocument c H t e) (hbased : t.Based)
    (hmeasured : t.Measured H) : (t.advance e).Measured H ↔ Calibrates c H t e := by
  cases hsite : t.scrollSite e with
  | none =>
    have hmeter := advance_of_no_scrollSite hsite
    have hcalibrated : (t.advance e).lineHeightCalibrated = t.lineHeightCalibrated :=
      congrArg Meter.lineHeightCalibrated hmeter
    have hheight : (t.advance e).lineHeight = t.lineHeight := congrArg (fun m : Meter K => m.lineHeight) hmeter
    rw [Measured, hcalibrated, hheight]
    refine iff_of_true hmeasured ⟨fun _ t' hsite' => ?_, fun _ view minimized _ t' rect ed hsite' => ?_⟩
    · simp [hsite] at hsite'
    · simp [hsite] at hsite'
  | some t' =>
    cases hcalibrated : t.lineHeightCalibrated with
    | true => exact measured_advance_of_calibrated hbased (hmeasured hcalibrated) hcalibrated hsite
    | false => exact measured_advance_of_uncalibrated hH hreads hcalibrated hsite

/-! ### Runs -/

/-- The heights that a tracker is calibrated with along a run are the height of a line just where every
callback meets the condition. -/
theorem measured_iff_along (win : WindowId) (pid : ℕ) (events : List (TrackerEvent K)) (hH : 0 < H)
    (hreads : Along advance (ReadsDocument c H) (new win pid) events) :
    (∀ k, (stateAt advance (new win pid) events k).Measured H) ↔ Along advance (Calibrates c H) (new win pid) events :=
  forall_stateAt_iff_along (fun _ _ => based_advance)
    (fun _ _ hbased hmeasured hreads => measured_advance_iff hH hreads hbased hmeasured)
    (by simp [Measured, new]) (by simp [Based, new]) hreads

omit [FloorRing K] in
/-- A view of a document at `v` is read as such whatever the tracker holds. -/
theorem readsDocument_of_view (hval : ∀ node x, e.view.currentValue node = some x → x = v)
    (hchar : ∀ node rect ed, e.view.characterExtents node = some rect → e.view.extents node = some ed →
      ((rect.y - ed.y : ℤ) : K) = c - H * v) : ReadsDocument c H t e := by
  intro t' _
  refine ⟨v, fun x hx => ?_, fun rect ed h => ?_⟩
  · obtain ⟨node, -, hx⟩ := Option.bind_eq_some_iff.mp hx
    exact hval node x hx
  · obtain ⟨node, -, h⟩ := Option.bind_eq_some_iff.mp h
    split at h
    next rect' ed' hrect hed =>
      split_ifs at h
      obtain ⟨rfl, rfl⟩ := Prod.mk.inj (Option.some.inj h)
      exact hchar node _ _ hrect hed
    next => cases h

/-- A document with lines of height 10, scrolled to the line `v`; the scrollbar gives a `value` or none. -/
def tenHigh (v : ℤ) (value : Option ℚ) : View ℚ :=
  { document 0 ⟨5, -10 * v, 8, 0⟩ with currentValue := fun node => if node = 2 then value else none }

theorem readsDocument_tenHigh {t : KateWindowTracker ℚ} {e : TrackerEvent ℚ} {v : ℤ} {value : Option ℚ}
    (hview : e.view = tenHigh v value) (hvalue : ∀ x, value = some x → x = v) : ReadsDocument 0 10 t e := by
  refine readsDocument_of_view (v := (v : ℚ)) (fun node x hx => ?_) fun node rect ed hrect hed => ?_
  · rw [hview] at hx
    simp only [tenHigh] at hx
    split_ifs at hx
    exact hvalue x hx
  · rw [hview] at hrect hed
    simp only [tenHigh, document] at hrect hed
    split_ifs at hrect hed
    obtain rfl := Option.some.inj hrect
    obtain rfl := Option.some.inj hed
    push_cast
    ring

/-- A run that measures the height of a line. -/
theorem measured_iff_along_tenHigh :
    let events := [.retry (tenHigh 1 (some 1)) false, .poll (tenHigh 2 (some 2))]
    (stateAt advance (new 0 7) events 2).lineHeightCalibrated = true ∧
      ((∀ k, (stateAt advance (new 0 7) events k).Measured (10 : ℚ)) ↔
        Along advance (Calibrates 0 10) (new 0 7) events) := by
  refine ⟨by decide +kernel, measured_iff_along 0 7 _ (by norm_num) ⟨?_, ?_, trivial⟩⟩
  · exact readsDocument_tenHigh rfl fun x hx => (Option.some.inj hx).symm
  · exact readsDocument_tenHigh rfl fun x hx => (Option.some.inj hx).symm

/-- Discovery reads character 0 on line 1 and no value of the scrollbar; the value of line 2 becomes the
base; on line 3 the tracker measures 20. -/
theorem not_measured_two_bases :
    let events : List (TrackerEvent ℚ) :=
      [.retry (tenHigh 1 none) false, .poll (tenHigh 2 (some 2)), .poll (tenHigh 3 (some 3))]
    Along advance (ReadsDocument 0 10) (new 0 7) events ∧
      (stateAt advance (new 0 7) events 3).lineHeightCalibrated = true ∧
      (stateAt advance (new 0 7) events 3).lineHeight = 20 := by
  refine ⟨⟨?_, ?_, ?_, trivial⟩, by decide +kernel, by decide +kernel⟩
  · exact readsDocument_tenHigh rfl (by simp)
  · exact readsDocument_tenHigh rfl fun x hx => (Option.some.inj hx).symm
  · exact readsDocument_tenHigh rfl fun x hx => (Option.some.inj hx).symm

end KateWindowTracker

end Annotations
