import Annotations.Gestures.Soundness

/-! Completeness of the tap gestures. Three taps on one canvas clear it as long as the first
is still remembered at the third, which is the shorter window of four taps; four taps within
that window clear everything, unless three of a kind among them or just before them have
emptied the history. -/

namespace Annotations

open Runs

variable {K : Type} [Scalar K]

/-! ### Histories -/

/-- The last three taps share an anchor. -/
def SharedAnchor (history : List TapRecord) : Prop :=
  ∃ a b c, [a, b, c] <:+ history ∧ a.anchor = b.anchor ∧ b.anchor = c.anchor

theorem tapGesture_of_few {history : List TapRecord} (h : history.length ≤ 2) : tapGesture history = none := by
  unfold tapGesture tapHistorySize
  rw [if_neg (by omega)]
  rcases history with _ | ⟨a, _ | ⟨b, _ | ⟨c, rest⟩⟩⟩
  · rfl
  · rfl
  · rfl
  · simp at h

theorem tapGesture_of_four {history : List TapRecord} (h : tapHistorySize ≤ history.length) :
    tapGesture history = some .all := by
  unfold tapGesture
  rw [if_pos h]

theorem tapGesture_of_three {history : List TapRecord} {a b c : TapRecord} (hlast : [a, b, c] <:+ history)
    (hshort : history.length < tapHistorySize) : tapGesture history =
      if a.anchor = b.anchor ∧ b.anchor = c.anchor ∧ c.timeUs - a.timeUs ≤ tripleTapWindowUs then
        some (.canvas c.anchor)
      else none := by
  obtain ⟨front, rfl⟩ := hlast
  have hnewest : (front ++ [a, b, c]).reverse = c :: b :: a :: front.reverse := by simp
  unfold tapGesture
  rw [if_neg (not_le.mpr hshort), hnewest]

/-- Three of a kind in time complete a gesture for their canvas. -/
theorem wipes_of_three {history : List TapRecord} {a b c : TapRecord} (hlast : [a, b, c] <:+ history)
    (hab : a.anchor = b.anchor) (hbc : b.anchor = c.anchor) (hspan : c.timeUs - a.timeUs ≤ tripleTapWindowUs) :
    ∃ gesture, tapGesture history = some gesture ∧ gesture.wipes c.anchor := by
  rcases lt_or_ge history.length tapHistorySize with hshort | hfull
  · refine ⟨.canvas c.anchor, ?_, decide_eq_true rfl⟩
    rw [tapGesture_of_three hlast hshort, if_pos ⟨hab, hbc, hspan⟩]
  · exact ⟨.all, tapGesture_of_four hfull, rfl⟩

theorem sharedAnchor_iff {history : List TapRecord} {a b c : TapRecord} (hlast : [a, b, c] <:+ history) :
    SharedAnchor history ↔ a.anchor = b.anchor ∧ b.anchor = c.anchor := by
  constructor
  · rintro ⟨a', b', c', hlast', hanchor⟩
    have hsame : [a', b', c'] = [a, b, c] :=
      (List.suffix_of_suffix_length_le hlast' hlast le_rfl).eq_of_length rfl
    simp only [List.cons.injEq, and_true] at hsame
    obtain ⟨rfl, rfl, rfl⟩ := hsame
    exact hanchor
  · rintro ⟨hab, hbc⟩
    exact ⟨a, b, c, hlast, hab, hbc⟩

theorem length_recordedTap_le {history : List TapRecord} (r : TapRecord) (hshort : history.length < tapHistorySize) :
    (recordedTap history r).length ≤ history.length + 1 := by
  rw [recordedTap_of_short hshort, List.length_append, List.length_singleton]
  exact Nat.add_le_add_right Recent.pruned_suffix.length_le 1

/-- The latest taps stay together while they are recent. -/
theorem suffix_recordedTap {history s : List TapRecord} {r : TapRecord} (hshort : history.length < tapHistorySize)
    (hordered : Recent.Ordered TapRecord.timeUs history) (hs : s <:+ history)
    (hrecent : ∀ t ∈ s, r.timeUs - t.timeUs ≤ quadTapWindowUs) : s ++ [r] <:+ recordedTap history r := by
  rw [recordedTap_of_short hshort]
  exact Recent.suffix_concat (Recent.suffix_pruned hordered hs hrecent)

/-- A tap that is no longer recent is forgotten, with all before it. -/
theorem length_recordedTap_of_old {history s : List TapRecord} {a r : TapRecord} (hshort : history.length < tapHistorySize)
    (hordered : Recent.Ordered TapRecord.timeUs history) (hs : a :: s <:+ history)
    (hold : ¬ r.timeUs - a.timeUs ≤ quadTapWindowUs) : (recordedTap history r).length ≤ s.length + 1 := by
  rw [recordedTap_of_short hshort, Recent.pruned_of_old hordered hs hold, List.length_append, List.length_singleton]
  exact Nat.add_le_add_right Recent.pruned_suffix.length_le 1

namespace MetaAnnotationLayer

/-! ### Taps of a run -/

/-- The tap `r` is accepted at the operation `k`. -/
def TapIn (start : MetaAnnotationLayer K) (ops : List (LayerOp K)) (k : ℕ) (r : TapRecord) : Prop :=
  ∃ op, ops[k]? = some op ∧ (stateAt step start ops k).acceptedTap op = some r

/-- A gesture is completed at the operation `k`. -/
def GestureIn (start : MetaAnnotationLayer K) (ops : List (LayerOp K)) (k : ℕ) (gesture : TapGesture) : Prop :=
  ∃ op, ops[k]? = some op ∧ (stateAt step start ops k).gestureAt op = some gesture

/-- No tap is accepted between two operations. -/
def NoTapBetween (start : MetaAnnotationLayer K) (ops : List (LayerOp K)) (i j : ℕ) : Prop :=
  i < j ∧ ∀ m, i < m → m < j → ∀ r, ¬ TapIn start ops m r

/-- No window goes. -/
def NoneUnmanaged (ops : List (LayerOp K)) : Prop := ∀ op ∈ ops, ¬ unmanages op

variable {start : MetaAnnotationLayer K} {ops : List (LayerOp K)} {i j k : ℕ} {r : TapRecord} {gesture : TapGesture}

/-- The history before an operation. -/
def historyAt (start : MetaAnnotationLayer K) (ops : List (LayerOp K)) (k : ℕ) : List TapRecord :=
  (stateAt step start ops k).tapHistory

theorem gestureIn_iff (h : TapIn start ops k r) :
    GestureIn start ops k gesture ↔ tapGesture (recordedTap (historyAt start ops k) r) = some gesture := by
  obtain ⟨op, hget, htap⟩ := h
  constructor
  · rintro ⟨op', hget', hgesture⟩
    obtain rfl := Option.some.inj (hget.symm.trans hget')
    rw [gestureAt, htap, Option.bind_some] at hgesture
    exact hgesture
  · intro hgesture
    refine ⟨op, hget, ?_⟩
    rw [gestureAt, htap, Option.bind_some]
    exact hgesture

theorem historyAt_succ (h : TapIn start ops k r) : historyAt start ops (k + 1) =
    if (tapGesture (recordedTap (historyAt start ops k) r)).isSome then [] else recordedTap (historyAt start ops k) r := by
  obtain ⟨op, hget, htap⟩ := h
  have hexec := tapHistory_exec_of_tap htap
  rw [gestureAt, htap, Option.bind_some] at hexec
  unfold historyAt
  rw [stateAt_succ hget]
  exact hexec

/-- Between two taps the history stays. -/
theorem historyAt_of_noTap (hrun : NoneUnmanaged ops) (hj : j ≤ ops.length) (hbetween : NoTapBetween start ops i j) :
    historyAt start ops j = historyAt start ops (i + 1) := by
  obtain ⟨hij, hquiet⟩ := hbetween
  induction j, hij using Nat.le_induction with
  | base => rfl
  | succ m hm ih =>
    have hget : ops[m]? = some ops[m] := List.getElem?_eq_getElem (by omega)
    have hnone : (stateAt step start ops m).acceptedTap ops[m] = none := by
      cases htap : (stateAt step start ops m).acceptedTap ops[m] with
      | none => rfl
      | some r => exact absurd ⟨_, hget, htap⟩ (hquiet m hm (by omega) r)
    have hkept := tapHistory_exec_of_quiet hnone (hrun _ (List.getElem_mem _))
    rw [← ih (by omega) fun n hin hnm => hquiet n hin (by omega)]
    unfold historyAt
    rw [stateAt_succ hget]
    exact hkept

/-- A tap that completes no gesture leaves its record to the next tap. -/
theorem historyAt_next (hrun : NoneUnmanaged ops) (hj : j ≤ ops.length) (hi : TapIn start ops i r)
    (hbetween : NoTapBetween start ops i j) (hquiet : ∀ gesture, ¬ GestureIn start ops i gesture) :
    historyAt start ops j = recordedTap (historyAt start ops i) r := by
  have hnone : tapGesture (recordedTap (historyAt start ops i) r) = none := by
    cases hgesture : tapGesture (recordedTap (historyAt start ops i) r) with
    | none => rfl
    | some gesture => exact absurd ((gestureIn_iff hi).mpr hgesture) (hquiet gesture)
  rw [historyAt_of_noTap hrun hj hbetween, historyAt_succ hi, hnone]
  rfl

/-- A gesture leaves nothing to the next tap. -/
theorem historyAt_next_of_gesture (hrun : NoneUnmanaged ops) (hj : j ≤ ops.length) (hi : TapIn start ops i r)
    (hbetween : NoTapBetween start ops i j) (hgesture : GestureIn start ops i gesture) : historyAt start ops j = [] := by
  rw [historyAt_of_noTap hrun hj hbetween, historyAt_succ hi, (gestureIn_iff hi).mp hgesture]
  rfl

theorem length_historyAt_next_le (hrun : NoneUnmanaged ops) (hj : j ≤ ops.length) (hi : TapIn start ops i r)
    (hbetween : NoTapBetween start ops i j) (hshort : (historyAt start ops i).length < tapHistorySize) :
    (historyAt start ops j).length ≤ (historyAt start ops i).length + 1 := by
  rw [historyAt_of_noTap hrun hj hbetween, historyAt_succ hi]
  split_ifs
  · exact Nat.zero_le _
  · exact length_recordedTap_le r hshort

theorem not_gestureIn_all_of_few (hr : TapIn start ops k r) (hfew : (historyAt start ops k).length ≤ 2) :
    ¬ GestureIn start ops k .all := by
  intro hall
  have hfull := length_of_tapGesture_all ((gestureIn_iff hr).mp hall)
  have hle := length_recordedTap_le r (hfew.trans_lt (by decide))
  exact absurd (hfull.trans (hle.trans (Nat.succ_le_succ hfew))) (by decide)

theorem TapIn.lt_length (h : TapIn start ops k r) : k < ops.length := by
  obtain ⟨op, hget, _⟩ := h
  exact (List.getElem?_eq_some_iff.mp hget).1

theorem TapIn.le (hclock : ClockForward ops) (hij : i < j) {r r' : TapRecord} (hi : TapIn start ops i r)
    (hj : TapIn start ops j r') : r.timeUs ≤ r'.timeUs := by
  obtain ⟨op, hget, htap⟩ := hi
  obtain ⟨op', hget', htap'⟩ := hj
  exact hclock.le hij hget hget' (timeUs_of_acceptedTap htap) (timeUs_of_acceptedTap htap')

theorem cleared_of_gestureIn {c : Canvas} (h : GestureIn start ops k gesture) (hwipes : gesture.wipes c) :
    (stateAt step start ops (k + 1)).Cleared c := by
  obtain ⟨op, hget, hgesture⟩ := h
  rw [stateAt_succ hget]
  obtain ⟨hstrokes, hsurface⟩ := cleared_exec ⟨gesture, hgesture, hwipes⟩
  exact ⟨by cases c <;> exact hstrokes, by cases c <;> exact hsurface⟩

/-- A tap is in the history that it leaves when it completes no gesture. -/
theorem suffix_recorded (hkept : TapsKept ops k (stateAt step start ops k) (tapsAt start ops k)) :
    [r] <:+ recordedTap (historyAt start ops k) r := by
  have hnil : ([] : List TapRecord) <:+ historyAt start ops k := List.nil_suffix
  exact suffix_recordedTap hkept.short hkept.ordered hnil fun t ht => by cases ht

section Runs

variable (hclock : ClockForward ops) (hrun : NoneUnmanaged ops) (hstart : start.tapHistory = [])
include hclock hrun hstart

/-- Three taps clear their canvas exactly when the first is still remembered at the third. -/
theorem tripleTap_iff {r₁ r₂ r₃ : TapRecord} (h₁ : TapIn start ops i r₁) (h₂ : TapIn start ops j r₂)
    (h₃ : TapIn start ops k r₃) (h₁₂ : NoTapBetween start ops i j) (h₂₃ : NoTapBetween start ops j k)
    (hanchor : r₁.anchor = r₂.anchor ∧ r₂.anchor = r₃.anchor) (hspan : r₃.timeUs - r₁.timeUs ≤ tripleTapWindowUs)
    (hquiet : ∀ m, i ≤ m → m < k → ∀ gesture, ¬ GestureIn start ops m gesture) :
    (∃ gesture, GestureIn start ops k gesture ∧ gesture.wipes r₃.anchor) ↔
      r₃.timeUs - r₁.timeUs ≤ quadTapWindowUs := by
  have hkept := fun m (hm : m ≤ ops.length) => tapsKept_at hclock hstart hm
  have hkept₁ := hkept i h₁.lt_length.le
  have hkept₂ := hkept j h₂.lt_length.le
  have hkept₃ := hkept k h₃.lt_length.le
  have hle₁₂ := h₁.le hclock h₁₂.1 h₂
  have hle₂₃ := h₂.le hclock h₂₃.1 h₃
  have hij := h₁₂.1
  have hjk := h₂₃.1
  have hhistory₂ := historyAt_next hrun h₂.lt_length.le h₁ h₁₂ (hquiet i le_rfl (by omega))
  have hhistory₃ := historyAt_next hrun h₃.lt_length.le h₂ h₂₃ (hquiet j (by omega) (by omega))
  have hone : [r₁] <:+ historyAt start ops j := hhistory₂ ▸ suffix_recorded hkept₁
  simp only [gestureIn_iff h₃]
  constructor
  · -- if the first tap is forgotten, at most the second is left
    rintro ⟨gesture, hgesture, _⟩
    by_contra hold
    have hfew : (recordedTap (historyAt start ops k) r₃).length ≤ 2 := by
      by_cases hold₂ : r₂.timeUs - r₁.timeUs ≤ quadTapWindowUs
      · have htwo : r₁ :: [r₂] <:+ historyAt start ops k := by
          rw [hhistory₃]
          refine suffix_recordedTap hkept₂.short hkept₂.ordered hone ?_
          simpa using hold₂
        exact length_recordedTap_of_old hkept₃.short hkept₃.ordered htwo hold
      · have hlength : (historyAt start ops k).length ≤ 1 := by
          rw [hhistory₃]
          exact length_recordedTap_of_old hkept₂.short hkept₂.ordered hone hold₂
        have hle := length_recordedTap_le r₃ hkept₃.short
        exact hle.trans (Nat.succ_le_succ hlength)
    rw [tapGesture_of_few hfew] at hgesture
    cases hgesture
  · intro hrecent
    have htwo : [r₁] ++ [r₂] <:+ historyAt start ops k := by
      rw [hhistory₃]
      refine suffix_recordedTap hkept₂.short hkept₂.ordered hone fun t ht => ?_
      rw [List.mem_singleton.mp ht]
      omega
    have hthree : [r₁, r₂] ++ [r₃] <:+ recordedTap (historyAt start ops k) r₃ := by
      refine suffix_recordedTap hkept₃.short hkept₃.ordered htwo fun t ht => ?_
      rcases List.mem_pair.mp ht with rfl | rfl
      · exact hrecent
      · omega
    exact wipes_of_three hthree hanchor.1 hanchor.2 hspan

omit hrun in
/-- Short of four taps, a gesture is completed exactly when the last three share an anchor. -/
theorem gestureIn_canvas_iff (hr : TapIn start ops k r) (hall : ¬ GestureIn start ops k .all) :
    (∃ gesture, GestureIn start ops k gesture) ↔ SharedAnchor (recordedTap (historyAt start ops k) r) := by
  have hkept := tapsKept_at hclock hstart hr.lt_length.le
  obtain ⟨op, hget, htap⟩ := id hr
  obtain ⟨_, _, hrecent⟩ := hkept.recorded hclock hget htap
  simp only [gestureIn_iff hr] at hall ⊢
  have hshort : (recordedTap (historyAt start ops k) r).length < tapHistorySize :=
    not_le.mp fun hfull => hall (tapGesture_of_four hfull)
  constructor
  · rintro ⟨gesture, hgesture⟩
    cases gesture with
    | all => exact absurd hgesture hall
    | canvas x =>
      obtain ⟨a, b, c, hlast, ha, hb, hc, _⟩ := exists_of_tapGesture_canvas hgesture
      exact ⟨a, b, c, hlast, ha.trans hb.symm, hb.trans hc.symm⟩
  · rintro ⟨a, b, c, hlast, hab, hbc⟩
    have hc : c = r := eq_of_suffix_recordedTap ((List.suffix_append [a, b] [c]).trans hlast)
    have hquad := (hrecent a (hlast.mem (List.mem_cons_self ..))).2
    have hwindows : quadTapWindowUs ≤ tripleTapWindowUs := by decide
    rw [← hc] at hquad
    obtain ⟨gesture, hgesture, _⟩ := wipes_of_three hlast hab hbc (hquad.trans hwindows)
    exact ⟨gesture, hgesture⟩

/-- Four taps in the window clear everything exactly when no three taps that share an anchor
have come to an end at the first three of them. -/
theorem quadTap_iff {i₁ i₂ i₃ i₄ : ℕ} {r₁ r₂ r₃ r₄ : TapRecord} (h₁ : TapIn start ops i₁ r₁)
    (h₂ : TapIn start ops i₂ r₂) (h₃ : TapIn start ops i₃ r₃) (h₄ : TapIn start ops i₄ r₄)
    (h₁₂ : NoTapBetween start ops i₁ i₂) (h₂₃ : NoTapBetween start ops i₂ i₃) (h₃₄ : NoTapBetween start ops i₃ i₄)
    (hspan : r₄.timeUs - r₁.timeUs ≤ quadTapWindowUs)
    (hquiet : ∀ m, i₁ ≤ m → m < i₄ → ¬ GestureIn start ops m .all) :
    let first := recordedTap (historyAt start ops i₁) r₁
    GestureIn start ops i₄ .all ↔
      ¬ SharedAnchor first ∧ ¬ SharedAnchor (recordedTap first r₂) ∧
        ¬ (r₁.anchor = r₂.anchor ∧ r₂.anchor = r₃.anchor) := by
  have hkept := fun m (hm : m ≤ ops.length) => tapsKept_at hclock hstart hm
  have hkept₁ := hkept i₁ h₁.lt_length.le
  have hkept₂ := hkept i₂ h₂.lt_length.le
  have hkept₃ := hkept i₃ h₃.lt_length.le
  have hkept₄ := hkept i₄ h₄.lt_length.le
  have hle₁₂ := h₁.le hclock h₁₂.1 h₂
  have hle₂₃ := h₂.le hclock h₂₃.1 h₃
  have hle₃₄ := h₃.le hclock h₃₄.1 h₄
  have hi₁₂ := h₁₂.1
  have hi₂₃ := h₂₃.1
  have hi₃₄ := h₃₄.1
  have hshared₁ := gestureIn_canvas_iff hclock hstart h₁ (hquiet i₁ le_rfl (by omega))
  have hshared₂ := gestureIn_canvas_iff hclock hstart h₂ (hquiet i₂ (by omega) (by omega))
  have hshared₃ := gestureIn_canvas_iff hclock hstart h₃ (hquiet i₃ (by omega) (by omega))
  have hlength₃ := length_historyAt_next_le hrun h₃.lt_length.le h₂ h₂₃ hkept₂.short
  have hlength₄ := length_historyAt_next_le hrun h₄.lt_length.le h₃ h₃₄ hkept₃.short
  dsimp only
  by_cases hfirst : SharedAnchor (recordedTap (historyAt start ops i₁) r₁)
  · -- the first tap ends three of a kind, so only three are left of the four
    obtain ⟨gesture, hgesture⟩ := hshared₁.mpr hfirst
    have hempty := historyAt_next_of_gesture hrun h₂.lt_length.le h₁ h₁₂ hgesture
    rw [hempty, List.length_nil] at hlength₃
    exact iff_of_false (not_gestureIn_all_of_few h₄ (by omega)) fun h => h.1 hfirst
  have hhistory₂ := historyAt_next hrun h₂.lt_length.le h₁ h₁₂ fun g hg => hfirst (hshared₁.mp ⟨g, hg⟩)
  rw [hhistory₂] at hshared₂
  by_cases hsecond : SharedAnchor (recordedTap (recordedTap (historyAt start ops i₁) r₁) r₂)
  · obtain ⟨gesture, hgesture⟩ := hshared₂.mpr hsecond
    have hempty := historyAt_next_of_gesture hrun h₃.lt_length.le h₂ h₂₃ hgesture
    rw [hempty, List.length_nil] at hlength₄
    exact iff_of_false (not_gestureIn_all_of_few h₄ (by omega)) fun h => h.2.1 hsecond
  have hhistory₃ := historyAt_next hrun h₃.lt_length.le h₂ h₂₃ fun g hg => hsecond (hshared₂.mp ⟨g, hg⟩)
  have hone : [r₁] <:+ historyAt start ops i₂ := hhistory₂ ▸ suffix_recorded hkept₁
  have htwo : [r₁] ++ [r₂] <:+ historyAt start ops i₃ := by
    rw [hhistory₃]
    refine suffix_recordedTap hkept₂.short hkept₂.ordered hone fun t ht => ?_
    rw [List.mem_singleton.mp ht]
    omega
  have hthree : [r₁, r₂] ++ [r₃] <:+ recordedTap (historyAt start ops i₃) r₃ := by
    refine suffix_recordedTap hkept₃.short hkept₃.ordered htwo fun t ht => ?_
    rcases List.mem_pair.mp ht with rfl | rfl <;> omega
  by_cases hthird : r₁.anchor = r₂.anchor ∧ r₂.anchor = r₃.anchor
  · obtain ⟨gesture, hgesture⟩ := hshared₃.mpr ((sharedAnchor_iff hthree).mpr hthird)
    have hempty := historyAt_next_of_gesture hrun h₄.lt_length.le h₃ h₃₄ hgesture
    exact iff_of_false (not_gestureIn_all_of_few h₄ (by rw [hempty]; exact Nat.zero_le 2)) fun h => h.2.2 hthird
  -- no gesture has come between, so the four are together at the last
  have hhistory₄ := historyAt_next hrun h₄.lt_length.le h₃ h₃₄
    fun g hg => hthird ((sharedAnchor_iff hthree).mp (hshared₃.mp ⟨g, hg⟩))
  rw [← hhistory₄] at hthree
  have hfour : [r₁, r₂, r₃] ++ [r₄] <:+ recordedTap (historyAt start ops i₄) r₄ := by
    refine suffix_recordedTap hkept₄.short hkept₄.ordered hthree fun t ht => ?_
    simp only [List.mem_cons, List.not_mem_nil, or_false] at ht
    rcases ht with rfl | rfl | rfl <;> omega
  exact iff_of_true ((gestureIn_iff h₄).mpr (tapGesture_of_four hfour.length_le)) ⟨hfirst, hsecond, hthird⟩

end Runs

theorem tapHistory_new (display : MetaDisplay) (input : AnnotationInput K) (width height : ℤ) :
    (metaAnnotationLayerNew display input width height).tapHistory = [] :=
  tapHistory_of_pointers pointers_onStageSizeChanged

/-- At the third of three taps on one canvas, close enough for a triple tap, the canvas is cleared
exactly when they are also close enough for a quadruple tap. -/
theorem tripleTap_clears_iff (display : MetaDisplay) (input : AnnotationInput K) (width height : ℤ)
    (hclock : ClockForward ops) (hrun : NoneUnmanaged ops) {r₁ r₂ r₃ : TapRecord} :
    let start := metaAnnotationLayerNew display input width height
    TapIn start ops i r₁ → TapIn start ops j r₂ → TapIn start ops k r₃ → NoTapBetween start ops i j →
      NoTapBetween start ops j k → r₁.anchor = r₂.anchor ∧ r₂.anchor = r₃.anchor →
      r₃.timeUs - r₁.timeUs ≤ tripleTapWindowUs →
      (∀ m, i ≤ m → m < k → ∀ gesture, ¬ GestureIn start ops m gesture) →
      ((∃ gesture, GestureIn start ops k gesture ∧ gesture.wipes r₃.anchor) ↔
          r₃.timeUs - r₁.timeUs ≤ quadTapWindowUs) ∧
        (r₃.timeUs - r₁.timeUs ≤ quadTapWindowUs → (stateAt step start ops (k + 1)).Cleared r₃.anchor) := by
  intro start h₁ h₂ h₃ h₁₂ h₂₃ hanchor hspan hquiet
  have hiff := tripleTap_iff hclock hrun (tapHistory_new display input width height) h₁ h₂ h₃ h₁₂ h₂₃ hanchor hspan hquiet
  refine ⟨hiff, fun hrecent => ?_⟩
  obtain ⟨gesture, hgesture, hwipes⟩ := hiff.mpr hrecent
  exact cleared_of_gestureIn hgesture hwipes

theorem noTapBetween_tap {start : MetaAnnotationLayer ℚ} {ops : List (LayerOp ℚ)} {x y : ℚ} {t : ℤ} (n : ℕ)
    (hget : ops[n + 1]? = some (.handleEvent (.touch .touchBegin x y 0) t)) : NoTapBetween start ops n (n + 2) := by
  refine ⟨by omega, fun m hnm hm r => ?_⟩
  rintro ⟨op, hget', htap⟩
  obtain rfl : m = n + 1 := by omega
  obtain rfl := Option.some.inj (hget.symm.trans hget')
  obtain ⟨event, nowUs, heq, hreleases, _⟩ := exists_of_acceptedTap htap
  obtain ⟨rfl, _⟩ := LayerOp.handleEvent.inj heq
  simp [releases, ClutterEvent.touch] at hreleases

theorem not_gestureIn {start : MetaAnnotationLayer ℚ} {ops : List (LayerOp ℚ)} {op : LayerOp ℚ} {m : ℕ}
    (hget : ops[m]? = some op) (h : (stateAt step start ops m).gestureAt op = none) (gesture : TapGesture) :
    ¬ GestureIn start ops m gesture := by
  rintro ⟨op', hget', hgesture⟩
  obtain rfl := Option.some.inj (hget.symm.trans hget')
  rw [h] at hgesture
  cases hgesture

theorem noneUnmanaged_of_all {ops : List (LayerOp ℚ)} (h : ∀ op ∈ ops, (∃ event t, op = .handleEvent event t) ∨
    op = .call (.setActive true)) : NoneUnmanaged ops := by
  intro op hop
  rcases h op hop with ⟨event, t, rfl⟩ | rfl <;> exact id

theorem noneUnmanaged_threeTaps (t₁ t₂ t₃ : ℤ) : NoneUnmanaged (threeTaps t₁ t₂ t₃) := by
  refine noneUnmanaged_of_all fun op hop => ?_
  simp only [threeTaps, tapOps, List.mem_cons, List.mem_append, List.not_mem_nil, or_false] at hop
  rcases hop with rfl | (((rfl | rfl) | rfl | rfl) | rfl | rfl)
  · exact .inr rfl
  all_goals exact .inl ⟨_, _, rfl⟩

theorem tripleTap_clears_iff_quick :
    let start := metaAnnotationLayerNew .bare .initial 10 10
    let ops := threeTaps 1000000 1020000 1040000
    (∃ gesture, GestureIn start ops 6 gesture ∧ gesture.wipes none) ∧ (stateAt step start ops 7).Cleared none := by
  intro start ops
  have hclock : ClockForward ops := by unfold ClockForward; decide
  have h₁ : TapIn start ops 2 ⟨1010000, none⟩ := ⟨_, rfl, by decide +kernel⟩
  have h₂ : TapIn start ops 4 ⟨1030000, none⟩ := ⟨_, rfl, by decide +kernel⟩
  have h₃ : TapIn start ops 6 ⟨1050000, none⟩ := ⟨_, rfl, by decide +kernel⟩
  have hquiet : ∀ m, 2 ≤ m → m < 6 → ∀ gesture, ¬ GestureIn start ops m gesture := by
    intro m hm hm'
    obtain rfl | rfl | rfl | rfl : m = 2 ∨ m = 3 ∨ m = 4 ∨ m = 5 := by omega
    all_goals exact not_gestureIn rfl (by decide +kernel)
  have h := tripleTap_clears_iff .bare .initial 10 10 hclock (noneUnmanaged_threeTaps _ _ _) h₁ h₂ h₃
    (noTapBetween_tap 2 rfl) (noTapBetween_tap 4 rfl) ⟨rfl, rfl⟩ (by decide) hquiet
  exact ⟨h.1.mpr (by decide), h.2 (by decide)⟩

/-- Three taps on the desktop within less than half a second, which clear nothing. -/
theorem not_tripleTap_clears_slow :
    let start := metaAnnotationLayerNew .bare .initial 10 10
    let ops := threeTaps 1000000 1200000 1400000
    TapIn start ops 2 ⟨1010000, none⟩ ∧ TapIn start ops 4 ⟨1210000, none⟩ ∧ TapIn start ops 6 ⟨1410000, none⟩ ∧
      NoTapBetween start ops 2 4 ∧ NoTapBetween start ops 4 6 ∧ (1410000 : ℤ) - 1010000 ≤ tripleTapWindowUs ∧
      ClockForward ops ∧ (∀ m, 2 ≤ m → m < 6 → ∀ gesture, ¬ GestureIn start ops m gesture) ∧
      ¬ (stateAt step start ops 7).Cleared none := by
  intro start ops
  refine ⟨⟨_, rfl, by decide +kernel⟩, ⟨_, rfl, by decide +kernel⟩, ⟨_, rfl, by decide +kernel⟩,
    noTapBetween_tap 2 rfl, noTapBetween_tap 4 rfl, by decide, by unfold ClockForward; decide, ?_, ?_⟩
  · intro m hm hm'
    obtain rfl | rfl | rfl | rfl : m = 2 ∨ m = 3 ∨ m = 4 ∨ m = 5 := by omega
    all_goals exact not_gestureIn rfl (by decide +kernel)
  · intro hcleared
    have hdots : (stateAt step start ops 7).unattachedStrokes.length = 3 := by decide +kernel
    rw [hcleared.1 _ rfl] at hdots
    cases hdots

/-- At the fourth of four taps close together everything is cleared, exactly when no three taps
that share an anchor have ended at one of the first three. -/
theorem quadTap_clears_iff (display : MetaDisplay) (input : AnnotationInput K) (width height : ℤ)
    (hclock : ClockForward ops) (hrun : NoneUnmanaged ops) {i₁ i₂ i₃ i₄ : ℕ} {r₁ r₂ r₃ r₄ : TapRecord} :
    let start := metaAnnotationLayerNew display input width height
    TapIn start ops i₁ r₁ → TapIn start ops i₂ r₂ → TapIn start ops i₃ r₃ → TapIn start ops i₄ r₄ →
      NoTapBetween start ops i₁ i₂ → NoTapBetween start ops i₂ i₃ → NoTapBetween start ops i₃ i₄ →
      r₄.timeUs - r₁.timeUs ≤ quadTapWindowUs → (∀ m, i₁ ≤ m → m < i₄ → ¬ GestureIn start ops m .all) →
      let first := recordedTap (historyAt start ops i₁) r₁
      let apart := ¬ SharedAnchor first ∧ ¬ SharedAnchor (recordedTap first r₂) ∧
        ¬ (r₁.anchor = r₂.anchor ∧ r₂.anchor = r₃.anchor)
      (GestureIn start ops i₄ .all ↔ apart) ∧ (apart → ∀ c, (stateAt step start ops (i₄ + 1)).Cleared c) := by
  intro start h₁ h₂ h₃ h₄ h₁₂ h₂₃ h₃₄ hspan hquiet first apart
  have hiff : GestureIn start ops i₄ .all ↔ apart :=
    quadTap_iff hclock hrun (tapHistory_new display input width height) h₁ h₂ h₃ h₄ h₁₂ h₂₃ h₃₄ hspan hquiet
  exact ⟨hiff, fun hapart c => cleared_of_gestureIn (hiff.mpr hapart) rfl⟩

/-- A stroke on the window, and then four taps on the desktop or on the window. -/
def strokeAndTaps (x₁ x₂ x₃ x₄ : ℚ) : List (LayerOp ℚ) :=
  .call (.setActive true) :: .handleEvent (.touch .touchBegin 2 2 0) 0 ::
    .handleEvent (.touch .touchEnd 4 4 0) 900000 ::
    (tapOps x₁ x₁ 2000000 ++ tapOps x₂ x₂ 2020000 ++ tapOps x₃ x₃ 2040000 ++ tapOps x₄ x₄ 2060000)

theorem noneUnmanaged_strokeAndTaps (x₁ x₂ x₃ x₄ : ℚ) : NoneUnmanaged (strokeAndTaps x₁ x₂ x₃ x₄) := by
  refine noneUnmanaged_of_all fun op hop => ?_
  simp only [strokeAndTaps, tapOps, List.mem_cons, List.mem_append, List.not_mem_nil, or_false] at hop
  rcases hop with rfl | rfl | rfl | ((((rfl | rfl) | rfl | rfl) | rfl | rfl) | rfl | rfl)
  · exact .inr rfl
  all_goals exact .inl ⟨_, _, rfl⟩

theorem quadTap_clears_iff_inTurn :
    let start := metaAnnotationLayerNew .oneWindow .initial 10 10
    let ops := strokeAndTaps 8 1 8 1
    GestureIn start ops 10 .all ↔ ¬ SharedAnchor (recordedTap (historyAt start ops 4) ⟨2010000, none⟩) ∧
      ¬ SharedAnchor (recordedTap (recordedTap (historyAt start ops 4) ⟨2010000, none⟩) ⟨2030000, some 0⟩) ∧
      ¬ ((none : Canvas) = some 0 ∧ some 0 = (none : Canvas)) := by
  intro start ops
  have hclock : ClockForward ops := by unfold ClockForward; decide
  have h₁ : TapIn start ops 4 ⟨2010000, none⟩ := ⟨_, rfl, by decide +kernel⟩
  have h₂ : TapIn start ops 6 ⟨2030000, some 0⟩ := ⟨_, rfl, by decide +kernel⟩
  have h₃ : TapIn start ops 8 ⟨2050000, none⟩ := ⟨_, rfl, by decide +kernel⟩
  have h₄ : TapIn start ops 10 ⟨2070000, some 0⟩ := ⟨_, rfl, by decide +kernel⟩
  have hquiet : ∀ m, 4 ≤ m → m < 10 → ¬ GestureIn start ops m .all := by
    intro m hm hm'
    obtain rfl | rfl | rfl | rfl | rfl | rfl : m = 4 ∨ m = 5 ∨ m = 6 ∨ m = 7 ∨ m = 8 ∨ m = 9 := by omega
    all_goals exact not_gestureIn rfl (by decide +kernel) _
  exact (quadTap_clears_iff .oneWindow .initial 10 10 hclock (noneUnmanaged_strokeAndTaps _ _ _ _) h₁ h₂ h₃ h₄
    (noTapBetween_tap 4 rfl) (noTapBetween_tap 6 rfl) (noTapBetween_tap 8 rfl) (by decide) hquiet).1

/-- Four taps on the desktop within a tenth of a second, which leave the ink of the window. -/
theorem not_quadTap_clears_sameAnchor :
    let start := metaAnnotationLayerNew .oneWindow .initial 10 10
    let ops := strokeAndTaps 8 8 8 8
    TapIn start ops 4 ⟨2010000, none⟩ ∧ TapIn start ops 6 ⟨2030000, none⟩ ∧ TapIn start ops 8 ⟨2050000, none⟩ ∧
      TapIn start ops 10 ⟨2070000, none⟩ ∧ NoTapBetween start ops 4 6 ∧ NoTapBetween start ops 6 8 ∧
      NoTapBetween start ops 8 10 ∧ (2070000 : ℤ) - 2010000 ≤ quadTapWindowUs ∧ ClockForward ops ∧
      (∀ m, 4 ≤ m → m < 10 → ¬ GestureIn start ops m .all) ∧ ¬ (stateAt step start ops 11).Cleared (some 0) := by
  intro start ops
  refine ⟨⟨_, rfl, by decide +kernel⟩, ⟨_, rfl, by decide +kernel⟩, ⟨_, rfl, by decide +kernel⟩,
    ⟨_, rfl, by decide +kernel⟩, noTapBetween_tap 4 rfl, noTapBetween_tap 6 rfl, noTapBetween_tap 8 rfl, by decide,
    by unfold ClockForward; decide, ?_, ?_⟩
  · rintro m hm hm' ⟨op, hget, hgesture⟩
    obtain rfl | rfl | rfl | rfl | rfl | rfl : m = 4 ∨ m = 5 ∨ m = 6 ∨ m = 7 ∨ m = 8 ∨ m = 9 := by omega
    all_goals
      obtain rfl := Option.some.inj hget
      revert hgesture
      decide +kernel
  · intro hcleared
    have hstroke : ((stateAt step start ops 11).canvasStrokes (some 0)).map List.length = some 1 := by decide +kernel
    obtain ⟨strokes, hstrokes, hlength⟩ := Option.map_eq_some_iff.mp hstroke
    rw [hcleared.1 _ hstrokes] at hlength
    cases hlength

end MetaAnnotationLayer

end Annotations
