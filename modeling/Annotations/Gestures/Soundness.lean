import Annotations.Gestures.Clearing
import Annotations.Runs.Basic

/-! Soundness of the tap gestures. Along a run whose clock does not go back the history is
the end of the list of taps since it was last emptied, in order of time; so a gesture is
found only where the latest taps form one. -/

namespace Annotations

open Runs

variable {K : Type} [Scalar K]

/-! ### What a gesture tells of the history -/

theorem recordedTap_of_short {history : List TapRecord} {r : TapRecord} (hshort : history.length < tapHistorySize) :
    recordedTap history r = Recent.pruned TapRecord.timeUs quadTapWindowUs r.timeUs history ++ [r] := by
  have hlength : (Recent.pruned TapRecord.timeUs quadTapWindowUs r.timeUs history).length ≤ history.length :=
    Recent.pruned_suffix.length_le
  unfold recordedTap
  dsimp only
  rw [if_neg (by omega)]

/-- The tap recorded is the last of the history. -/
theorem eq_of_suffix_recordedTap {history : List TapRecord} {c r : TapRecord} (h : [c] <:+ recordedTap history r) :
    c = r := by
  obtain ⟨front, hfront⟩ := h
  exact List.singleton_inj.mp (List.append_inj' hfront rfl).2

theorem length_of_tapGesture_all {history : List TapRecord} (h : tapGesture history = some .all) :
    tapHistorySize ≤ history.length := by
  unfold tapGesture at h
  split_ifs at h with hfull
  · exact hfull
  · split at h
    · split_ifs at h
      cases h
    · cases h

theorem length_of_tapGesture_none {history : List TapRecord} (h : tapGesture history = none) :
    history.length < tapHistorySize := by
  unfold tapGesture at h
  split_ifs at h with hfull
  exact not_le.mp hfull

/-- The gesture of one canvas is three taps on it at the end of the history. -/
theorem exists_of_tapGesture_canvas {history : List TapRecord} {x : Canvas}
    (h : tapGesture history = some (.canvas x)) : ∃ a b c, [a, b, c] <:+ history ∧ a.anchor = x ∧ b.anchor = x ∧
      c.anchor = x ∧ c.timeUs - a.timeUs ≤ tripleTapWindowUs := by
  unfold tapGesture at h
  split_ifs at h with hfull
  · cases h
  split at h
  next c b a older hnewest =>
    split_ifs at h with htriple
    obtain ⟨hab, hbc, hspan⟩ := htriple
    have hc : c.anchor = x := by
      injection h with h
      injection h
    have hsplit : history = older.reverse ++ [a, b, c] := by
      rw [← List.reverse_reverse history, hnewest]
      simp
    exact ⟨a, b, c, ⟨older.reverse, hsplit.symm⟩, hab.trans (hbc.trans hc), hbc.trans hc, hc, hspan⟩
  · cases h

/-! ### Runs -/

/-- The time the operation reads. -/
def LayerOp.timeUs : LayerOp K → Option ℤ
  | .handleEvent _ nowUs => some nowUs
  | _ => none

/-- The clock does not go back. -/
def ClockForward (ops : List (LayerOp K)) : Prop := (ops.filterMap LayerOp.timeUs).Pairwise (· ≤ ·)

omit [Scalar K] in
theorem ClockForward.le {ops : List (LayerOp K)} (h : ClockForward ops) {j k : ℕ} (hjk : j < k)
    {op op' : LayerOp K} (hj : ops[j]? = some op) (hk : ops[k]? = some op') {t t' : ℤ} (ht : op.timeUs = some t)
    (ht' : op'.timeUs = some t') : t ≤ t' := by
  have hpairs := List.pairwise_filterMap.mp h
  obtain ⟨hj', rfl⟩ := List.getElem?_eq_some_iff.mp hj
  obtain ⟨hk', rfl⟩ := List.getElem?_eq_some_iff.mp hk
  exact List.pairwise_iff_getElem.mp hpairs j k hj' hk' hjk t ht t' ht'

namespace MetaAnnotationLayer

/-- The taps since the history was last emptied. -/
def seeTaps (taps : List TapRecord) (layer : MetaAnnotationLayer K) (op : LayerOp K) : List TapRecord :=
  if (layer.step op).tapHistory = [] then []
  else
    match layer.acceptedTap op with
    | some r => taps ++ [r]
    | none => taps

/-- The taps since the history was last emptied, after `k` operations. -/
def tapsAt (start : MetaAnnotationLayer K) (ops : List (LayerOp K)) (k : ℕ) : List TapRecord :=
  (stateAt (watch step seeTaps) (start, []) ops k).2

variable {start layer : MetaAnnotationLayer K} {ops : List (LayerOp K)} {op : LayerOp K} {k : ℕ} {r : TapRecord}
  {taps : List TapRecord}

/-- The history is in order, of the past, and the end of the taps since it was emptied. -/
structure TapsKept (ops : List (LayerOp K)) (k : ℕ) (layer : MetaAnnotationLayer K) (taps : List TapRecord) :
    Prop where
  short : layer.tapHistory.length < tapHistorySize
  ordered : Recent.Ordered TapRecord.timeUs layer.tapHistory
  suffix : layer.tapHistory <:+ taps
  past : ∀ t ∈ layer.tapHistory, ∃ j < k, ∃ op, ops[j]? = some op ∧ op.timeUs = some t.timeUs

omit [Scalar K] in
theorem tapsKept_nil (hempty : layer.tapHistory = []) : TapsKept ops k layer taps := by
  constructor
  · rw [hempty]
    exact Nat.succ_pos 3
  · rw [hempty]
    exact List.Pairwise.nil
  · rw [hempty]
    exact List.nil_suffix
  · rw [hempty]
    intro t ht
    cases ht

theorem timeUs_of_acceptedTap (h : layer.acceptedTap op = some r) : op.timeUs = some r.timeUs := by
  obtain ⟨event, nowUs, rfl, _, htap⟩ := exists_of_acceptedTap h
  exact congrArg some (timeUs_of_tapAt htap).symm

/-- What a tap adds to the history is no older than what is there. -/
theorem TapsKept.le_tap (h : TapsKept ops k layer taps) (hclock : ClockForward ops) (hget : ops[k]? = some op)
    (htap : layer.acceptedTap op = some r) : ∀ t ∈ layer.tapHistory, t.timeUs ≤ r.timeUs := by
  intro t ht
  obtain ⟨j, hj, op', hget', htime⟩ := h.past t ht
  exact hclock.le hj hget' hget htime (timeUs_of_acceptedTap htap)

/-- The history that a tap makes, before a gesture empties it. -/
theorem TapsKept.recorded (h : TapsKept ops k layer taps) (hclock : ClockForward ops) (hget : ops[k]? = some op)
    (htap : layer.acceptedTap op = some r) :
    recordedTap layer.tapHistory r <:+ taps ++ [r] ∧ Recent.Ordered TapRecord.timeUs (recordedTap layer.tapHistory r) ∧
      ∀ t ∈ recordedTap layer.tapHistory r, (t ∈ layer.tapHistory ∨ t = r) ∧ r.timeUs - t.timeUs ≤ quadTapWindowUs := by
  rw [recordedTap_of_short h.short]
  refine ⟨Recent.suffix_concat (Recent.pruned_suffix.trans h.suffix), ?_, ?_⟩
  · refine (h.ordered.of_suffix Recent.pruned_suffix).concat fun t ht => ?_
    exact h.le_tap hclock hget htap t (Recent.pruned_suffix.mem ht)
  · intro t ht
    rcases List.mem_append.mp ht with ht | ht
    · obtain ⟨hmem, hrecent⟩ := (Recent.mem_pruned h.ordered).mp ht
      exact ⟨.inl hmem, hrecent⟩
    · obtain rfl := List.mem_singleton.mp ht
      refine ⟨.inr rfl, ?_⟩
      rw [sub_self]
      decide

theorem tapsKept_step (hclock : ClockForward ops) (hget : ops[k]? = some op) (h : TapsKept ops k layer taps) :
    TapsKept ops (k + 1) (layer.step op) (seeTaps taps layer op) := by
  by_cases hempty : (layer.step op).tapHistory = []
  · exact tapsKept_nil hempty
  · have hstep : (layer.step op).tapHistory = (layer.exec op).tapHistory := rfl
    rw [hstep] at hempty
    unfold seeTaps
    rw [hstep, if_neg hempty]
    cases htap : layer.acceptedTap op with
    | none =>
      have hkept : (layer.exec op).tapHistory = layer.tapHistory := by
        by_cases hstay : unmanages op
        · exact (tapHistory_exec_of_unmanages hstay).resolve_right hempty
        · exact tapHistory_exec_of_quiet htap hstay
      rw [← hstep] at hkept
      constructor
      · rw [hkept]
        exact h.short
      · rw [hkept]
        exact h.ordered
      · rw [hkept]
        exact h.suffix
      · rw [hkept]
        intro t ht
        obtain ⟨j, hj, hop⟩ := h.past t ht
        exact ⟨j, by omega, hop⟩
    | some r =>
      have hhistory := tapHistory_exec_of_tap htap
      cases hgesture : layer.gestureAt op with
      | some gesture =>
        rw [hgesture] at hhistory
        exact absurd hhistory hempty
      | none =>
        rw [hgesture] at hhistory
        have hrecorded : (layer.step op).tapHistory = recordedTap layer.tapHistory r := hhistory
        rw [gestureAt, htap, Option.bind_some] at hgesture
        obtain ⟨hsuffix, hordered, hmem⟩ := h.recorded hclock hget htap
        constructor
        · rw [hrecorded]
          exact length_of_tapGesture_none hgesture
        · rw [hrecorded]
          exact hordered
        · rw [hrecorded]
          exact hsuffix
        · rw [hrecorded]
          intro t ht
          rcases (hmem t ht).1 with ht | rfl
          · obtain ⟨j, hj, hop⟩ := h.past t ht
            exact ⟨j, by omega, hop⟩
          · exact ⟨k, by omega, op, hget, timeUs_of_acceptedTap htap⟩

theorem tapsKept_at (hclock : ClockForward ops) (hstart : start.tapHistory = []) (hk : k ≤ ops.length) :
    TapsKept ops k (stateAt step start ops k) (tapsAt start ops k) := by
  have hwatch : TapsKept ops k (stateAt (watch step seeTaps) (start, []) ops k).1
      (stateAt (watch step seeTaps) (start, []) ops k).2 := by
    refine stateAt_invariant (P := fun k (p : MetaAnnotationLayer K × List TapRecord) => TapsKept ops k p.1 p.2)
      (tapsKept_nil hstart) ?_ hk
    intro j op hget hkept
    exact tapsKept_step hclock hget hkept
  rwa [stateAt_watch_fst] at hwatch

omit [Scalar K] in
/-- The last four of a list with at least four. -/
theorem exists_lastFour {history : List TapRecord} (h : tapHistorySize ≤ (history ++ [r]).length) :
    ∃ a b c, [a, b, c, r] <:+ history ++ [r] := by
  rcases List.eq_nil_or_concat history with rfl | ⟨front, c, rfl⟩
  · simp [tapHistorySize] at h
  rcases List.eq_nil_or_concat front with rfl | ⟨front, b, rfl⟩
  · simp [tapHistorySize] at h
  rcases List.eq_nil_or_concat front with rfl | ⟨front, a, rfl⟩
  · simp [tapHistorySize] at h
  · exact ⟨a, b, c, front, by simp⟩

/-- The taps behind the gesture that empties everything. -/
theorem TapsKept.all_taps (h : TapsKept ops k layer taps) (hclock : ClockForward ops) (hget : ops[k]? = some op)
    (hgesture : layer.gestureAt op = some .all) : ∃ a b c r, layer.acceptedTap op = some r ∧
      [a, b, c, r] <:+ taps ++ [r] ∧ r.timeUs - a.timeUs ≤ quadTapWindowUs := by
  obtain ⟨r, htap, hfound⟩ := Option.bind_eq_some_iff.mp hgesture
  have hlength := length_of_tapGesture_all hfound
  obtain ⟨hsuffix, _, hmem⟩ := h.recorded hclock hget htap
  rw [recordedTap_of_short h.short] at hlength hsuffix hmem
  obtain ⟨a, b, c, hlast⟩ := exists_lastFour hlength
  have ha : a ∈ _ := hlast.mem (List.mem_cons_self ..)
  exact ⟨a, b, c, r, htap, hlast.trans hsuffix, (hmem a ha).2⟩

/-- The taps behind the gesture that empties one canvas. -/
theorem TapsKept.canvas_taps (h : TapsKept ops k layer taps) (hclock : ClockForward ops) (hget : ops[k]? = some op)
    {x : Canvas} (hgesture : layer.gestureAt op = some (.canvas x)) : ∃ a b r, layer.acceptedTap op = some r ∧
      [a, b, r] <:+ taps ++ [r] ∧ a.anchor = x ∧ b.anchor = x ∧ r.anchor = x ∧
      r.timeUs - a.timeUs ≤ tripleTapWindowUs := by
  obtain ⟨r, htap, hfound⟩ := Option.bind_eq_some_iff.mp hgesture
  obtain ⟨a, b, c, hlast, ha, hb, hc, hspan⟩ := exists_of_tapGesture_canvas hfound
  obtain ⟨hsuffix, _, _⟩ := h.recorded hclock hget htap
  obtain rfl : c = r := eq_of_suffix_recordedTap ((List.suffix_append [a, b] [c]).trans hlast)
  exact ⟨a, b, c, htap, hlast.trans hsuffix, ha, hb, hc, hspan⟩

/-- Tap gestures never wipe ink by mistake. -/
theorem taps_sound (display : MetaDisplay) (input : AnnotationInput K) (width height : ℤ) (hclock : ClockForward ops)
    (hk : k ≤ ops.length) :
    let layer := stateAt step (metaAnnotationLayerNew display input width height) ops k
    let taps := tapsAt (metaAnnotationLayerNew display input width height) ops k
    layer.tapHistory.length ≤ tapHistorySize ∧ Recent.Ordered TapRecord.timeUs layer.tapHistory ∧
      (∀ nowUs, (layer.tapHistoryPrune nowUs).tapHistory <:+ layer.tapHistory ∧
        (layer.tapHistoryPrune nowUs).tapHistory =
          layer.tapHistory.filter fun t => nowUs - t.timeUs ≤ quadTapWindowUs) ∧
      ∀ op, ops[k]? = some op →
        (layer.gestureAt op = some .all → ∃ a b c r, layer.acceptedTap op = some r ∧
          [a, b, c, r] <:+ taps ++ [r] ∧ r.timeUs - a.timeUs ≤ quadTapWindowUs) ∧
        (∀ x, layer.gestureAt op = some (.canvas x) → ∃ a b r, layer.acceptedTap op = some r ∧
          [a, b, r] <:+ taps ++ [r] ∧ a.anchor = x ∧ b.anchor = x ∧ r.anchor = x ∧
          r.timeUs - a.timeUs ≤ tripleTapWindowUs) ∧
        ∀ event nowUs c, op = .handleEvent event nowUs → layer.releases event → ¬ layer.Clears op c →
          (layer.exec op).canvasStrokes c = (layer.releasing event).canvasStrokes c ∧
          (layer.exec op).canvasSurface c = (layer.releasing event).canvasSurface c := by
  have hstart : (metaAnnotationLayerNew display input width height).tapHistory = [] :=
    tapHistory_of_pointers pointers_onStageSizeChanged
  have hkept := tapsKept_at hclock hstart hk
  dsimp only
  refine ⟨hkept.short.le, hkept.ordered, fun nowUs => ⟨Recent.pruned_suffix, Recent.pruned_eq_filter hkept.ordered⟩,
    fun op hget => ⟨hkept.all_taps hclock hget, fun x => hkept.canvas_taps hclock hget, ?_⟩⟩
  rintro event nowUs c rfl hreleases hclears
  exact ink_exec_of_release hreleases hclears

/-! Runs of taps with one finger. -/

/-- A tap of ten milliseconds. -/
def tapOps (x y : ℚ) (t : ℤ) : List (LayerOp ℚ) :=
  [.handleEvent (.touch .touchBegin x y 0) t, .handleEvent (.touch .touchEnd x y 0) (t + 10000)]

/-- Three taps on the desktop. -/
def threeTaps (t₁ t₂ t₃ : ℤ) : List (LayerOp ℚ) :=
  .call (.setActive true) :: (tapOps 1 1 t₁ ++ tapOps 1 1 t₂ ++ tapOps 1 1 t₃)

/-- The taps behind the gesture of the third. -/
theorem taps_sound_threeTaps :
    let ops := threeTaps 1000000 1020000 1040000
    ∃ a b r, [a, b, r] <:+ tapsAt (metaAnnotationLayerNew .bare .initial 10 10) ops 6 ++ [r] ∧ a.anchor = none ∧
      b.anchor = none ∧ r.anchor = none ∧ r.timeUs - a.timeUs ≤ tripleTapWindowUs := by
  intro ops
  have hclock : ClockForward ops := by unfold ClockForward; decide
  have hget : ops[6]? = some (.handleEvent (.touch .touchEnd 1 1 0) 1050000) := rfl
  have hsound := (taps_sound .bare .initial 10 10 hclock (by decide : 6 ≤ ops.length)).2.2.2 _ hget
  obtain ⟨a, b, r, _, hlast, ha, hb, hr, hspan⟩ := hsound.2.1 none (by decide +kernel)
  exact ⟨a, b, r, hlast, ha, hb, hr, hspan⟩

end MetaAnnotationLayer

end Annotations
