import Annotations.Overlay.Gate

/-! The fallback position of a stroke. The repairs of the capture go back to the last good position.
The session keeps it only while the pen is down, and unless a click has dropped the gesture it is
where a point of the stroke that goes on was appended. -/

namespace Annotations.Overlay

open History Runs

variable {K : Type} [Scalar K]

/-- The gesture in progress gains a last point at a position of the canvas. -/
def GainsPoint (m m' : StrokeModel K) (xy : K × K) : Prop :=
  ∃ pts q, gesture m = some pts ∧ gesture m' = some (pts ++ [q]) ∧ (q.x, q.y) = xy

namespace OverlaySession

variable {env : Desktop K} {event : Event K} {s s' s'' : OverlaySession K} {p p1 l : K × K} {t : ClutterEventType}

/-! ### What a handler does to the last good position -/

/-- A handler drops the last good position, or keeps it and the pen, or appends a point there to the
gesture in progress. -/
inductive Recalls (env : Desktop K) (s s' : OverlaySession K) : Prop where
  | dropped (h : s'.lastGoodCapStageXY = none)
  | kept (h : s'.lastGoodCapStageXY = s.lastGoodCapStageXY) (hdown : s'.penDown = s.penDown) (hbegun : s'.inkBegun = s.inkBegun)
  | appended (l : K × K) (h : s'.lastGoodCapStageXY = some l) (hdown : s.penDown = true ∧ s'.penDown = true)
      (hbegun : s'.inkBegun = s.inkBegun) (hroot : env.stagePointInOverlayRoot l = true)
      (hgains : OneInProgress s.model → GainsPoint s.model s'.model (l.1 - env.drawArea.1, l.2 - env.drawArea.2))

omit [Scalar K] in
theorem Recalls.refl [Scalar K] (env : Desktop K) (s : OverlaySession K) : Recalls env s s := .kept rfl rfl rfl

theorem recalls_commit : Recalls env s s.commitPenStrokeFromCapture := by
  unfold commitPenStrokeFromCapture
  dsimp only
  split
  · exact .refl env s
  · split
    · exact .dropped rfl
    · exact .dropped rfl

theorem inkBegun_appendInk : (s.appendInk env event).inkBegun = s.inkBegun := by
  have hrefresh : ∀ s : OverlaySession K, (s.refreshPenStrokeLastGoodStageXY env).inkBegun = s.inkBegun := by
    intro s
    unfold refreshPenStrokeLastGoodStageXY
    split
    · rfl
    · split <;> rfl
  unfold appendInk
  rw [hrefresh]
  split
  · exact inkBegun_call rfl
  · exact inkBegun_call rfl

theorem lastGood_refresh (c : StrokeModel.Call K) :
    ((s.call c).refreshPenStrokeLastGoodStageXY env).lastGoodCapStageXY =
      match s.penCapStageXY with
      | none => s.lastGoodCapStageXY
      | some p => if env.stagePointInOverlayRoot p then some p else s.lastGoodCapStageXY := by
  unfold refreshPenStrokeLastGoodStageXY
  simp only [OverlaySession.call]
  cases s.penCapStageXY with
  | none => rfl
  | some p => dsimp only; split <;> rfl

theorem lastGood_appendInk :
    (s.appendInk env event).lastGoodCapStageXY =
      match s.penCapStageXY with
      | none => s.lastGoodCapStageXY
      | some p => if env.stagePointInOverlayRoot p then some p else s.lastGoodCapStageXY := by
  unfold appendInk
  dsimp only
  split
  · exact lastGood_refresh _
  · exact lastGood_refresh _

theorem recalls_appendInk (hdown : s.penDown = true) : Recalls env s (s.appendInk env event) := by
  have hlast : (s.appendInk env event).lastGoodCapStageXY = _ := lastGood_appendInk
  cases hcap : s.penCapStageXY with
  | none =>
    rw [hcap] at hlast
    exact .kept hlast penDown_appendInk inkBegun_appendInk
  | some p =>
    simp only [hcap] at hlast
    by_cases hroot : env.stagePointInOverlayRoot p = true
    · rw [if_pos hroot] at hlast
      refine .appended p hlast ⟨hdown, penDown_appendInk.trans hdown⟩ inkBegun_appendInk hroot fun hone => ?_
      obtain ⟨pts, q, hbefore, hafter, hq⟩ : ∃ pts q, gesture s.model = some pts ∧
          gesture (s.appendInk env event).model = some (pts ++ [q]) ∧ (q.x, q.y) = s.localFromEvent env event :=
        gesture_appendInk hone
      have hlocal : s.localFromEvent env event = (p.1 - env.drawArea.1, p.2 - env.drawArea.2) := by
        unfold localFromEvent
        rw [hcap]
        rfl
      exact ⟨pts, q, hbefore, hafter, hq.trans hlocal⟩
    · rw [if_neg hroot] at hlast
      exact .kept hlast penDown_appendInk inkBegun_appendInk

/-- What the fallback is about. -/
structure SameInk (s s' : OverlaySession K) : Prop where
  good : s'.lastGoodCapStageXY = s.lastGoodCapStageXY
  down : s'.penDown = s.penDown
  calls : s'.calls = s.calls
  model : s'.model = s.model

omit [Scalar K] in
theorem SameInk.refl (s : OverlaySession K) : SameInk s s := ⟨rfl, rfl, rfl, rfl⟩

theorem SameInk.recalls (h : SameInk s s') : Recalls env s s' := by
  refine .kept h.good h.down ?_
  unfold inkBegun
  rw [h.calls]

/-- Around a handler the capture sets other fields. -/
theorem Recalls.around {a a' : OverlaySession K} (h : Recalls env a a') (hbefore : SameInk s a) (hafter : SameInk a' s') :
    Recalls env s s' := by
  have hbegun : a'.inkBegun = a.inkBegun → s'.inkBegun = s.inkBegun := by
    unfold inkBegun
    rw [hafter.calls, hbefore.calls]
    exact id
  cases h with
  | dropped h => exact .dropped (hafter.good.trans h)
  | kept h hdown hsame =>
    exact .kept (hafter.good.trans (h.trans hbefore.good)) (hafter.down.trans (hdown.trans hbefore.down)) (hbegun hsame)
  | appended l h hdown hsame hroot hgains =>
    refine .appended l (hafter.good.trans h) ⟨hbefore.down ▸ hdown.1, hafter.down.trans hdown.2⟩ (hbegun hsame) hroot ?_
    rw [hafter.model, ← hbefore.model]
    exact hgains

/-- The last good position is kept only while the pen is down. -/
def GoodWhileDown (s : OverlaySession K) : Prop := s.lastGoodCapStageXY ≠ none → s.penDown = true

omit [Scalar K] in
theorem GoodWhileDown.none (h : s.GoodWhileDown) (hup : s.penDown = false) : s.lastGoodCapStageXY = none := by
  by_contra hgood
  rw [h hgood] at hup
  cases hup

omit [Scalar K] in
theorem GoodWhileDown.same (h : s.GoodWhileDown) (hsame : SameInk s s') : s'.GoodWhileDown := by
  intro hgood
  rw [hsame.good] at hgood
  exact hsame.down.trans (h hgood)

theorem Recalls.goodWhileDown (hrecalls : Recalls env s s') (h : s.GoodWhileDown) : s'.GoodWhileDown := by
  intro hgood
  cases hrecalls with
  | dropped hnone => exact absurd hnone hgood
  | kept hsame hdown _ => exact hdown.trans (h (hsame ▸ hgood))
  | appended l _ hdown _ _ _ => exact hdown.2

theorem recalls_clicked {button : DockAction K} : Recalls env s (s.clicked button) := by
  cases button with
  | swatch rgb => exact .kept rfl rfl rfl
  | clear => exact .kept rfl rfl (inkBegun_call rfl)

section Handlers

variable [FloorRing K]

theorem recalls_onStrokeMotion (hdown : s.penDown = true) : Recalls env s (s.onStrokeMotion env event).2 := by
  unfold onStrokeMotion
  split
  · exact .refl env s
  · split
    · exact recalls_commit
    · exact recalls_appendInk hdown

theorem recalls_onPress (h : s.GoodWhileDown) : Recalls env s (s.onPress env event).2 := by
  unfold onPress
  split
  · exact .refl env s
  split
  · next hforward =>
    split at hforward
    · obtain ⟨-, button, rfl⟩ := forwarded_eq_clicked hforward
      exact recalls_clicked
    · cases hforward
  split
  · exact recalls_commit
  split
  · next hdown => exact recalls_onStrokeMotion hdown
  next hdown =>
  split
  · exact .refl env s
  split
  · exact .kept rfl rfl rfl
  · refine .dropped ?_
    have hnone := h.none (by simpa using hdown)
    unfold beginInk
    dsimp only
    split
    · exact hnone
    · exact hnone

theorem recalls_onMotion (h : s.GoodWhileDown) : Recalls env s (s.onMotion env event).2 := by
  unfold onMotion
  split
  · exact .refl env s
  split
  · next hdown => exact recalls_onStrokeMotion hdown
  split
  · exact .refl env s
  split
  · exact .refl env s
  split
  · split
    · exact .refl env s
    · split
      · have hsame : SameInk s { s with penAwaitInkAfterRange := false, penDeferredAnchorStageXY := none } := ⟨rfl, rfl, rfl, rfl⟩
        exact (recalls_onPress (h.same hsame)).around hsame (.refl _)
      · exact .refl env s
  · split
    · split
      · exact .refl env s
      · exact recalls_onPress h
    · exact .refl env s

omit [FloorRing K] in
theorem recalls_onRelease : Recalls env s (s.onRelease event).2 := by
  have hforget : SameInk s (s.releaseAnchor event) := by
    unfold releaseAnchor
    split
    · exact ⟨rfl, rfl, rfl, rfl⟩
    · exact .refl s
  unfold onRelease
  dsimp only
  split
  · exact .refl env s
  split
  · exact .refl env s
  split
  · exact hforget.recalls
  · exact recalls_commit.around hforget (.refl _)

omit [FloorRing K] in
theorem recalls_dispatchPenCapture {fn : OverlaySession K → EventReturn × OverlaySession K}
    (h : Recalls env (s.dispatchedAt p) (fn (s.dispatchedAt p)).2) : Recalls env s (s.dispatchPenCapture p fn).2 :=
  h.around ⟨rfl, rfl, rfl, rfl⟩ ⟨rfl, rfl, rfl, rfl⟩

theorem recalls_dispatchForward : Recalls env s (s.dispatchForward env event p) := by
  unfold dispatchForward
  cases hforward : (s.dispatchedAt p).forwardPenDockIfSwatchHit env event with
  | none => exact .kept rfl rfl rfl
  | some s' =>
    obtain ⟨-, button, rfl⟩ := forwarded_eq_clicked hforward
    exact recalls_clicked.around (a := s.dispatchedAt p) ⟨rfl, rfl, rfl, rfl⟩ ⟨rfl, rfl, rfl, rfl⟩

theorem recalls_dispatchCanvas (h : s.GoodWhileDown) : Recalls env s (s.dispatchCanvas env event p1 t).2 := by
  have hmotion : ∀ s : OverlaySession K, s.GoodWhileDown →
      Recalls env s (s.dispatchPenCapture p1 fun s => s.onMotion env event).2 :=
    fun s h => recalls_dispatchPenCapture (recalls_onMotion (h.same ⟨rfl, rfl, rfl, rfl⟩))
  have hrelease : ∀ s : OverlaySession K, Recalls env s (s.dispatchPenCapture p1 fun s => s.onRelease event).2 :=
    fun s => recalls_dispatchPenCapture recalls_onRelease
  unfold dispatchCanvas
  split
  · exact recalls_dispatchPenCapture (recalls_onPress (h.same ⟨rfl, rfl, rfl, rfl⟩))
  split
  · exact hmotion s h
  split
  · exact hrelease s
  split
  · dsimp only
    split
    · refine Recalls.around (hrelease _) ?_ (.refl _)
      exact ⟨rfl, rfl, rfl, rfl⟩
    · exact hrelease s
  split
  · dsimp only
    split
    · refine Recalls.around (hmotion _ (h.same ?_)) ?_ (.refl _)
      · exact ⟨rfl, rfl, rfl, rfl⟩
      · exact ⟨rfl, rfl, rfl, rfl⟩
    · exact .kept rfl rfl rfl
  split
  · split
    · exact .kept rfl rfl rfl
    · exact .refl env s
  split
  · exact hmotion s h
  · exact .refl env s

theorem recalls_captureAt (h : s.GoodWhileDown) : Recalls env s (s.captureAt env event p).2 := by
  unfold captureAt
  dsimp only
  split
  · exact .refl env s
  · split
    · split
      · exact .refl env s
      · exact recalls_dispatchForward
    · exact .refl env s
  · dsimp only
    split
    · exact recalls_commit
    · exact recalls_dispatchForward
  · exact recalls_commit
  · split
    · exact recalls_dispatchCanvas h
    · split
      · exact recalls_dispatchCanvas h
      · exact .refl env s

theorem recalls_onPenStageCaptured (h : s.GoodWhileDown) : Recalls env s (s.onPenStageCaptured env event).2 := by
  unfold onPenStageCaptured
  split
  · exact .refl env s
  split
  · exact .refl env s
  split
  · exact .refl env s
  dsimp only
  split
  · exact .kept rfl rfl rfl
  · have hremember : (s.remember event).GoodWhileDown := h.same ⟨rfl, rfl, rfl, rfl⟩
    exact (recalls_captureAt hremember).around ⟨rfl, rfl, rfl, rfl⟩ (.refl _)

/-- The step lemma. -/
theorem recalls_step (h : s.GoodWhileDown) (i : Step K) : Recalls i.env s (s.step i) := by
  obtain ⟨env, action⟩ := i
  cases action with
  | captured event => exact recalls_onPenStageCaptured h
  | press event => exact recalls_onPress h
  | motion event => exact recalls_onMotion h
  | release event => exact recalls_onRelease
  | toggle =>
    change Recalls env s s.toggle
    unfold OverlaySession.toggle
    split
    · exact .dropped rfl
    · exact .kept rfl rfl rfl
  | clicked button => exact recalls_clicked
  | undoClicked => exact .kept rfl rfl (inkBegun_call rfl)

/-! ### Whole runs -/

/-- The step appends a point to the gesture in progress at a stage position inside the root. -/
def AppendsAt (s : OverlaySession K) (i : Step K) (l : K × K) : Prop :=
  i.env.stagePointInOverlayRoot l = true ∧
    GainsPoint s.model (s.step i).model (l.1 - i.env.drawArea.1, l.2 - i.env.drawArea.2)

/-- A step of the run appends a point there, and since before that step the pen has been down and
no gesture has begun. -/
def OfThisStroke (is : List (Step K)) (l : K × K) : Prop :=
  ∃ k i, is[k]? = some i ∧ (stateAt step new is k).AppendsAt i l ∧
    ∀ j, k ≤ j → j ≤ is.length → (stateAt step new is j).penDown = true ∧
      (stateAt step new is j).inkBegun = (run step new is).inkBegun

theorem OfThisStroke.concat {is : List (Step K)} {i : Step K} {l : K × K} (h : OfThisStroke is l)
    (hdown : (run step new (is ++ [i])).penDown = true)
    (hbegun : (run step new (is ++ [i])).inkBegun = (run step new is).inkBegun) : OfThisStroke (is ++ [i]) l := by
  obtain ⟨k, i', hget, happends, hsince⟩ := h
  have hk : k < is.length := (List.getElem?_eq_some_iff.mp hget).1
  have hstate : ∀ j, j ≤ is.length → stateAt step (new : OverlaySession K) (is ++ [i]) j = stateAt step new is j := by
    intro j hj
    unfold stateAt
    rw [List.take_append_of_le_length hj]
  refine ⟨k, i', (List.getElem?_append_left hk).trans hget, ?_, ?_⟩
  · rw [hstate k hk.le]
    exact happends
  · intro j hj hj'
    rw [List.length_append, List.length_singleton] at hj'
    rcases Nat.lt_or_ge is.length j with hlast | hearlier
    · obtain rfl : j = is.length + 1 := by omega
      have hfinal : stateAt step (new : OverlaySession K) (is ++ [i]) (is.length + 1) = run step new (is ++ [i]) := by
        rw [← stateAt_length, List.length_append, List.length_singleton]
      rw [hfinal]
      exact ⟨hdown, rfl⟩
    · rw [hstate j hearlier, hbegun]
      exact hsince j hj hearlier

theorem goodWhileDown_run (is : List (Step K)) : (run step (new : OverlaySession K) is).GoodWhileDown :=
  run_invariant (fun _ i h => (recalls_step h i).goodWhileDown h) fun hgood => absurd rfl hgood

/-- The run lemma: the position is of the stroke that goes on as long as no click drops the gesture. -/
theorem ofThisStroke_run {is : List (Step K)} (hclicks : Along step (fun s i => ¬ DropsGesture s i) (new : OverlaySession K) is)
    (hl : (run step (new : OverlaySession K) is).lastGoodCapStageXY = some l) : OfThisStroke is l := by
  induction is using List.reverseRecOn generalizing l with
  | nil => cases hl
  | append_singleton is i ih =>
    have hbefore := (along_concat.mp hclicks).1
    have hrecalls := recalls_step (goodWhileDown_run is) i
    have hisdown : (run step (new : OverlaySession K) (is ++ [i])).penDown = true :=
      goodWhileDown_run _ (by rw [hl]; exact Option.some_ne_none l)
    rw [run_concat] at hl
    cases hrecalls with
    | dropped h =>
      rw [h] at hl
      cases hl
    | kept h hsame hbegun =>
      refine (ih hbefore (h.symm.trans hl)).concat hisdown ?_
      rw [run_concat]
      exact hbegun
    | appended l' h hboth hbegun hroot hgains =>
      obtain rfl := Option.some.inj (h.symm.trans hl)
      have hone : OneInProgress (run step (new : OverlaySession K) is).model := (inStep_run hbefore).down hboth.1
      have hstate : stateAt step (new : OverlaySession K) (is ++ [i]) is.length = run step new is := by
        rw [stateAt, List.take_left]
      have hfinal : stateAt step (new : OverlaySession K) (is ++ [i]) (is.length + 1) = run step new (is ++ [i]) := by
        rw [← stateAt_length, List.length_append, List.length_singleton]
      refine ⟨is.length, i, List.getElem?_concat_length, ?_, ?_⟩
      · rw [hstate]
        exact ⟨hroot, hgains hone⟩
      · intro j hj hj'
        rw [List.length_append, List.length_singleton] at hj'
        rcases Nat.eq_or_lt_of_le hj with rfl | hlast
        · rw [hstate, run_concat]
          exact ⟨hboth.1, hbegun.symm⟩
        · obtain rfl : j = is.length + 1 := by omega
          rw [hfinal]
          exact ⟨hisdown, rfl⟩

/-! ### The repairs -/

/-- The positions that a repair may come to: the event's own, the core pointer's, a fallback, and
these clamped to the root. -/
inductive RepairedTo (env : Desktop K) (fallback : K × K → Prop) (p : K × K) : K × K → Prop where
  | own : RepairedTo env fallback p p
  | pointer (q : K × K) (h : env.pointer = some q) : RepairedTo env fallback p q
  | fallback (l : K × K) (h : fallback l) : RepairedTo env fallback p l
  | clamped (q : K × K) (h : RepairedTo env fallback p q) : RepairedTo env fallback p (env.clampStageXYToRootBounds q)

variable {fallback : K × K → Prop}

omit [FloorRing K] in
theorem rootRepaired_to (hgood : ∀ l, s.penDown = true → s.lastGoodCapStageXY = some l → fallback l) :
    RepairedTo env fallback p (s.rootRepaired env event p) := by
  have hpointer : RepairedTo env fallback p (pointerRepaired env p) := by
    unfold pointerRepaired
    split
    · exact .own
    · split
      · exact .own
      · next q hq =>
        split
        · exact .pointer q hq
        · exact .own
  have hfirst : RepairedTo env fallback p
      (if s.penTabletCoercedMotion event p then s.lastGoodCapStageXY.getD p else pointerRepaired env p) := by
    split
    · next hcoerced =>
      unfold penTabletCoercedMotion at hcoerced
      simp only [Bool.and_eq_true] at hcoerced
      cases hlast : s.lastGoodCapStageXY with
      | none => exact .own
      | some l => exact .fallback l (hgood l hcoerced.1.1.1.1 hlast)
    · exact hpointer
  unfold rootRepaired
  dsimp only
  generalize (if s.penTabletCoercedMotion event p then s.lastGoodCapStageXY.getD p else pointerRepaired env p) = p0
    at hfirst ⊢
  split
  · exact hfirst
  next hstream =>
  split
  · exact .clamped _ hfirst
  · -- only a stroke goes back to its last good position
    simp only [Bool.or_eq_true, Bool.not_eq_true', not_or, Bool.not_eq_false] at hstream
    have hdown : s.penDown = true := by
      have h := hstream.2
      unfold strokeStream at h
      rw [Bool.and_eq_true] at h
      exact h.1
    cases hlast : s.lastGoodCapStageXY with
    | none => exact .clamped _ hfirst
    | some l => exact .fallback l (hgood l hdown hlast)

omit [FloorRing K] in
theorem lastGoodRepaired_to {l : K × K} (h : fallback l) : RepairedTo env fallback p (lastGoodRepaired env l) := by
  unfold lastGoodRepaired
  split
  · exact .fallback l h
  · exact .clamped l (.fallback l h)

theorem repaired_to (hgood : ∀ l, s.penDown = true → s.lastGoodCapStageXY = some l → fallback l) :
    RepairedTo env fallback p (s.repaired env event p) := by
  have hdock : RepairedTo env fallback p (s.dockRepaired env event p (s.rootRepaired env event p)) := by
    unfold dockRepaired
    split
    · next htests =>
      simp only [Bool.and_eq_true] at htests
      split
      · exact rootRepaired_to hgood
      · next l hlast => exact lastGoodRepaired_to (hgood l htests.1.1 hlast)
    · exact rootRepaired_to hgood
  unfold repaired ghostRepaired
  split
  · next htests =>
    simp only [Bool.and_eq_true] at htests
    split
    · exact hdock
    · next l hlast =>
      split
      · exact lastGoodRepaired_to (hgood l htests.1.1 hlast)
      · exact hdock
  · exact hdock

/-- The fallback never comes from another stroke, unless a click drops the gesture while the pen is
down: in every run without such a click the last good position is kept only while the pen is down,
it is where a point of the stroke that goes on was appended, inside the root, and the repairs of the
capture go back to no other. -/
theorem lastGood_ofThisStroke {is : List (Step K)}
    (hclicks : Along step (fun s i => ¬ DropsGesture s i) (new : OverlaySession K) is) :
    ((run step (new : OverlaySession K) is).lastGoodCapStageXY ≠ none → (run step (new : OverlaySession K) is).penDown = true) ∧
      (∀ l, (run step (new : OverlaySession K) is).lastGoodCapStageXY = some l → OfThisStroke is l) ∧
      ∀ env event p, RepairedTo env (OfThisStroke is) p ((run step (new : OverlaySession K) is).repaired env event p) :=
  ⟨goodWhileDown_run is, fun _ hl => ofThisStroke_run hclicks hl,
    fun _ _ _ => repaired_to fun _ _ hl => ofThisStroke_run hclicks hl⟩

end Handlers

/-! ### Clear all during a stroke -/

def sampleMotion : Step ℚ := ⟨sampleDesktop, .captured (samplePen 2 .motion 540 500)⟩

/-- The drag that starts the stroke is not yet a fallback, the motion after it is. -/
theorem lastGood_ofThisStroke_dragged :
    Along step (fun s i => ¬ DropsGesture s i) new (sampleStroke ++ [sampleMotion]) ∧
      (run step new sampleStroke).lastGoodCapStageXY = none ∧
      (run step new (sampleStroke ++ [sampleMotion])).lastGoodCapStageXY = some (540, 500) ∧
      OfThisStroke (sampleStroke ++ [sampleMotion]) (540, 500) := by
  have hclicks : Along step (fun s i => ¬ DropsGesture s i) new (sampleStroke ++ [sampleMotion]) :=
    ⟨fun h => h.2, fun h => h.2, fun h => h.2, fun h => h.2, trivial⟩
  have hlast : (run step new (sampleStroke ++ [sampleMotion])).lastGoodCapStageXY = some (540, 500) := by decide +kernel
  exact ⟨hclicks, by decide +kernel, hlast, (lastGood_ofThisStroke hclicks).2.1 _ hlast⟩

/-- A stroke, Clear all in the middle of it, and a motion. -/
def sampleCleared : List (Step ℚ) := sampleStroke ++ [⟨sampleDesktop, .clicked .clear⟩, sampleMotion]

/-- Clear all, clicked during the stroke: the pen stays down, the next motion is appended to nothing
and becomes the fallback all the same. -/
theorem not_lastGood_ofThisStroke_clear :
    ¬ ∀ (is : List (Step ℚ)) (l : ℚ × ℚ), (run step new is).lastGoodCapStageXY = some l → OfThisStroke is l := by
  intro h
  obtain ⟨k, i, hget, ⟨-, pts, q, hbefore, hafter, -⟩, -⟩ := h sampleCleared (540, 500) (by decide +kernel)
  have hk : k < 5 := (List.getElem?_eq_some_iff.mp hget).1
  have hnone : ∀ k < 5, (gesture (stateAt step new sampleCleared k).model).isSome = false ∨
      (gesture (stateAt step new sampleCleared (k + 1)).model).isSome = false := by decide +kernel
  have hsucc : stateAt step new sampleCleared (k + 1) = step (stateAt step new sampleCleared k) i := stateAt_succ hget
  rw [← hsucc] at hafter
  rcases hnone k hk with hnone | hnone
  · simp [hbefore] at hnone
  · simp [hafter] at hnone

end OverlaySession

end Annotations.Overlay
