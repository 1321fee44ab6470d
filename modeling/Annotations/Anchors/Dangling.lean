import Annotations.Anchors.Pointers
import Annotations.Ink.Undo

/-! No pointer of the layer outlives the record of its window, and an undo target on the
desktop is always one that a press on the desktop has set. -/

namespace Annotations

open Sheets Runs

variable {K : Type}

namespace Pointers

variable {p q : Pointers} {keys keys' : WindowId → Prop}

/-- Every pointer that means anything is a key. -/
structure HeldBy (p : Pointers) (keys : WindowId → Prop) : Prop where
  lastInk : ∀ win, p.lastInkAnchor = some win → keys win
  pending : p.pendingTap → ∀ win, p.pendingTapAnchor = some win → keys win
  history : ∀ t ∈ p.tapHistory, ∀ win, t.anchor = some win → keys win

theorem HeldBy.mono (h : p.HeldBy keys) (hkeys : ∀ win, keys win → keys' win) : p.HeldBy keys' :=
  ⟨fun win hwin => hkeys win (h.lastInk win hwin), fun hp win hwin => hkeys win (h.pending hp win hwin),
    fun t ht win hwin => hkeys win (h.history t ht win hwin)⟩

theorem From.heldBy (hfrom : p.From q) (h : p.HeldBy keys) : q.HeldBy keys where
  lastInk win hwin := by
    rcases hfrom.lastInk with ⟨hsame, _⟩ | ⟨hnone, _⟩
    · exact h.lastInk win (hsame ▸ hwin)
    · simp [hnone] at hwin
  pending hq win hwin := by
    obtain ⟨hp, hsame⟩ := hfrom.pending hq
    exact h.pending hp win (hsame ▸ hwin)
  history t ht win hwin := by
    rcases hfrom.history t ht with ht | ⟨hp, hsame⟩
    · exact h.history t ht win hwin
    · exact h.pending hp win (hsame ▸ hwin)

/-- A window that goes takes its pointers along. -/
theorem HeldBy.without (h : p.HeldBy keys) (win : WindowId) :
    (p.without win).HeldBy fun win' => win' ≠ win ∧ keys win' := by
  have hold := (from_without win).heldBy h
  refine ⟨fun win' hwin' => ⟨?_, hold.lastInk win' hwin'⟩, fun hp win' hwin' => ⟨?_, hold.pending hp win' hwin'⟩,
    fun t ht win' hwin' => ⟨?_, hold.history t ht win' hwin'⟩⟩
  · rintro rfl
    simp only [Pointers.without] at hwin'
    split_ifs at hwin' with hlast
    exact hlast hwin'
  · rintro rfl
    have hother : p.pendingTapAnchor ≠ some win' := of_decide_eq_true (Bool.and_eq_true _ _ ▸ hp).2
    exact hother hwin'
  · rintro rfl
    simp only [Pointers.without] at ht
    split_ifs at ht with hany
    · cases ht
    · exact hany (List.any_eq_true.mpr ⟨t, ht, decide_eq_true hwin'⟩)

end Pointers

/-- A press adds the window it picks to the keys. -/
theorem Registry.isSome_press [Scalar K] {r : Registry K} {c : Canvas} {win : WindowId}
    (hsize : ∀ win, c = some win → 1 ≤ (r.rect win).width ∧ 1 ≤ (r.rect win).height) :
    ((r.press c).frame win).isSome ↔ (r.frame win).isSome ∨ c = some win := by
  cases c with
  | none => simp [Registry.press]
  | some picked =>
    by_cases hwin : win = picked
    · subst hwin
      have hrecord : (recordOn (r.rect win) (r.frame win)).isSome := by
        cases hframe : r.frame win with
        | some f => rfl
        | none =>
          rw [recordOn, if_neg (by have := hsize win rfl; omega)]
          rfl
      simpa [Registry.press, Registry.write] using hrecord
    · simp [Registry.press, Registry.write, hwin, Ne.symm hwin]

namespace MetaAnnotationLayer

variable {layer : MetaAnnotationLayer K} {win : WindowId}

/-- The keys of `per_window`. -/
def keys (layer : MetaAnnotationLayer K) (win : WindowId) : Prop := (layer.registry.frame win).isSome

theorem keys_iff : layer.keys win ↔ (layer.perWindow win).isSome := by
  simp [keys, registry]

variable [Scalar K]

/-- Records go only with their windows. -/
theorem keys_execCall (call : Call K) (hcall : ∀ win, call ≠ .windowUnmanaged win) (hkey : layer.keys win) :
    (layer.execCall call).keys win := by
  obtain ⟨f, hf⟩ := Option.isSome_iff_exists.mp hkey
  have hwrite : ∀ (wins : List WindowId) (g : MtkRectangle → Option (Frame K) → Option (Frame K)),
      (∀ rect, (g rect (some f)).isSome) → ((layer.registry.write wins g).frame win).isSome := by
    intro wins g hg
    simp only [Registry.write, hf]
    split_ifs
    · exact hg _
    · rfl
  unfold keys
  rw [registry_execCall]
  cases call with
  | setWindowEditorRegion pid x y w h =>
    exact hwrite (layer.display.collectWindowsForPid pid) (fun rect f => (recordOn rect f).map (·.withRegion x y w h))
      fun _ => rfl
  | setWindowScroll pid scrollX scrollY =>
    exact hwrite (layer.display.collectWindowsForPid pid) (fun _ f => f.map (·.withScroll scrollX scrollY)) fun _ => rfl
  | windowManaged win' data =>
    simp only [Registry.call]
    split_ifs <;> exact hkey
  | windowUnmanaged win' => exact absurd rfl (hcall win')
  | _ => exact hkey

/-- The window of a press that begins a stroke in ink mode. -/
def inkPress (layer : MetaAnnotationLayer K) : LayerOp K → Option Canvas
  | .handleEvent event _ =>
    if layer.begins event && !layer.eraseIsActive event then some (layer.pickAnchorWindow event.x event.y) else none
  | _ => none

/-- A press that inks sets the undo target, and the pending tap is on the window that is
pressed. -/
theorem pointers_handleEvent_of_begins {event : ClutterEvent K} (nowUs : ℤ) (hbegins : layer.begins event) :
    let p := (layer.handleEvent event nowUs).1.pointers
    (if layer.eraseIsActive event then
        p.lastInkAnchor = layer.lastInkAnchor ∧ p.lastInkPresent = layer.lastInkPresent
      else p.lastInkAnchor = layer.pickAnchorWindow event.x event.y ∧ p.lastInkPresent) ∧
      (p.pendingTap → p.pendingTapAnchor = layer.pickAnchorWindow event.x event.y) ∧
      p.tapHistory = layer.tapHistory := by
  have hbegun : ∀ u : MetaAnnotationLayer K, u.pointers = (layer.beginStroke event.x event.y event.getPressure
      event.getTiltFactor (layer.eraseIsActive event)).pointers →
      (if layer.eraseIsActive event then
        u.lastInkAnchor = layer.lastInkAnchor ∧ u.lastInkPresent = layer.lastInkPresent
      else u.lastInkAnchor = layer.pickAnchorWindow event.x event.y ∧ u.lastInkPresent) ∧
      u.tapHistory = layer.tapHistory := by
    intro u hu
    rw [pointers_beginStroke] at hu
    split_ifs at hu ⊢
    · exact ⟨⟨congrArg Pointers.lastInkAnchor hu, congrArg Pointers.lastInkPresent hu⟩, congrArg Pointers.tapHistory hu⟩
    · exact ⟨⟨congrArg Pointers.lastInkAnchor hu, congrArg Pointers.lastInkPresent hu⟩, congrArg Pointers.tapHistory hu⟩
  obtain ⟨hlast, hhistory⟩ := hbegun _ rfl
  rcases handleEvent_of_begins nowUs hbegins with h | h
  · rw [h]
    exact ⟨hlast, fun _ => beginStroke_strokeAnchor .., hhistory⟩
  · rw [h]
    exact ⟨hlast, nofun, hhistory⟩

theorem heldBy_handleEvent {event : ClutterEvent K} {nowUs : ℤ} (h : layer.pointers.HeldBy layer.keys) :
    (layer.handleEvent event nowUs).1.pointers.HeldBy (layer.handleEvent event nowUs).1.keys := by
  cases hbegins : layer.begins event with
  | false =>
    have hkeys : (layer.handleEvent event nowUs).1.keys = layer.keys := by
      unfold keys
      rw [registry_handleEvent_of_not_begins hbegins]
    rw [hkeys]
    exact (from_handleEvent_of_not_begins hbegins).heldBy h
  | true =>
    have hkeys : ∀ win, (layer.handleEvent event nowUs).1.keys win ↔
        layer.keys win ∨ layer.pickAnchorWindow event.x event.y = some win := by
      intro win
      unfold keys
      rw [registry_handleEvent, if_pos hbegins]
      exact Registry.isSome_press fun win hwin => (pickAnchorWindow_eq_some hwin).2
    obtain ⟨hlast, hpending, hhistory⟩ := pointers_handleEvent_of_begins nowUs hbegins
    refine ⟨fun win hwin => ?_, fun hp win hwin => ?_, fun t ht win hwin => ?_⟩
    · rw [hkeys]
      split_ifs at hlast
      · exact .inl (h.lastInk win (hlast.1.symm.trans hwin))
      · exact .inr (hlast.1.symm.trans hwin)
    · exact (hkeys win).mpr (.inr ((hpending hp).symm.trans hwin))
    · exact (hkeys win).mpr (.inl (h.history t (show t ∈ layer.tapHistory from hhistory ▸ ht) win hwin))

theorem heldBy_windowUnmanaged (h : layer.pointers.HeldBy layer.keys) :
    (layer.windowUnmanaged win).pointers.HeldBy (layer.windowUnmanaged win).keys := by
  have hpointers : (layer.windowUnmanaged win).pointers =
      if (layer.perWindow win).isSome then layer.pointers.without win else layer.pointers := by
    unfold windowUnmanaged onSignal
    rw [onDisplayRestacked, pointers_scheduleRecompose]
    split_ifs
    · exact pointers_onWindowUnmanaged
    · rfl
  have hkeys : ∀ win', win' ≠ win ∧ layer.keys win' → (layer.windowUnmanaged win).keys win' := by
    rintro win' ⟨hne, hkey⟩
    unfold keys
    rw [registry_windowUnmanaged]
    simpa [Registry.call, hne, keys] using hkey
  rw [hpointers]
  refine Pointers.HeldBy.mono ?_ hkeys
  split_ifs with hkey
  · exact h.without win
  · refine h.mono fun win' hkey' => ⟨?_, hkey'⟩
    rintro rfl
    exact hkey (keys_iff.mp hkey')

omit [Scalar K] in
/-- A window that is finalized was given up before. -/
theorem pointers_windowFinalized (hwf : WellFormed layer.sheets) (h : layer.pointers.HeldBy layer.keys) :
    (layer.windowFinalized win).pointers = layer.pointers := by
  by_cases hmanaged : win ∈ layer.display.windows
  · rw [windowFinalized, if_pos hmanaged]
  · have hlast : layer.lastInkAnchor ≠ some win := by
      intro hlast
      obtain ⟨f, hf⟩ := Option.isSome_iff_exists.mp (h.lastInk win hlast)
      exact hmanaged (roomy_registry hwf win f hf)
    unfold windowFinalized
    rw [if_neg hmanaged]
    by_cases hstroke : layer.strokeAnchor = some win
    · rw [if_pos hstroke]
      have hlast' : (layer.setStrokeAnchor none).lastInkAnchor ≠ some win := hlast
      dsimp only
      rw [if_neg hlast']
      rfl
    · rw [if_neg hstroke]
      exact congrArg pointers (if_neg hlast)

/-- One operation keeps every pointer on a window with a record. -/
theorem heldBy_step (hwf : WellFormed layer.sheets) (h : layer.pointers.HeldBy layer.keys) (op : LayerOp K) :
    (layer.step op).pointers.HeldBy (layer.step op).keys := by
  change (layer.exec op).pointers.HeldBy (layer.exec op).keys
  cases op with
  | handleEvent event nowUs => exact heldBy_handleEvent h
  | setChromePressActive id => exact h
  | clearChromePress => exact h
  | call call =>
    change (layer.execCall call).pointers.HeldBy (layer.execCall call).keys
    by_cases hunmanaged : ∃ win, call = .windowUnmanaged win
    · obtain ⟨win, rfl⟩ := hunmanaged
      exact heldBy_windowUnmanaged h
    · by_cases hfinal : ∃ win, call = .windowFinalized win
      · obtain ⟨win, rfl⟩ := hfinal
        have hpointers : (layer.execCall (.windowFinalized win)).pointers = layer.pointers :=
          pointers_windowFinalized hwf h
        rw [hpointers]
        exact h.mono fun _ => keys_execCall _ nofun
      · exact ((from_execCall call fun win hc => hfinal ⟨win, hc⟩).heldBy h).mono fun win =>
          keys_execCall call fun win' hc => hunmanaged ⟨win', hc⟩

/-- What a step that is no ink press does to the undo target. -/
theorem lastInk_step_of_no_press (hwf : WellFormed layer.sheets) (h : layer.pointers.HeldBy layer.keys) {op : LayerOp K}
    (hpress : layer.inkPress op = none) :
    (layer.step op).lastInkAnchor = layer.lastInkAnchor ∧ (layer.step op).lastInkPresent = layer.lastInkPresent ∨
      (layer.step op).lastInkAnchor = none ∧ (layer.step op).lastInkPresent = false := by
  change (layer.exec op).lastInkAnchor = layer.lastInkAnchor ∧ (layer.exec op).lastInkPresent = layer.lastInkPresent ∨
    (layer.exec op).lastInkAnchor = none ∧ (layer.exec op).lastInkPresent = false
  cases op with
  | handleEvent event nowUs =>
    cases hbegins : layer.begins event with
    | false => exact (from_handleEvent_of_not_begins hbegins).lastInk
    | true =>
      have herase : layer.eraseIsActive event := by simpa [inkPress, hbegins] using hpress
      have hlast := (pointers_handleEvent_of_begins nowUs hbegins).1
      rw [if_pos herase] at hlast
      exact .inl hlast
  | setChromePressActive id => exact .inl ⟨rfl, rfl⟩
  | clearChromePress => exact .inl ⟨rfl, rfl⟩
  | call call =>
    by_cases hfinal : ∃ win, call = .windowFinalized win
    · obtain ⟨win, rfl⟩ := hfinal
      have hpointers : (layer.windowFinalized win).pointers = layer.pointers := pointers_windowFinalized hwf h
      exact .inl ⟨congrArg Pointers.lastInkAnchor hpointers, congrArg Pointers.lastInkPresent hpointers⟩
    · exact (from_execCall call fun win hc => hfinal ⟨win, hc⟩).lastInk

/-- A press that inks sets the undo target. -/
theorem lastInkAnchor_step {op : LayerOp K} {c : Canvas} (hpress : layer.inkPress op = some c) :
    (layer.step op).lastInkAnchor = c := by
  cases op with
  | handleEvent event nowUs =>
    simp only [inkPress] at hpress
    split_ifs at hpress with hinks
    obtain ⟨hbegins, herase⟩ := (Bool.and_eq_true _ _).mp hinks
    have hlast := (pointers_handleEvent_of_begins nowUs hbegins).1
    rw [if_neg (by simpa using herase)] at hlast
    exact hlast.1.trans (Option.some.inj hpress)
  | _ => cases hpress

variable {display : MetaDisplay} {input : AnnotationInput K} {width height : ℤ}

/-- What holds of the pointers in every state: they are held by records, and the undo
target is where the latest ink press was. -/
theorem heldBy_stateAt (ops : List (LayerOp K)) {k : ℕ} (hk : k ≤ ops.length) :
    let start := metaAnnotationLayerNew display input width height
    let layer := stateAt step start ops k
    WellFormed layer.sheets ∧ layer.pointers.HeldBy layer.keys ∧
      (layer.lastInkPresent → Latest step inkPress start ops k layer.lastInkAnchor) := by
  intro start
  have hnew : start.pointers = ⟨none, false, false, none, []⟩ := pointers_onStageSizeChanged
  refine stateAt_invariant (P := fun k (layer : MetaAnnotationLayer K) => WellFormed layer.sheets ∧
    layer.pointers.HeldBy layer.keys ∧ (layer.lastInkPresent → Latest step inkPress start ops k layer.lastInkAnchor))
    ⟨wellFormed_new display input width height, ?_, ?_⟩ ?_ hk
  · rw [hnew]
    exact ⟨nofun, nofun, nofun⟩
  · intro hpresent
    cases (congrArg Pointers.lastInkPresent hnew).symm.trans hpresent
  · rintro k op hget ⟨hwf, hheld, hlatest⟩
    refine ⟨wellFormed_step hwf op, heldBy_step hwf hheld op, fun hpresent => ?_⟩
    cases hpress : inkPress (stateAt step start ops k) op with
    | some c =>
      rw [lastInkAnchor_step hpress]
      exact .of_some hget hpress
    | none =>
      rcases lastInk_step_of_no_press hwf hheld hpress with ⟨hanchor, hsame⟩ | ⟨_, hnone⟩
      · rw [hanchor]
        exact (hlatest (hsame ▸ hpresent)).of_none hget hpress
      · cases hnone.symm.trans hpresent

/-- In every state, whatever the layer points to is a managed window with a record; an
undo target on the desktop was set by the latest ink press; and only then can an undo
take a stroke from the desktop. -/
theorem pointers_after (display : MetaDisplay) (input : AnnotationInput K) (width height : ℤ) (ops : List (LayerOp K)) :
    let start := metaAnnotationLayerNew display input width height
    let layer := after display input width height ops
    (∀ win, layer.strokeAnchor = some win ∨ layer.lastInkAnchor = some win ∨
        layer.pendingTap ∧ layer.pendingTapAnchor = some win ∨ (∃ t ∈ layer.tapHistory, t.anchor = some win) →
      (layer.perWindow win).isSome ∧ win ∈ layer.display.windows) ∧
    (layer.lastInkPresent → layer.lastInkAnchor = none → Latest step inkPress start ops ops.length none) ∧
    (layer.undoLast.canvasStrokes none ≠ layer.canvasStrokes none →
      Latest step inkPress start ops ops.length none) := by
  intro start layer
  have hstate : stateAt step start ops ops.length = layer := stateAt_length
  obtain ⟨hwf, hheld, hlatest⟩ := heldBy_stateAt ops le_rfl
  rw [hstate] at hwf hheld hlatest
  refine ⟨fun win hwin => ?_, fun hpresent hnone => hnone ▸ hlatest hpresent, fun hundo => ?_⟩
  · have hkey : layer.keys win := by
      rcases hwin with hwin | hwin | ⟨hpending, hwin⟩ | ⟨t, ht, hwin⟩
      · have hanchored : (layer.canvasStrokes layer.strokeAnchor).isSome := isSome_ink ▸ hwf.anchored
        rw [hwin, canvasStrokes, Option.isSome_map] at hanchored
        exact keys_iff.mpr hanchored
      · exact hheld.lastInk win hwin
      · exact hheld.pending hpending win hwin
      · exact hheld.history t ht win hwin
    obtain ⟨f, hf⟩ := Option.isSome_iff_exists.mp hkey
    exact ⟨keys_iff.mp hkey, roomy_registry hwf win f hf⟩
  · rcases undoLast_spec hwf with hsame | ⟨strokes, s, hpresent, _, hupdate, _⟩
    · exact absurd (congrFun hsame none) hundo
    · have hnone : layer.lastInkAnchor = none := by
        by_contra hne
        rw [hupdate, Function.update_of_ne (Ne.symm hne)] at hundo
        exact hundo rfl
      exact hnone ▸ hlatest hpresent

end MetaAnnotationLayer

end Annotations
