import Annotations.Dock.Contacts

/-! The barrel modifiers. They follow the barrel buttons of the tool as long as every
release of a button that is set reaches the layer; a chrome press in flight swallows
it. -/

namespace Annotations

open Runs

variable {K : Type}

/-! ### The buttons that are held -/

/-- The buttons held after an operation. -/
def holding (held : ℕ → Bool) : Op K → ℕ → Bool
  | .call _ => held
  | .route event _ =>
    if event.type = .buttonPress then Function.update held event.getButton true
    else if event.type = .buttonRelease then Function.update held event.getButton false
    else held

/-- The buttons held at the end of a run: the last event of each is a press. -/
def held (ops : List (Op K)) : ℕ → Bool := ops.foldl holding fun _ => false

/-- The button events are those of one tool. -/
def OneTool (device : Option ClutterInputDevice) (tool : Option ClutterInputDeviceToolType)
    (op : Op K) : Prop :=
  ∀ event nowUs, op = .route event nowUs → event.type = .buttonPress ∨ event.type = .buttonRelease →
    event.sourceDevice = device ∧ event.tool = tool

variable {buttons : ℕ → Bool} {event : ClutterEvent K} {nowUs : ℤ} {b : ℕ}

/-- An event releases no button but its own. -/
theorem holding_of_held (hheld : buttons b) (hrelease : event.type = .buttonRelease → b ≠ event.getButton) :
    holding buttons (.route event nowUs) b := by
  simp only [holding]
  split_ifs with hp hr
  · by_cases hb : b = event.getButton <;> simp [hb, hheld]
  · rw [Function.update_of_ne (hrelease hr), hheld]
  · exact hheld

theorem holding_press (hpress : event.type = .buttonPress) :
    holding buttons (.route event nowUs) event.getButton := by
  simp [holding, hpress]

/-! ### What changes the modifiers -/

/-- The layer takes events. -/
def Dock.takesEvents (dock : Dock) : Bool := dock.active && !dock.paused && dock.surfaced

/-- A call that keeps the barrel modifiers keeps the layer taking events. -/
theorem Dock.call_barrel (dock : Dock) (c : Call K) :
    (dock.call c).barrel = 0 ∨
      (dock.call c).barrel = dock.barrel ∧ (dock.takesEvents → (dock.call c).takesEvents) := by
  cases c with
  | setActive active =>
    cases active with
    | true =>
      refine .inr ⟨rfl, fun h => ?_⟩
      simp only [Dock.takesEvents, Bool.and_eq_true] at h
      simp [Dock.call, Dock.takesEvents, h]
    | false => exact .inl rfl
  | setPaused paused =>
    cases paused <;> cases hpaused : dock.paused <;> simp [Dock.call, Dock.takesEvents, hpaused]
  | stageSizeChanged width height =>
    refine .inr ⟨rfl, fun h => ?_⟩
    simp only [Dock.takesEvents, Bool.and_eq_true] at h
    simp [Dock.call, Dock.takesEvents, h]
  | _ => exact .inr ⟨rfl, id⟩

namespace MetaAnnotationLayer

variable {layer layer' : MetaAnnotationLayer K}

theorem getLsbD_setBarrelButton_press {btn : ℕ} :
    (layer.setBarrelButton btn true).penBarrelButtons.getLsbD b ↔
      layer.penBarrelButtons.getLsbD b ∨ b = btn ∧ b < 32 := by
  simp only [setBarrelButton, if_true, BitVec.getLsbD_or, BitVec.getLsbD_shiftLeft,
    BitVec.getLsbD_one, Bool.or_eq_true, Bool.and_eq_true, Bool.not_eq_true', decide_eq_true_eq,
    decide_eq_false_iff_not]
  refine or_congr_right ?_
  omega

theorem getLsbD_setBarrelButton_release {btn : ℕ} :
    (layer.setBarrelButton btn false).penBarrelButtons.getLsbD b ↔
      layer.penBarrelButtons.getLsbD b ∧ b ≠ btn := by
  have hbound : layer.penBarrelButtons.getLsbD b → b < 32 := BitVec.lt_of_getLsbD
  simp only [setBarrelButton, Bool.false_eq_true, if_false, BitVec.getLsbD_and, BitVec.getLsbD_not,
    BitVec.getLsbD_shiftLeft, BitVec.getLsbD_one, Bool.and_eq_true, Bool.not_eq_true',
    Bool.and_eq_false_imp, decide_eq_true_eq, decide_eq_false_iff_not]
  refine and_congr_right fun hbit => ?_
  have := hbound hbit
  omega

theorem getDeviceTool_of_button (h : event.type = .buttonPress ∨ event.type = .buttonRelease) :
    event.getDeviceTool = event.tool := by
  rcases h with h | h <;> simp [ClutterEvent.getDeviceTool, h]

/-- A press sets the bit of a barrel button of its tool. -/
theorem barrelAfter_press (hpress : event.type = .buttonPress)
    (hbit : (layer.barrelAfter event).getLsbD b) : layer.penBarrelButtons.getLsbD b ∨
      b = event.getButton ∧ b ≠ 0 ∧ b ≠ clutterButtonPrimary ∧ layer.takesEvents ∧ event.tool.isSome := by
  unfold barrelAfter at hbit
  cases htakes : layer.takesEvents with
  | false => exact .inl (by simpa [htakes] using hbit)
  | true =>
    simp only [htakes, hpress, Bool.not_true, Bool.false_eq_true, if_false] at hbit
    unfold handleToolModifierPress at hbit
    rw [getDeviceTool_of_button (.inl hpress)] at hbit
    split_ifs at hbit with htool hbutton hbound
    · exact .inl hbit
    · exact .inl hbit
    · exact .inl hbit
    · refine (getLsbD_setBarrelButton_press.mp hbit).imp_right ?_
      rintro ⟨rfl, _⟩
      rw [not_or] at hbutton
      exact ⟨rfl, hbutton.2, hbutton.1, rfl, by simpa [Option.isSome_iff_ne_none] using htool⟩

/-- A release of a barrel button that the layer takes clears its bit. -/
theorem barrelAfter_release (hrelease : event.type = .buttonRelease)
    (hbit : (layer.barrelAfter event).getLsbD b) : layer.penBarrelButtons.getLsbD b ∧
      (layer.takesEvents → event.tool.isSome → b ≠ 0 → b ≠ clutterButtonPrimary →
        b ≠ event.getButton) := by
  unfold barrelAfter at hbit
  cases htakes : layer.takesEvents with
  | false => exact ⟨by simpa [htakes] using hbit, by simp⟩
  | true =>
    simp only [htakes, hrelease, Bool.not_true, Bool.false_eq_true, if_false] at hbit
    unfold handleToolModifierPress at hbit
    rw [getDeviceTool_of_button (.inr hrelease)] at hbit
    split_ifs at hbit with htool hbutton hbound
    · exact ⟨hbit, fun _ hsome => by simp_all⟩
    · refine ⟨hbit, fun _ _ hzero hprimary => ?_⟩
      rintro rfl
      exact hbutton.elim hprimary hzero
    · refine ⟨hbit, fun _ _ _ _ => ?_⟩
      rintro rfl
      exact absurd (BitVec.lt_of_getLsbD hbit) (by omega)
    · have hclear := getLsbD_setBarrelButton_release.mp hbit
      exact ⟨hclear.1, fun _ _ _ _ => hclear.2⟩

theorem barrelAfter_of_ne (hpress : event.type ≠ .buttonPress) (hrelease : event.type ≠ .buttonRelease) :
    layer.barrelAfter event = layer.penBarrelButtons := by
  unfold barrelAfter
  split_ifs
  · rfl
  · split <;> simp_all

/-! ### The invariant -/

variable [Scalar K] {device : Option ClutterInputDevice} {tool : Option ClutterInputDeviceToolType}

/-- A set bit is that of a barrel button that is held, and while one is set the release
of every button of the tool would reach the layer. -/
structure BarrelSound (device : Option ClutterInputDevice) (tool : Option ClutterInputDeviceToolType)
    (layer : MetaAnnotationLayer K) (held : ℕ → Bool) : Prop where
  held : ∀ b, layer.penBarrelButtons.getLsbD b → held b ∧ b ≠ 0 ∧ b ≠ clutterButtonPrimary
  live : layer.penBarrelButtons ≠ 0 → layer.takesEvents ∧ tool.isSome ∧
    ∀ event : ClutterEvent K, event.type = .buttonPress ∨ event.type = .buttonRelease →
      event.sourceDevice = device → event.tool = tool → metaAnnotationEventTargetsOverlay event

/-- No barrel button whose bit is set is released while a chrome press is in flight. -/
def ReleasesSeen (layer : MetaAnnotationLayer K) (op : Op K) : Prop :=
  ∀ event nowUs, op = .route event nowUs → event.type = .buttonRelease →
    layer.penBarrelButtons.getLsbD event.getButton → layer.chromePressId = none

theorem ne_zero_of_getLsbD {bits : BitVec 32} (h : bits.getLsbD b) : bits ≠ 0 := by
  rintro rfl
  simp at h

theorem exists_getLsbD_of_ne_zero {bits : BitVec 32} (h : bits ≠ 0) : ∃ b, bits.getLsbD b := by
  by_contra hnone
  refine h (BitVec.eq_of_getLsbD_eq fun b _ => ?_)
  simpa using not_exists.mp hnone b

/-- A step that leaves the modifiers and keeps the layer live, and does not see the
release of a set button. -/
theorem BarrelSound.of_kept {held' : ℕ → Bool} (h : BarrelSound device tool layer buttons)
    (hbits : layer'.penBarrelButtons = layer.penBarrelButtons)
    (htakes : layer.takesEvents → layer'.takesEvents)
    (hheld : ∀ b, layer.penBarrelButtons.getLsbD b → buttons b → held' b) :
    BarrelSound device tool layer' held' := by
  refine ⟨fun b hb => ?_, fun hb => ?_⟩
  · rw [hbits] at hb
    exact ⟨hheld b hb (h.held b hb).1, (h.held b hb).2⟩
  · rw [hbits] at hb
    exact (h.live hb).imp_left htakes

theorem barrelSound_call (h : BarrelSound device tool layer buttons) (c : Call K) :
    BarrelSound device tool (layer.opStep (.call c)) (holding buttons (.call c)) := by
  have hdock : (layer.opStep (.call c)).dock = layer.dock.call c := dock_opStep_call c
  rcases layer.dock.call_barrel c with hzero | ⟨hbits, htakes⟩
  · have hbits : (layer.opStep (.call c)).penBarrelButtons = 0 :=
      (congrArg Dock.barrel hdock).trans hzero
    exact ⟨fun b hb => absurd hbits (ne_zero_of_getLsbD hb), fun hb => absurd hbits hb⟩
  · refine h.of_kept ((congrArg Dock.barrel hdock).trans hbits) (fun ht => ?_) fun b _ hb => hb
    change (layer.opStep (.call c)).dock.takesEvents
    rw [hdock]
    exact htakes ht

/-- Unless the layer handles it, an event may not be the release of a set button. -/
theorem BarrelSound.of_unhandled (h : BarrelSound device tool layer buttons)
    (hbits : layer'.penBarrelButtons = layer.penBarrelButtons)
    (htakes : layer'.takesEvents = layer.takesEvents)
    (hrelease : event.type = .buttonRelease → ¬ layer.penBarrelButtons.getLsbD event.getButton) :
    BarrelSound device tool layer' (holding buttons (.route event nowUs)) := by
  refine h.of_kept hbits (fun ht => htakes ▸ ht) fun b hb hheld => ?_
  refine holding_of_held hheld fun hr => ?_
  rintro rfl
  exact hrelease hr hb

/-- Handling an event keeps the modifiers sound. -/
theorem barrelSound_handleEvent (h : BarrelSound device tool layer buttons)
    (htool : OneTool device tool (.route event nowUs))
    (htargets : metaAnnotationEventTargetsOverlay event) :
    BarrelSound device tool (layer.handleEvent event nowUs).1 (holding buttons (.route event nowUs)) := by
  have hdock : (layer.handleEvent event nowUs).1.dock =
      { layer.dock with barrel := layer.barrelAfter event } := dock_handleEvent event nowUs
  generalize (layer.handleEvent event nowUs).1 = layer' at hdock ⊢
  have hbits : layer'.penBarrelButtons = layer.barrelAfter event := congrArg Dock.barrel hdock
  have htakes : layer'.takesEvents = layer.takesEvents := congrArg Dock.takesEvents hdock
  by_cases hpress : event.type = .buttonPress
  · refine ⟨fun b hb => ?_, fun hb => ?_⟩
    · rw [hbits] at hb
      rcases barrelAfter_press hpress hb with hold | ⟨rfl, hzero, hprimary, _⟩
      · exact ⟨holding_of_held (h.held b hold).1 (by simp [hpress]), (h.held b hold).2⟩
      · exact ⟨holding_press hpress, hzero, hprimary⟩
    · obtain ⟨b, hb⟩ := exists_getLsbD_of_ne_zero hb
      rw [hbits] at hb
      rw [htakes]
      rcases barrelAfter_press hpress hb with hold | ⟨rfl, _, _, hlive, hsome⟩
      · exact h.live (ne_zero_of_getLsbD hold)
      · obtain ⟨hdevice, rfl⟩ := htool event nowUs rfl (.inl hpress)
        refine ⟨hlive, hsome, fun event' hbutton hdevice' htool' => ?_⟩
        rwa [targetsOverlay_button_congr hbutton (.inl hpress) (hdevice'.trans hdevice.symm) htool']
  · by_cases hrelease : event.type = .buttonRelease
    · refine ⟨fun b hb => ?_, fun hb => ?_⟩
      · rw [hbits] at hb
        obtain ⟨hold, hbutton⟩ := barrelAfter_release hrelease hb
        obtain ⟨hheld, hzero, hprimary⟩ := h.held b hold
        obtain ⟨hlive, hsome, _⟩ := h.live (ne_zero_of_getLsbD hold)
        obtain ⟨_, rfl⟩ := htool event nowUs rfl (.inr hrelease)
        exact ⟨holding_of_held hheld fun _ => hbutton hlive hsome hzero hprimary, hzero, hprimary⟩
      · obtain ⟨b, hb⟩ := exists_getLsbD_of_ne_zero hb
        rw [hbits] at hb
        rw [htakes]
        exact h.live (ne_zero_of_getLsbD (barrelAfter_release hrelease hb).1)
    · exact h.of_unhandled (hbits.trans (barrelAfter_of_ne hpress hrelease)) htakes
        fun hr => absurd hr hrelease

/-- Routing an event keeps the modifiers sound. -/
theorem barrelSound_route (h : BarrelSound device tool layer buttons)
    (htool : OneTool device tool (.route event nowUs))
    (hseen : layer.ReleasesSeen (.route event nowUs)) :
    BarrelSound device tool (layer.opStep (.route event nowUs))
      (holding buttons (.route event nowUs)) := by
  cases layer.routing event nowUs with
  | ignored hroutes hrouted =>
    rw [opStep_route hrouted]
    refine h.of_unhandled rfl rfl fun hrelease hbit => ?_
    obtain ⟨hdevice, htool'⟩ := htool event nowUs rfl (.inr hrelease)
    obtain ⟨htakes, _, htargets⟩ := h.live (ne_zero_of_getLsbD hbit)
    simp only [takesEvents, Bool.and_eq_true] at htakes
    simp [routes, htakes, htargets event (.inr hrelease) hdevice htool'] at hroutes
  | landed id hlands hrouted =>
    rw [opStep_route hrouted]
    refine h.of_unhandled rfl rfl fun hrelease => ?_
    have hactivates := (lands_eq_some hlands).2.1
    simp [ClutterEvent.activates_iff, hrelease] at hactivates
  | ended pressed _ _ hpressed _ hrouted =>
    rw [opStep_route hrouted]
    refine h.of_unhandled rfl rfl fun hrelease hbit => ?_
    simp [hseen event nowUs rfl hrelease hbit] at hpressed
  | swallowed pressed _ _ _ hterminates hrouted =>
    rw [opStep_route hrouted]
    refine h.of_unhandled rfl rfl fun hrelease => ?_
    simp [ClutterEvent.terminates, hrelease] at hterminates
  | handled hroutes _ _ hrouted =>
    rw [opStep_route hrouted]
    have htargets : metaAnnotationEventTargetsOverlay event := (Bool.and_eq_true _ _ ▸ hroutes).2
    exact (barrelSound_handleEvent h htool htargets).of_kept rfl id fun _ _ hb => hb

theorem barrelSound_run {start : MetaAnnotationLayer K} {ops : List (Op K)}
    (hstart : start.penBarrelButtons = 0) (htool : ∀ op ∈ ops, OneTool device tool op)
    (hops : Along opStep ReleasesSeen start ops) :
    BarrelSound device tool (run opStep start ops) (held ops) := by
  induction ops using List.reverseRecOn with
  | nil =>
    refine ⟨fun b hb => absurd hstart (ne_zero_of_getLsbD hb), fun hb => absurd hstart hb⟩
  | append_singleton ops op ih =>
    rw [along_concat] at hops
    have hsound := ih (fun op' hop' => htool op' (by simp [hop'])) hops.1
    rw [run_concat, held, List.foldl_concat]
    cases op with
    | call c => exact barrelSound_call hsound c
    | route event nowUs => exact barrelSound_route hsound (htool _ (by simp)) hops.2

/-- No eraser is stuck: a bit is set only while its button is held, and once the barrel
buttons are released the layer erases with nothing but an eraser. -/
structure NoStuckEraser (layer : MetaAnnotationLayer K) (buttons : ℕ → Bool) : Prop where
  held : ∀ b, layer.penBarrelButtons.getLsbD b → buttons b ∧ b ≠ clutterButtonPrimary
  released : (∀ b, b ≠ clutterButtonPrimary → buttons b = false) →
    layer.penBarrelButtons = 0 ∧ ∀ event, layer.eraseIsActive event = event.isEraserTool

/-- No eraser is stuck in any state of a run of events of one tool and any calls, as
long as no release of a set button is swallowed by a chrome press. -/
theorem noStuckEraser_of_releasesSeen (display : MetaDisplay) (input : AnnotationInput K)
    (width height : ℤ) (device : Option ClutterInputDevice)
    (tool : Option ClutterInputDeviceToolType) (ops : List (Op K))
    (htool : ∀ op ∈ ops, OneTool device tool op)
    (hops : Along opStep ReleasesSeen (metaAnnotationLayerNew display input width height) ops) :
    NoStuckEraser (run opStep (metaAnnotationLayerNew display input width height) ops) (held ops) := by
  have hsound : BarrelSound device tool
      (run opStep (metaAnnotationLayerNew display input width height) ops) (held ops) :=
    barrelSound_run (congrArg Dock.barrel dock_new) htool hops
  refine ⟨fun b hb => ⟨(hsound.held b hb).1, (hsound.held b hb).2.2⟩, fun hreleased => ?_⟩
  have hzero : (run opStep (metaAnnotationLayerNew display input width height) ops).penBarrelButtons = 0 := by
    by_contra hbits
    obtain ⟨b, hb⟩ := exists_getLsbD_of_ne_zero hbits
    obtain ⟨hheld, _, hprimary⟩ := hsound.held b hb
    simp [hreleased b hprimary] at hheld
  exact ⟨hzero, fun event => by simp [eraseIsActive, hzero]⟩

/-- A barrel button is held around a press on the dock. -/
def sampleHeld : List (Op ℚ) :=
  [.call (.setActive true), .call (.setChromeRegions [("dock", ⟨0, 0, 2, 2⟩)]),
    .route (.pen .buttonPress 5 5 2 false) 0, .route (.pen .buttonPress 1 1 1 true) 1,
    .route (.pen .buttonRelease 1 1 1 false) 2, .route (.pen .buttonRelease 5 5 2 false) 3]

/-- Its bit is set by the press and cleared by the release. -/
theorem noStuckEraser_of_releasesSeen_docked :
    (stateAt opStep (metaAnnotationLayerNew .bare .initial 10 10) sampleHeld 5).penBarrelButtons = 4 ∧
      (run opStep (metaAnnotationLayerNew .bare .initial 10 10) sampleHeld).penBarrelButtons = 0 ∧
      NoStuckEraser (run opStep (metaAnnotationLayerNew .bare .initial 10 10) sampleHeld) (held sampleHeld) := by
  refine ⟨by decide +kernel, by decide +kernel, noStuckEraser_of_releasesSeen _ _ _ _
    (some ⟨1, .tablet, false, true, none, none⟩) (some .pen) _ (fun op hop event nowUs hevent _ => ?_)
    ⟨fun _ _ h => ?_, fun _ _ h => ?_, fun _ _ h => ?_, fun _ _ h => ?_, fun _ _ h _ => ?_, fun _ _ h _ => ?_, trivial⟩⟩
  · subst hevent
    simp only [sampleHeld, List.mem_cons, List.not_mem_nil, or_false, Op.route.injEq, reduceCtorEq, false_or] at hop
    rcases hop with ⟨rfl, _⟩ | ⟨rfl, _⟩ | ⟨rfl, _⟩ | ⟨rfl, _⟩ <;> exact ⟨rfl, rfl⟩
  · cases h
  · cases h
  · cases h
    exact fun h => by cases h
  · cases h
    exact fun h => by cases h
  · cases h
    decide +kernel
  · cases h
    decide +kernel

/-- A barrel button pressed before a dock press and released during it. -/
theorem not_noStuckEraser_swallowed :
    ¬ NoStuckEraser (run opStep (metaAnnotationLayerNew .bare .initial 10 10)
      [.call (.setActive true), .call (.setChromeRegions [("dock", ⟨0, 0, 2, 2⟩)]),
        .route (.pen .buttonPress 5 5 2 false) 0, .route (.pen .buttonPress 1 1 1 true) 1,
        .route (.pen .buttonRelease 1 1 2 true) 2, .route (.pen .buttonRelease 1 1 1 false) 3])
      (held [.call (.setActive true), .call (.setChromeRegions [("dock", ⟨0, 0, 2, 2⟩)]),
        .route (.pen .buttonPress 5 5 2 false) 0, .route (.pen .buttonPress 1 1 1 true) 1,
        .route (.pen .buttonRelease 1 1 2 true) 2, .route (.pen .buttonRelease 1 1 1 false) 3]) := by
  intro h
  have hheld := (h.held 2 (by decide +kernel)).1
  revert hheld
  decide +kernel

end MetaAnnotationLayer

end Annotations
