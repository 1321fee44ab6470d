import Annotations.Lifecycle.Leftovers

/-! The timer of the service for movement. It runs just while the extension is enabled and both
settings are on, as often as the third setting says, and there is one of it. -/

namespace Annotations.Lifecycle

open Overlay Runs IdLedger

variable {K : Type}

namespace AnnotationsExtension

variable {s s' : AnnotationsExtension K}

/-- The settings ask for a timer. -/
def wantsTimer (settings : ExtensionSettings) : Bool := settings.movementSync && settings.movementConsentRoi

/-- The service's own fields are as before, and no timer is new. -/
structure SameMotion (s s' : AnnotationsExtension K) : Prop where
  enabled : s'.enabled = s.enabled
  settings : wantsTimer s'.settings = wantsTimer s.settings ∧ timerMs s'.settings = timerMs s.settings
  timer : s'.books.ids .timer = s.books.ids .timer
  settingId : ∀ key, s'.books.ids (.settingId key) = s.books.ids (.settingId key)
  timers : ∀ id ms, (id, .motionTimer ms) ∈ s'.books.live → (id, .motionTimer ms) ∈ s.books.live

theorem sameMotion_of_eq (henabled : s'.enabled = s.enabled) (hsettings : s'.settings = s.settings)
    (hbooks : s'.books = s.books) : SameMotion s s' where
  enabled := henabled
  settings := by rw [hsettings]; exact ⟨rfl, rfl⟩
  timer := by rw [hbooks]
  settingId key := by rw [hbooks]
  timers id ms hmem := hbooks ▸ hmem

theorem sameMotion_refl : SameMotion s s := sameMotion_of_eq rfl rfl rfl

theorem SameMotion.trans {s'' : AnnotationsExtension K} (h : SameMotion s s') (h' : SameMotion s' s'') :
    SameMotion s s'' where
  enabled := h'.enabled.trans h.enabled
  settings := ⟨h'.settings.1.trans h.settings.1, h'.settings.2.trans h.settings.2⟩
  timer := h'.timer.trans h.timer
  settingId key := (h'.settingId key).trans (h.settingId key)
  timers id ms hmem := h.timers id ms (h'.timers id ms hmem)

theorem sameMotion_finish {n : Field} (id : ℕ) (hn : n ≠ .timer) (hkey : ∀ key, n ≠ .settingId key) :
    SameMotion s { s with books := s.books.finish n id } where
  enabled := rfl
  settings := ⟨rfl, rfl⟩
  timer := Function.update_of_ne hn.symm _ _
  settingId key := Function.update_of_ne (hkey key).symm _ _
  timers _ _ hmem := List.mem_of_mem_filter hmem

theorem sameMotion_release {n : Field} (hn : n ≠ .timer) (hkey : ∀ key, n ≠ .settingId key) :
    SameMotion s (s.release n) := sameMotion_finish _ hn hkey

theorem sameMotion_connect {n : Field} {k : Callback} (hk : ∀ ms, k ≠ .motionTimer ms) (hn : n ≠ .timer)
    (hkey : ∀ key, n ≠ .settingId key) : SameMotion s (s.connect n k) where
  enabled := rfl
  settings := ⟨rfl, rfl⟩
  timer := Function.update_of_ne hn.symm _ _
  settingId key := Function.update_of_ne (hkey key).symm _ _
  timers id ms hmem := by
    rcases List.mem_cons.mp hmem with heq | hmem
    · exact absurd (congrArg Prod.snd heq).symm (hk ms)
    · exact hmem

theorem sameMotion_reset {n : Field} (hn : n ≠ .timer) (hkey : ∀ key, n ≠ .settingId key) :
    SameMotion s { s with books := s.books.reset n } where
  enabled := rfl
  settings := ⟨rfl, rfl⟩
  timer := Function.update_of_ne hn.symm _ _
  settingId key := Function.update_of_ne (hkey key).symm _ _
  timers _ _ := id

theorem sameMotion_modifyOverlay (f : DockedSession K → DockedSession K) : SameMotion s (s.modifyOverlay f) :=
  sameMotion_of_eq rfl rfl rfl

theorem sameMotion_bumpDockActivity : SameMotion s s.bumpDockActivity :=
  (sameMotion_release (by simp) (by simp)).trans (sameMotion_connect (by simp) (by simp) (by simp))

theorem sameMotion_endDrag : SameMotion s s.endDrag :=
  ((sameMotion_release (by simp) (by simp)).trans (sameMotion_release (by simp) (by simp))).trans
    (sameMotion_modifyOverlay _)

theorem sameMotion_saveDockPos : SameMotion s s.saveDockPos := by
  unfold saveDockPos
  split
  · exact sameMotion_refl
  · exact ⟨rfl, ⟨rfl, rfl⟩, rfl, fun _ => rfl, fun _ _ => id⟩

theorem sameMotion_onDockDragHandlePress (primary : Bool) (pointer : ℤ × ℤ) :
    SameMotion s (s.onDockDragHandlePress primary pointer) := by
  unfold onDockDragHandlePress
  split_ifs
  · exact sameMotion_refl
  · have hexpand : SameMotion s s.dockExpandIfShrunk := sameMotion_modifyOverlay _
    have hbump := hexpand.trans sameMotion_bumpDockActivity
    have hmark : SameMotion s (s.dockExpandIfShrunk.bumpDockActivity.modifyOverlay fun o =>
        { o with dockDragLast := some pointer }) := hbump.trans (sameMotion_modifyOverlay _)
    have hseq := (hmark.trans (sameMotion_release (n := .dockDragSeq) (by simp) (by simp))).trans
      (sameMotion_release (n := .dockDragSafetySrc) (by simp) (by simp))
    exact (hseq.trans (sameMotion_connect (by simp) (by simp) (by simp))).trans
      (sameMotion_connect (by simp) (by simp) (by simp))

theorem sameMotion_onDockDragCaptured (stimulus : Stimulus K) : SameMotion s (s.onDockDragCaptured stimulus) := by
  unfold onDockDragCaptured
  split
  · exact sameMotion_endDrag.trans sameMotion_saveDockPos
  · exact sameMotion_modifyOverlay _
  · exact sameMotion_refl

theorem sameMotion_syncPenStageCapture : SameMotion s s.syncPenStageCapture := by
  have hfree : SameMotion s ((s.release (.penCap .stage)).release (.penCap .uiGroup)) :=
    (sameMotion_release (by simp) (by simp)).trans (sameMotion_release (by simp) (by simp))
  unfold syncPenStageCapture
  dsimp only
  split_ifs
  · exact hfree
  · exact (hfree.trans (sameMotion_connect (by simp) (by simp) (by simp))).trans
      (sameMotion_connect (by simp) (by simp) (by simp))

theorem sameMotion_syncShellPointerPassthrough (visible : Bool) :
    SameMotion s (s.syncShellPointerPassthrough visible) := by
  rw [syncShellPointerPassthrough_eq]
  exact sameMotion_of_eq rfl rfl rfl

theorem sameMotion_toggle [Scalar K] : SameMotion s s.toggle := by
  unfold toggle
  dsimp only
  generalize htoggled : (s.modifyOverlay fun o => { o with session := o.session.toggle }) = t
  have ht : SameMotion s t := htoggled ▸ sameMotion_modifyOverlay _
  refine (ht.trans ?_).trans (sameMotion_syncPenStageCapture.trans (sameMotion_syncShellPointerPassthrough _))
  split_ifs
  · exact sameMotion_bumpDockActivity
  · exact sameMotion_refl

/-! ### The timer -/

/-- While the extension is enabled it listens to its settings, and the timer is as they say. -/
structure TimerRight (s : AnnotationsExtension K) : Prop where
  listens : s.enabled = true → ∀ key, s.books.ids (.settingId key) ≠ 0
  runs : s.books.ids .timer ≠ 0 ↔ s.enabled = true ∧ wantsTimer s.settings = true
  period : ∀ id ms, (id, .motionTimer ms) ∈ s.books.live → ms = timerMs s.settings

theorem TimerRight.of_same (h : s.TimerRight) (hsame : SameMotion s s') : s'.TimerRight where
  listens hon key := by
    rw [hsame.settingId]
    exact h.listens (hsame.enabled.symm.trans hon) key
  runs := by rw [hsame.timer, h.runs, hsame.enabled, hsame.settings.1]
  period id ms hmem := (h.period id ms (hsame.timers id ms hmem)).trans hsame.settings.2.symm

/-- A restart makes the timer right, whatever it was before. -/
theorem timerRight_restartTimer (hkept : s.BooksKept) (hon : s.enabled = true)
    (hlistens : ∀ key, s.books.ids (.settingId key) ≠ 0) : s.restartTimer.TimerRight := by
  have hstopped : ∀ id ms, (id, .motionTimer ms) ∉ (s.books.release .timer).live := fun id ms hmem => by
    obtain ⟨hlive, hne⟩ := mem_release.mp hmem
    exact hne (hkept.owned _ hlive).symm
  have hids : ∀ key, s.restartTimer.books.ids (.settingId key) ≠ 0 := fun key => by
    rw [ids_restartTimer (by simp)]
    exact hlistens key
  have hsame : SameShell s s.restartTimer := sameShell_restartTimer
  have hsettings : s.restartTimer.settings = s.settings := by
    unfold restartTimer
    dsimp only
    split_ifs <;> rfl
  refine ⟨fun _ => hids, ?_, fun id ms hmem => ?_⟩
  · rw [hsame.enabled, hsettings]
    unfold restartTimer
    dsimp only
    split_ifs with hsync hconsent
    · simp_all [wantsTimer, stopTimer, release]
    · simp_all [wantsTimer, stopTimer, release]
    · have hpos := hkept.next_pos
      simp_all [wantsTimer, stopTimer, release, connect, IdLedger.release, IdLedger.finish]
      omega
  · rw [hsettings]
    unfold restartTimer at hmem
    dsimp only at hmem
    split_ifs at hmem
    · exact absurd hmem (hstopped id ms)
    · exact absurd hmem (hstopped id ms)
    · rcases List.mem_cons.mp hmem with heq | hmem
      · exact Callback.motionTimer.inj (congrArg Prod.snd heq)
      · exact absurd hmem (hstopped id ms)

/-! ### Runs -/

theorem enabled_restartTimer : s.restartTimer.enabled = s.enabled := sameShell_restartTimer.enabled

/-- The handlers of a setting run one after the other; the first one makes the timer right. -/
theorem timerRight_restarts (handlers : List (ℕ × Callback)) (hne : handlers ≠ []) (hkept : s.BooksKept)
    (hon : s.enabled = true) (hlistens : ∀ key, s.books.ids (.settingId key) ≠ 0) :
    (handlers.foldl (fun s _ => s.restartTimer) s).TimerRight := by
  induction handlers generalizing s with
  | nil => exact absurd rfl hne
  | cons e handlers ih =>
    have hright := timerRight_restartTimer hkept hon hlistens
    cases handlers with
    | nil => exact hright
    | cons e' handlers =>
      have hon' := enabled_restartTimer.trans hon
      exact ih (by simp) (kept_restartTimer hkept) hon' (hright.listens hon')

theorem Tidy.timerRight_of_disabled (h : s.Tidy) (hoff : s.enabled = false) : s.TimerRight where
  listens hon := absurd (hon.symm.trans hoff) (by simp)
  runs := by simp [(h.idle hoff).1, hoff]
  period id ms hmem := by
    rw [h.live_eq_nil hoff] at hmem
    cases hmem

theorem timerRight_changeSetting (h : s.Tidy) (htimer : s.TimerRight) (change : MovementChange) :
    (s.changeSetting change).TimerRight := by
  cases hon : s.enabled with
  | false =>
    have hidle := h.idle hon
    have hsame := sameShell_changeSetting (s := s) change
    refine ⟨fun hon' => ?_, ?_, fun id ms hmem => ?_⟩
    · exact absurd ((hsame.enabled.symm.trans hon').symm.trans hon) (by simp)
    · rw [ids_changeSetting h change hon, hsame.enabled, hon]
      simp
    · have hnil := (kept_changeSetting h.kept change).live_eq_nil (ids_changeSetting h change hon)
      rw [hnil] at hmem
      cases hmem
  | true =>
    unfold changeSetting
    refine timerRight_restarts _ ?_ h.kept hon (htimer.listens hon)
    obtain ⟨e, he, -, hname⟩ := h.kept.alive (.settingId change.key) (htimer.listens hon change.key)
    have hhandler : e.2 = .settingChanged change.key := by
      obtain ⟨id, k⟩ := e
      cases k with
      | settingChanged key => rw [Field.settingId.inj hname]
      | _ => cases hname
    refine List.ne_nil_of_mem (a := e) (List.mem_filter.mpr ⟨he, ?_⟩)
    simp [hhandler, Callback.field]

theorem timerRight_enableMotion (hkept : s.BooksKept) (hnone : ∀ n, s.books.ids n = 0) (hon : s.enabled = true) :
    s.enableMotion.TimerRight := by
  unfold enableMotion
  have hbase := (((hkept.reset (n := .timer) (hnone _)).reset (n := .settingId .movementSync)
    (by simp [hnone])).reset (n := .settingId .movementConsentRoi) (by simp [hnone])).reset
    (n := .settingId .movementMaxHz) (by simp [hnone])
  have h1 := hbase.connect (k := .settingChanged .movementSync) (n := .settingId .movementSync) rfl (by simp)
  have h2 := h1.connect (k := .settingChanged .movementConsentRoi) (n := .settingId .movementConsentRoi) rfl (by simp)
  have h3 := h2.connect (k := .settingChanged .movementMaxHz) (n := .settingId .movementMaxHz) rfl (by simp)
  refine timerRight_restartTimer h3 hon fun key => ?_
  have hpos := hkept.next_pos
  cases key with
  | movementSync => simp [connect, IdLedger.reset]; omega
  | movementConsentRoi => simp [connect, IdLedger.connect]
  | movementMaxHz => simp [connect, IdLedger.connect]

variable [Scalar K]

theorem sameMotion_newOverlay : SameMotion s s.newOverlay := by
  unfold newOverlay
  dsimp only
  have h1 := sameMotion_reset (s := s) (n := .dockShrinkSrc) (by simp) (by simp)
  have h2 := h1.trans (sameMotion_reset (n := .dockDragSafetySrc) (by simp) (by simp))
  have h3 := h2.trans (sameMotion_reset (n := .dockDragSeq) (by simp) (by simp))
  have h4 := h3.trans (sameMotion_reset (n := .penCap .stage) (by simp) (by simp))
  have h5 := h4.trans (sameMotion_reset (n := .penCap .uiGroup) (by simp) (by simp))
  have h6 := h5.trans (sameMotion_reset (n := .monitorsSig) (by simp) (by simp))
  refine (h6.trans ?_).trans ((sameMotion_connect (n := .monitorsSig) (k := .monitorsChanged) (by simp) (by simp)
    (by simp)).trans sameMotion_syncPenStageCapture)
  exact sameMotion_of_eq rfl rfl rfl

theorem timerRight_enable (h : s.Tidy) (htimer : s.TimerRight) : s.enable.TimerRight := by
  unfold enable
  split_ifs with hon
  · exact htimer
  have hoff : s.enabled = false := by simpa using hon
  have hmotion : ({ s with enabled := true } : AnnotationsExtension K).enableMotion.TimerRight :=
    timerRight_enableMotion h.kept (h.idle hoff).1 rfl
  dsimp only
  have hoverlay := hmotion.of_same sameMotion_newOverlay
  refine hoverlay.of_same (SameMotion.trans (sameMotion_of_eq rfl rfl rfl) (SameMotion.trans
    (sameMotion_connect (n := .kbIdle) (k := .keybindingIdle) (by simp) (by simp) (by simp)) ?_))
  exact sameMotion_of_eq rfl rfl rfl

omit [Scalar K] in
theorem enabled_disable : s.disable.enabled = false := by
  unfold disable
  split_ifs with hoff
  · simpa using hoff
  · rfl

variable [FloorRing K]

theorem timerRight_run (h : s.Tidy) (htimer : s.TimerRight) (id : ℕ) (stimulus : Stimulus K) :
    (s.run id stimulus).TimerRight := by
  unfold run
  cases hk : s.books.callback id with
  | none => exact htimer
  | some k =>
    cases k with
    | keybindingIdle =>
      exact (htimer.of_same (sameMotion_finish id (by simp) (by simp))).of_same (sameMotion_of_eq rfl rfl rfl)
    | dockShrink =>
      exact htimer.of_same ((sameMotion_finish id (by simp) (by simp)).trans (sameMotion_modifyOverlay _))
    | dockDragSafety =>
      exact htimer.of_same (((sameMotion_finish id (by simp) (by simp)).trans
        (sameMotion_release (n := .dockDragSeq) (by simp) (by simp))).trans (sameMotion_modifyOverlay _))
    | dockDragCaptured => exact htimer.of_same (sameMotion_onDockDragCaptured stimulus)
    | penCapture target =>
      refine htimer.of_same ?_
      change SameMotion s (s.onCaptured stimulus)
      unfold onCaptured
      split
      · exact sameMotion_modifyOverlay _
      · exact sameMotion_refl
    | monitorsChanged => exact htimer
    | settingChanged key =>
      have hon := h.enabled_of_callback hk
      exact timerRight_restartTimer h.kept hon (htimer.listens hon)
    | motionTimer ms => exact htimer

theorem timerRight_step (h : s.Tidy) (htimer : s.TimerRight) (i : Input K) : (s.step i).TimerRight := by
  cases i with
  | enable => exact timerRight_enable h htimer
  | disable => exact (tidy_disable h).timerRight_of_disabled enabled_disable
  | toggleDrawingOverlay =>
    change (if s.overlay.isSome = true then s.toggle else s).TimerRight
    split_ifs
    · exact htimer.of_same sameMotion_toggle
    · exact htimer
  | dockEntered =>
    change (if s.overlay.isSome = true then s.onDockEntered else s).TimerRight
    split_ifs
    · exact htimer.of_same ((sameMotion_modifyOverlay _).trans sameMotion_bumpDockActivity)
    · exact htimer
  | dragHandlePressed primary pointer =>
    change (if s.overlay.isSome = true then s.onDockDragHandlePress primary pointer else s).TimerRight
    split_ifs
    · exact htimer.of_same (sameMotion_onDockDragHandlePress primary pointer)
    · exact htimer
  | canvas i =>
    change (s.canvas i).TimerRight
    unfold canvas
    split
    · exact htimer
    · exact htimer
    · exact htimer.of_same (sameMotion_modifyOverlay _)
  | set change => exact timerRight_changeSetting h htimer change
  | callback id stimulus => exact timerRight_run h htimer id stimulus

/-- In every state there is a timer just if the extension is enabled and both settings are on, and
only one. It fires at the interval that the third setting asks for now, which is between a quarter
of a second and a second. -/
theorem motionTimer_iff (settings : ExtensionSettings) (fork : Bool) (inputs : List (Input K)) :
    let s := Runs.run step (new settings fork) inputs
    ((∃ id ms, (id, .motionTimer ms) ∈ s.books.live) ↔
      s.enabled = true ∧ s.settings.movementSync = true ∧ s.settings.movementConsentRoi = true) ∧
    ∀ id ms, (id, .motionTimer ms) ∈ s.books.live → ms = timerMs s.settings ∧ 250 ≤ ms ∧ ms ≤ 1000 ∧
      ∀ id' ms', (id', .motionTimer ms') ∈ s.books.live → id' = id := by
  dsimp only
  have h : (Runs.run step (new settings fork) inputs : AnnotationsExtension K).Tidy ∧
      (Runs.run step (new settings fork) inputs : AnnotationsExtension K).TimerRight :=
    run_invariant (P := fun s : AnnotationsExtension K => s.Tidy ∧ s.TimerRight)
      (fun s i h => ⟨tidy_step h.1 i, timerRight_step h.1 h.2 i⟩)
      ⟨tidy_after settings fork [], (tidy_after settings fork []).timerRight_of_disabled rfl⟩
  generalize Runs.run step (new settings fork) inputs = s at h
  obtain ⟨htidy, htimer⟩ := h
  have hwants : wantsTimer s.settings = true ↔
      s.settings.movementSync = true ∧ s.settings.movementConsentRoi = true := Bool.and_eq_true_iff
  refine ⟨?_, fun id ms hmem => ⟨htimer.period id ms hmem, ?_, ?_, fun id' ms' hmem' => ?_⟩⟩
  · rw [← hwants, ← htimer.runs]
    constructor
    · rintro ⟨id, ms, hmem⟩
      exact htidy.kept.ids_ne_zero hmem
    · intro hid
      obtain ⟨⟨id, k⟩, hmem, -, hname⟩ := htidy.kept.alive .timer hid
      cases k with
      | motionTimer ms => exact ⟨id, ms, hmem⟩
      | _ => cases hname
  · rw [htimer.period id ms hmem]
    exact le_max_left _ _
  · rw [htimer.period id ms hmem]
    have hhz : (1 : ℤ) ≤ max 1 s.settings.movementMaxHz := le_max_left _ _
    have hdiv : (1000 : ℤ) / max 1 s.settings.movementMaxHz ≤ 1000 := Int.ediv_le_self _ (by norm_num)
    exact max_le (by norm_num) hdiv
  · exact congrArg Prod.fst (htidy.kept.name_unique hmem' hmem rfl)

end AnnotationsExtension

end Annotations.Lifecycle
