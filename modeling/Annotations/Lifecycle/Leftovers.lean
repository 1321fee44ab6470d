import Annotations.Lifecycle.Extension
import Annotations.Overlay.Leaks

/-! What a disabled extension leaves in the shell: nothing that can still run, and pointer
passthrough off. While it is enabled, every callback is the one that its field holds. -/

namespace Annotations.Lifecycle

open Overlay Runs IdLedger

variable {K : Type}

namespace AnnotationsExtension

variable {s s' : AnnotationsExtension K}

abbrev BooksKept (s : AnnotationsExtension K) : Prop := s.books.Kept Callback.field

/-! ### The books -/

theorem kept_restartTimer (h : s.BooksKept) : s.restartTimer.BooksKept := by
  unfold restartTimer
  dsimp only
  split_ifs
  · exact h.release .timer
  · exact h.release .timer
  · exact h.replace rfl

theorem kept_changeSetting (h : s.BooksKept) (change : MovementChange) : (s.changeSetting change).BooksKept := by
  unfold changeSetting
  dsimp only
  generalize List.filter _ _ = handlers
  generalize hstart : { s with settings := change.apply s.settings } = start
  have hkept : start.BooksKept := hstart ▸ h
  clear hstart
  induction handlers generalizing start with
  | nil => exact hkept
  | cons e handlers ih => exact ih _ (kept_restartTimer hkept)

theorem kept_bumpDockActivity (h : s.BooksKept) : s.bumpDockActivity.BooksKept := h.replace rfl

theorem kept_endDrag (h : s.BooksKept) : s.endDrag.BooksKept := (h.release _).release _

theorem kept_onDockDragHandlePress (h : s.BooksKept) (primary : Bool) (pointer : ℤ × ℤ) :
    (s.onDockDragHandlePress primary pointer).BooksKept := by
  unfold onDockDragHandlePress
  split_ifs
  · exact h
  · have hbump : s.dockExpandIfShrunk.bumpDockActivity.BooksKept := h.replace rfl
    have hfree := (hbump.release .dockDragSeq).release .dockDragSafetySrc
    have hseq := hfree.connect (k := .dockDragCaptured) (n := .dockDragSeq) rfl (by simp)
    exact hseq.connect rfl (by simp)

theorem kept_syncPenStageCapture (h : s.BooksKept) : s.syncPenStageCapture.BooksKept := by
  have hfree := (h.release (.penCap .stage)).release (.penCap .uiGroup)
  unfold syncPenStageCapture
  dsimp only
  split_ifs
  · exact hfree
  · have hstage := hfree.connect (k := .penCapture .stage) (n := .penCap .stage) rfl (by simp)
    exact hstage.connect rfl (by simp)

theorem syncShellPointerPassthrough_eq (visible : Bool) : s.syncShellPointerPassthrough visible =
    { s with passthrough := if s.shellForkSettings then s.passthrough.map fun _ => visible else s.passthrough } := by
  unfold syncShellPointerPassthrough
  split_ifs with hunset hset hset
  · simp [hset] at hunset
  · rfl
  · rfl
  · simp [hset] at hunset

/-! ### What the shell sees -/

theorem visible_modifyOverlay {f : DockedSession K → DockedSession K}
    (hf : ∀ o, (f o).session.visible = o.session.visible) : (s.modifyOverlay f).visible = s.visible := by
  unfold visible modifyOverlay
  cases s.overlay with
  | none => rfl
  | some o => exact hf o

/-- The shell cannot tell the two apart, but for their callbacks. -/
structure SameShell (s s' : AnnotationsExtension K) : Prop where
  enabled : s'.enabled = s.enabled
  keybinding : s'.keybinding = s.keybinding
  indicator : s'.indicator = s.indicator
  chrome : s'.chrome = s.chrome
  passthrough : s'.passthrough = s.passthrough
  shellForkSettings : s'.shellForkSettings = s.shellForkSettings
  overlay : s'.overlay.isSome = s.overlay.isSome
  visible : s'.visible = s.visible

theorem SameShell.trans {s'' : AnnotationsExtension K} (h : SameShell s s') (h' : SameShell s' s'') :
    SameShell s s'' where
  enabled := h'.enabled.trans h.enabled
  keybinding := h'.keybinding.trans h.keybinding
  indicator := h'.indicator.trans h.indicator
  chrome := h'.chrome.trans h.chrome
  passthrough := h'.passthrough.trans h.passthrough
  shellForkSettings := h'.shellForkSettings.trans h.shellForkSettings
  overlay := h'.overlay.trans h.overlay
  visible := h'.visible.trans h.visible

theorem sameShell_books (books : IdLedger Callback Field) : SameShell s { s with books := books } :=
  ⟨rfl, rfl, rfl, rfl, rfl, rfl, rfl, rfl⟩

theorem sameShell_settings (settings : ExtensionSettings) : SameShell s { s with settings := settings } :=
  ⟨rfl, rfl, rfl, rfl, rfl, rfl, rfl, rfl⟩

theorem sameShell_modifyOverlay {f : DockedSession K → DockedSession K}
    (hf : ∀ o, (f o).session.visible = o.session.visible) : SameShell s (s.modifyOverlay f) :=
  ⟨rfl, rfl, rfl, rfl, rfl, rfl, Option.isSome_map, visible_modifyOverlay hf⟩

theorem sameShell_restartTimer : SameShell s s.restartTimer := by
  unfold restartTimer
  dsimp only
  split_ifs <;> exact sameShell_books _

theorem sameShell_changeSetting (change : MovementChange) : SameShell s (s.changeSetting change) := by
  unfold changeSetting
  dsimp only
  generalize List.filter _ _ = handlers
  refine (sameShell_settings (change.apply s.settings)).trans ?_
  generalize { s with settings := change.apply s.settings } = start
  induction handlers generalizing start with
  | nil => exact sameShell_books _
  | cons e handlers ih => exact sameShell_restartTimer.trans (ih _)

theorem sameShell_dockExpandIfShrunk : SameShell s s.dockExpandIfShrunk := sameShell_modifyOverlay fun _ => rfl

theorem sameShell_onDockEntered : SameShell s s.onDockEntered :=
  sameShell_dockExpandIfShrunk.trans (sameShell_books _)

theorem sameShell_endDrag : SameShell s s.endDrag :=
  (sameShell_books _).trans
    (sameShell_modifyOverlay (s := (s.release .dockDragSafetySrc).release .dockDragSeq) fun _ => rfl)

theorem sameShell_saveDockPos : SameShell s s.saveDockPos := by
  unfold saveDockPos
  split
  · exact sameShell_books _
  · exact sameShell_settings _

theorem sameShell_onDockDragHandlePress (primary : Bool) (pointer : ℤ × ℤ) :
    SameShell s (s.onDockDragHandlePress primary pointer) := by
  unfold onDockDragHandlePress
  split_ifs
  · exact sameShell_books _
  · have hbump : SameShell s s.dockExpandIfShrunk.bumpDockActivity := sameShell_onDockEntered
    have hmark : SameShell s.dockExpandIfShrunk.bumpDockActivity
        (s.dockExpandIfShrunk.bumpDockActivity.modifyOverlay fun o => { o with dockDragLast := some pointer }) :=
      sameShell_modifyOverlay fun _ => rfl
    exact (hbump.trans hmark).trans (sameShell_books _)

theorem visible_dragTo (o : DockedSession K) (pointer : ℤ × ℤ) :
    (o.dragTo pointer).session.visible = o.session.visible := by
  unfold DockedSession.dragTo
  split <;> rfl

theorem sameShell_onDockDragCaptured (stimulus : Stimulus K) : SameShell s (s.onDockDragCaptured stimulus) := by
  unfold onDockDragCaptured
  split
  · exact sameShell_endDrag.trans sameShell_saveDockPos
  · exact sameShell_modifyOverlay fun o => visible_dragTo o _
  · exact sameShell_books _

/-! ### Enabling and disabling -/

theorem ids_restartTimer {n : Field} (hn : n ≠ .timer) : s.restartTimer.books.ids n = s.books.ids n := by
  unfold restartTimer
  dsimp only
  split_ifs <;> simp [stopTimer, release, connect, hn]

theorem kept_enableMotion (h : s.BooksKept) (hnone : ∀ n, s.books.ids n = 0) : s.enableMotion.BooksKept := by
  unfold enableMotion
  refine kept_restartTimer ?_
  have htimer := h.reset (n := .timer) (hnone _)
  have hsync := htimer.reset (n := .settingId .movementSync) (by simp [hnone])
  have hconsent := hsync.reset (n := .settingId .movementConsentRoi) (by simp [hnone])
  have hreset := hconsent.reset (n := .settingId .movementMaxHz) (by simp [hnone])
  have h1 := hreset.connect (k := .settingChanged .movementSync) (n := .settingId .movementSync) rfl (by simp)
  have h2 := h1.connect (k := .settingChanged .movementConsentRoi) (n := .settingId .movementConsentRoi) rfl (by simp)
  exact h2.connect (k := .settingChanged .movementMaxHz) (n := .settingId .movementMaxHz) rfl (by simp)

/-- The fields of the overlay and of the extension itself stay empty. -/
theorem ids_enableMotion (hnone : ∀ n, s.books.ids n = 0) {n : Field} (hn : n ≠ .timer)
    (hkey : ∀ key, n ≠ .settingId key) : s.enableMotion.books.ids n = 0 := by
  unfold enableMotion
  rw [ids_restartTimer hn]
  simp [connect, hnone, hkey]

variable [Scalar K]

theorem kept_newOverlay (h : s.BooksKept) (hnone : ∀ n, n ≠ .timer → (∀ key, n ≠ .settingId key) → s.books.ids n = 0) :
    s.newOverlay.BooksKept := by
  unfold newOverlay
  refine kept_syncPenStageCapture ?_
  have h1 := h.reset (n := .dockShrinkSrc) (by simp [hnone])
  have h2 := h1.reset (n := .dockDragSafetySrc) (by simp [hnone])
  have h3 := h2.reset (n := .dockDragSeq) (by simp [hnone])
  have h4 := h3.reset (n := .penCap .stage) (by simp [hnone])
  have h5 := h4.reset (n := .penCap .uiGroup) (by simp [hnone])
  have h6 := h5.reset (n := .monitorsSig) (by simp [hnone])
  exact h6.connect (k := .monitorsChanged) (n := .monitorsSig) rfl (by simp)

omit [Scalar K] in
theorem ids_syncPenStageCapture {n : Field} (hn : ∀ target, n ≠ .penCap target) :
    s.syncPenStageCapture.books.ids n = s.books.ids n := by
  unfold syncPenStageCapture
  dsimp only
  split_ifs <;> simp [release, connect, hn]

theorem ids_kbIdle_newOverlay : s.newOverlay.books.ids .kbIdle = s.books.ids .kbIdle := by
  unfold newOverlay
  rw [ids_syncPenStageCapture (by simp)]
  simp [connect]

omit [Scalar K] in
theorem ids_disable (h : s.enabled = true) (n : Field) : s.disable.books.ids n = 0 := by
  unfold disable
  rw [if_neg (by simp [h])]
  dsimp only
  unfold disableMotion destroyOverlay stopTimer
  simp only [release, syncShellPointerPassthrough_eq]
  cases n with
  | penCap target => cases target <;> simp
  | settingId key => cases key <;> simp
  | _ => simp

omit [Scalar K] in
theorem kept_disable (h : s.BooksKept) : s.disable.BooksKept := by
  unfold disable
  split_ifs
  · exact h
  · dsimp only
    have hsync : (({ s.release .kbIdle with keybinding := false } :
        AnnotationsExtension K).syncShellPointerPassthrough false).BooksKept := by
      rw [syncShellPointerPassthrough_eq]
      exact h.release .kbIdle
    have hoverlay := (((((hsync.release .dockShrinkSrc).release .dockDragSafetySrc).release .dockDragSeq).release
      (.penCap .stage)).release (.penCap .uiGroup)).release .monitorsSig
    exact (((hoverlay.release (.settingId .movementSync)).release (.settingId .movementConsentRoi)).release
      (.settingId .movementMaxHz)).release .timer

/-! ### Tidiness -/

/-- The books are kept, all fields of a disabled extension are empty, and passthrough says whether
the overlay is shown. -/
structure Tidy (s : AnnotationsExtension K) : Prop where
  kept : s.BooksKept
  overlay : s.overlay.isSome = s.enabled
  idle : s.enabled = false →
    (∀ n, s.books.ids n = 0) ∧ s.keybinding = false ∧ s.indicator = false ∧ s.chrome = false
  fork : s.enabled = true → s.shellForkSettings = s.passthrough.isSome
  through : ∀ b, s.passthrough = some b → b = s.visible

omit [Scalar K] in
theorem Tidy.of_same (h : s.Tidy) (hsame : SameShell s s') (hkept : s'.BooksKept)
    (hnone : s.enabled = false → ∀ n, s'.books.ids n = 0) : s'.Tidy where
  kept := hkept
  overlay := by rw [hsame.overlay, hsame.enabled, h.overlay]
  idle hoff := by
    rw [hsame.enabled] at hoff
    obtain ⟨-, hkey, hindicator, hchrome⟩ := h.idle hoff
    exact ⟨hnone hoff, hsame.keybinding.trans hkey, hsame.indicator.trans hindicator, hsame.chrome.trans hchrome⟩
  fork hon := by rw [hsame.shellForkSettings, hsame.passthrough, h.fork (hsame.enabled.symm.trans hon)]
  through b hb := by rw [hsame.visible, h.through b (hsame.passthrough.symm.trans hb)]

omit [Scalar K] in
theorem Tidy.live_eq_nil (h : s.Tidy) (hoff : s.enabled = false) : s.books.live = [] :=
  h.kept.live_eq_nil (h.idle hoff).1

omit [Scalar K] in
/-- A callback that runs finds the extension enabled. -/
theorem Tidy.enabled_of_callback (h : s.Tidy) {id : ℕ} {k : Callback} (hk : s.books.callback id = some k) :
    s.enabled = true := by
  cases hoff : s.enabled with
  | true => rfl
  | false =>
    have hmem := mem_of_callback hk
    rw [h.live_eq_nil hoff] at hmem
    cases hmem

omit [Scalar K] in
theorem Tidy.visible_of_disabled (h : s.Tidy) (hoff : s.enabled = false) : s.visible = false := by
  have hnone : s.overlay = none := by simpa [hoff] using h.overlay
  simp [visible, hnone]

theorem visible_newOverlay : s.newOverlay.visible = false := by
  unfold newOverlay syncPenStageCapture
  dsimp only
  split_ifs <;> rfl

theorem tidy_enable (h : s.Tidy) : s.enable.Tidy := by
  unfold enable
  split_ifs with hon
  · exact h
  have hoff : s.enabled = false := by simpa using hon
  obtain ⟨hnone, hkey, -⟩ := h.idle hoff
  dsimp only
  generalize hstart : { s with enabled := true } = start
  have hempty : ∀ n, start.books.ids n = 0 := by rw [← hstart]; exact hnone
  have hmotion : start.enableMotion.BooksKept := kept_enableMotion (by rw [← hstart]; exact h.kept) hempty
  have hidle : ∀ n, n ≠ .timer → (∀ key, n ≠ .settingId key) → start.enableMotion.books.ids n = 0 := fun n =>
    ids_enableMotion hempty
  have hkept := kept_newOverlay hmotion hidle
  have hkb : start.enableMotion.newOverlay.books.ids .kbIdle = 0 :=
    ids_kbIdle_newOverlay.trans (hidle .kbIdle (by simp) (by simp))
  have hmotionShell : SameShell start start.enableMotion := (sameShell_books _).trans sameShell_restartTimer
  have hpass : start.enableMotion.newOverlay.passthrough = s.passthrough := by
    have hnew : start.enableMotion.newOverlay.passthrough = start.enableMotion.passthrough := by
      unfold newOverlay syncPenStageCapture
      dsimp only
      split_ifs <;> rfl
    rw [hnew, hmotionShell.passthrough, ← hstart]
  have hsome : start.enableMotion.newOverlay.overlay.isSome = true ∧ start.enableMotion.newOverlay.enabled = true := by
    have henabled : start.enableMotion.enabled = true := hmotionShell.enabled.trans (by rw [← hstart])
    unfold newOverlay syncPenStageCapture
    dsimp only
    split_ifs <;> exact ⟨rfl, henabled⟩
  exact {
    kept := hkept.connect rfl hkb
    overlay := hsome.1.trans hsome.2.symm
    idle := fun hdisabled => absurd (hsome.2.symm.trans hdisabled) (by simp)
    fork := fun _ => rfl
    through := fun b hb => by
      have hvisible := h.through b (hpass.symm.trans hb)
      rw [h.visible_of_disabled hoff] at hvisible
      exact hvisible.trans visible_newOverlay.symm }

omit [Scalar K] in
theorem passthrough_disable (h : s.enabled = true) (hfork : s.shellForkSettings = s.passthrough.isSome) :
    s.disable.passthrough = s.passthrough.map fun _ => false := by
  unfold disable
  rw [if_neg (by simp [h])]
  dsimp only
  rw [syncShellPointerPassthrough_eq]
  change (if s.shellForkSettings then s.passthrough.map fun _ => false else s.passthrough) = _
  rw [hfork]
  cases s.passthrough <;> rfl

omit [Scalar K] in
theorem tidy_disable (h : s.Tidy) : s.disable.Tidy := by
  cases hon : s.enabled with
  | false =>
    unfold disable
    rwa [if_pos (by simp [hon])]
  | true =>
    have hnone := ids_disable hon
    have hkept := kept_disable h.kept
    have hpass := passthrough_disable hon (h.fork hon)
    have hrest : s.disable.overlay = none ∧ s.disable.enabled = false ∧ s.disable.keybinding = false ∧
        s.disable.indicator = false ∧ s.disable.chrome = false := by
      unfold disable
      rw [if_neg (by simp [hon])]
      dsimp only
      rw [syncShellPointerPassthrough_eq]
      exact ⟨rfl, rfl, rfl, rfl, rfl⟩
    obtain ⟨hoverlay, hoff, hkey, hindicator, hchrome⟩ := hrest
    exact {
      kept := hkept
      overlay := by rw [hoverlay, hoff]; rfl
      idle := fun _ => ⟨hnone, hkey, hindicator, hchrome⟩
      fork := fun hon' => by rw [hoff] at hon'; cases hon'
      through := fun b hb => by
        rw [hpass] at hb
        obtain ⟨_, -, rfl⟩ := Option.map_eq_some_iff.mp hb
        simp [visible, hoverlay] }

/-! ### Runs -/

theorem tidy_toggle (h : s.Tidy) (hon : s.enabled = true) : s.toggle.Tidy := by
  unfold toggle
  dsimp only
  generalize htoggled : (s.modifyOverlay fun o => { o with session := o.session.toggle }) = t
  have hbooks : t.books = s.books := by rw [← htoggled]; rfl
  have hkept : t.BooksKept := by
    unfold BooksKept
    rw [hbooks]
    exact h.kept
  generalize hbumped : (if t.visible = true then t.bumpDockActivity else t) = u
  have hu : SameShell t u ∧ u.BooksKept := by
    rw [← hbumped]
    split_ifs
    · exact ⟨sameShell_books _, kept_bumpDockActivity hkept⟩
    · exact ⟨sameShell_books _, hkept⟩
  have hsame : SameShell u u.syncPenStageCapture := by
    unfold syncPenStageCapture
    dsimp only
    split_ifs <;> exact sameShell_books _
  have hshell := hu.1.trans hsame
  rw [syncShellPointerPassthrough_eq]
  have hfork : u.syncPenStageCapture.shellForkSettings = u.syncPenStageCapture.passthrough.isSome := by
    rw [hshell.shellForkSettings, hshell.passthrough, ← htoggled]
    exact h.fork hon
  exact {
    kept := kept_syncPenStageCapture hu.2
    overlay := by
      change u.syncPenStageCapture.overlay.isSome = u.syncPenStageCapture.enabled
      rw [hshell.overlay, hshell.enabled, ← htoggled]
      exact Option.isSome_map.trans h.overlay
    idle := fun hoff => by
      have henabled : t.enabled = false := hshell.enabled.symm.trans hoff
      rw [← htoggled] at henabled
      exact absurd (hon.symm.trans henabled) (by simp)
    fork := fun _ => by
      change u.syncPenStageCapture.shellForkSettings = Option.isSome (ite _ _ _)
      rw [hfork]
      cases u.syncPenStageCapture.passthrough <;> rfl
    through := fun b hb => by
      change (if u.syncPenStageCapture.shellForkSettings = true then _ else _) = some b at hb
      rw [hfork] at hb
      cases hpass : u.syncPenStageCapture.passthrough with
      | none => simp [hpass] at hb
      | some before =>
        rw [hpass] at hb
        exact (Option.some.inj hb).symm }

variable [FloorRing K]

/-- Only a toggle shows or hides the overlay. -/
theorem visible_step {o : OverlaySession K} {i : OverlaySession.Step K} (hi : i.action ≠ .toggle) :
    (o.step i).visible = o.visible := by
  have hkeep : ∀ event o' o'', o'.visible = o.visible → OverlaySession.Update i.env event o' o'' →
      o''.visible = o.visible := by
    intro event o' o'' ho' hupdate
    cases hupdate with
    | commit => exact OverlaySession.visible_commit.trans ho'
    | clicked button hup =>
      cases button with
      | swatch rgb => exact ho'
      | clear => exact ho'
    | beginInk hvisible hup hawait => exact OverlaySession.visible_beginInk.trans ho'
    | appendInk hdown => exact OverlaySession.visible_appendInk.trans ho'
    | _ => exact ho'
  obtain ⟨env, action⟩ := i
  cases action with
  | captured event => exact OverlaySession.onPenStageCaptured_makes.keeps (hkeep event) rfl
  | press event => exact OverlaySession.onPress_makes.keeps (hkeep event) rfl
  | motion event => exact OverlaySession.onMotion_makes.keeps (hkeep event) rfl
  | release event => exact (OverlaySession.onRelease_makes env).keeps (hkeep event) rfl
  | toggle => exact absurd rfl hi
  | clicked button =>
    cases button with
    | swatch rgb => rfl
    | clear => rfl
  | undoClicked => rfl

theorem sameShell_onCaptured (stimulus : Stimulus K) : SameShell s (s.onCaptured stimulus) := by
  unfold onCaptured
  split
  · exact sameShell_modifyOverlay fun o => visible_step (by simp)
  · exact sameShell_books _

theorem books_onCaptured (stimulus : Stimulus K) : (s.onCaptured stimulus).books = s.books := by
  unfold onCaptured
  split <;> rfl

theorem canvas_spec (i : OverlaySession.Step K) : SameShell s (s.canvas i) ∧ (s.canvas i).books = s.books := by
  unfold canvas
  split
  · exact ⟨sameShell_books _, rfl⟩
  · exact ⟨sameShell_books _, rfl⟩
  · next hcaptured htoggle =>
    exact ⟨sameShell_modifyOverlay fun o => visible_step fun h => hcaptured h, rfl⟩

omit [Scalar K] [FloorRing K] in
theorem books_saveDockPos : s.saveDockPos.books = s.books := by
  unfold saveDockPos
  split <;> rfl

omit [Scalar K] [FloorRing K] in
theorem kept_onDockDragCaptured (h : s.BooksKept) (stimulus : Stimulus K) :
    (s.onDockDragCaptured stimulus).BooksKept := by
  unfold onDockDragCaptured
  split
  · unfold BooksKept
    rw [books_saveDockPos]
    exact kept_endDrag h
  · exact h
  · exact h

theorem tidy_run (h : s.Tidy) (id : ℕ) (stimulus : Stimulus K) : (s.run id stimulus).Tidy := by
  unfold run
  cases hk : s.books.callback id with
  | none => exact h
  | some k =>
    have hon := h.enabled_of_callback hk
    have henabled : s.enabled = false → ∀ n, (s.run id stimulus).books.ids n = 0 := fun hoff =>
      absurd (hon.symm.trans hoff) (by simp)
    unfold run at henabled
    rw [hk] at henabled
    cases k with
    | keybindingIdle =>
      exact {
        kept := h.kept.finish hk rfl
        overlay := h.overlay
        idle := fun hoff => absurd (hon.symm.trans hoff) (by simp)
        fork := h.fork
        through := h.through }
    | dockShrink =>
      refine h.of_same ?_ (h.kept.finish hk rfl) henabled
      exact (sameShell_books (s.books.finish .dockShrinkSrc id)).trans (sameShell_modifyOverlay fun _ => rfl)
    | dockDragSafety =>
      refine h.of_same ?_ ((h.kept.finish hk rfl).release .dockDragSeq) henabled
      exact (sameShell_books ((s.books.finish .dockDragSafetySrc id).release .dockDragSeq)).trans
        (sameShell_modifyOverlay fun _ => rfl)
    | dockDragCaptured =>
      exact h.of_same (sameShell_onDockDragCaptured stimulus) (kept_onDockDragCaptured h.kept stimulus) henabled
    | penCapture target =>
      refine h.of_same (sameShell_onCaptured stimulus) ?_ henabled
      unfold BooksKept
      rw [books_onCaptured]
      exact h.kept
    | monitorsChanged => exact h
    | settingChanged key => exact h.of_same sameShell_restartTimer (kept_restartTimer h.kept) henabled
    | motionTimer ms => exact h

omit [Scalar K] [FloorRing K] in
/-- A disabled extension has no handler for a setting. -/
theorem ids_changeSetting (h : s.Tidy) (change : MovementChange) (hoff : s.enabled = false) (n : Field) :
    (s.changeSetting change).books.ids n = 0 := by
  unfold changeSetting
  dsimp only
  rw [h.live_eq_nil hoff]
  exact (h.idle hoff).1 n

theorem tidy_step (h : s.Tidy) (i : Input K) : (s.step i).Tidy := by
  have hopen : s.overlay.isSome = true → ∀ books : IdLedger Callback Field, s.enabled = false → ∀ n, books.ids n = 0 :=
    fun hsome books hoff => absurd (hsome.symm.trans (h.overlay.trans hoff)) (by simp)
  cases i with
  | enable => exact tidy_enable h
  | disable => exact tidy_disable h
  | toggleDrawingOverlay =>
    change (if s.overlay.isSome = true then s.toggle else s).Tidy
    split_ifs with hsome
    · exact tidy_toggle h (h.overlay.symm.trans hsome)
    · exact h
  | dockEntered =>
    change (if s.overlay.isSome = true then s.onDockEntered else s).Tidy
    split_ifs with hsome
    · exact h.of_same sameShell_onDockEntered (kept_bumpDockActivity (s := s.dockExpandIfShrunk) h.kept) (hopen hsome _)
    · exact h
  | dragHandlePressed primary pointer =>
    change (if s.overlay.isSome = true then s.onDockDragHandlePress primary pointer else s).Tidy
    split_ifs with hsome
    · exact h.of_same (sameShell_onDockDragHandlePress primary pointer) (kept_onDockDragHandlePress h.kept _ _)
        (hopen hsome _)
    · exact h
  | canvas i =>
    obtain ⟨hsame, hbooks⟩ := canvas_spec (s := s) i
    refine h.of_same hsame ?_ fun hoff n => ?_
    · unfold BooksKept
      rw [show (s.step (.canvas i)).books = s.books from hbooks]
      exact h.kept
    · rw [show (s.step (.canvas i)).books = s.books from hbooks]
      exact (h.idle hoff).1 n
  | set change =>
    exact h.of_same (sameShell_changeSetting change) (kept_changeSetting h.kept change) (ids_changeSetting h change)
  | callback id stimulus => exact tidy_run h id stimulus

theorem tidy_after (settings : ExtensionSettings) (fork : Bool) (inputs : List (Input K)) :
    (Runs.run step (new settings fork) inputs).Tidy := by
  refine run_invariant (fun s i h => tidy_step h i) ⟨kept_empty, rfl, fun _ => ⟨fun _ => rfl, rfl, rfl, rfl⟩, nofun, ?_⟩
  intro b hb
  cases fork with
  | false => cases hb
  | true => exact (Option.some.inj hb).symm

/-- Whatever happened to it, a disabled extension has left nothing in the shell: no source, no
handler, no keybinding, no indicator, no overlay, and passthrough is off. While it is enabled,
there is one callback of each kind at most, and passthrough is on just while the overlay is shown. -/
theorem nothingLeft_of_disabled (settings : ExtensionSettings) (fork : Bool) (inputs : List (Input K)) :
    let s := Runs.run step (new settings fork) inputs
    (s.enabled = false → s.books.live = [] ∧ s.keybinding = false ∧ s.indicator = false ∧ s.chrome = false ∧
      s.passthrough ≠ some true) ∧
    (∀ e ∈ s.books.live, ∀ e' ∈ s.books.live, e.2.field = e'.2.field → e = e') ∧
    ∀ b, s.passthrough = some b → b = s.visible := by
  dsimp only
  have h := tidy_after settings fork inputs
  generalize Runs.run step (new settings fork) inputs = s at h
  refine ⟨fun hdisabled => ?_, fun e he e' he' => h.kept.name_unique he he', h.through⟩
  obtain ⟨-, hkey, hindicator, hchrome⟩ := h.idle hdisabled
  refine ⟨h.live_eq_nil hdisabled, hkey, hindicator, hchrome, fun hon => ?_⟩
  have hshown := h.through true hon
  rw [h.visible_of_disabled hdisabled] at hshown
  cases hshown

end AnnotationsExtension

end Annotations.Lifecycle
