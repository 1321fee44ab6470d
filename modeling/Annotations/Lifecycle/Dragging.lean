import Annotations.Lifecycle.Leftovers

/-! A drag of the dock. While it lasts its handler is connected and its safety timer is set, and
the dock is as far from where it was gripped as the pointer is. -/

namespace Annotations.Lifecycle

open Overlay Runs IdLedger

variable {K : Type}

/-- Where the dock and the pointer were when the handle was pressed last, and where the pointer has
come since: the position of the press, or of the last motion that the handler of the drag was run for. -/
structure Grip where
  dockPos : ℤ × ℤ
  pointer : ℤ × ℤ
  last : ℤ × ℤ

namespace AnnotationsExtension

variable {s s' : AnnotationsExtension K} {grip : Option Grip}

/-- A press on the handle grips the dock, and a motion that the drag captures moves the pointer. -/
def seeGrip (grip : Option Grip) (s : AnnotationsExtension K) : Input K → Option Grip
  | .dragHandlePressed true pointer => (s.overlay.map fun o => ⟨o.dockPos, pointer, pointer⟩) <|> grip
  | .callback id (.motion pointer) =>
    match s.books.callback id with
    | some .dockDragCaptured => grip.map fun g => { g with last := pointer }
    | _ => grip
  | _ => grip

/-- The position of the dock and the last position of the pointer in a drag. -/
def dockState (s : AnnotationsExtension K) : Option ((ℤ × ℤ) × Option (ℤ × ℤ)) :=
  s.overlay.map fun o => (o.dockPos, o.dockDragLast)

/-- The drag, its handler and its timer come and go together, and the dock follows the pointer. -/
structure Gripped (s : AnnotationsExtension K) (grip : Option Grip) : Prop where
  handler : ∀ d last, s.dockState = some (d, last) → (last.isSome ↔ s.books.ids .dockDragSeq ≠ 0)
  safety : ∀ d last, s.dockState = some (d, last) → (last.isSome ↔ s.books.ids .dockDragSafetySrc ≠ 0)
  follows : ∀ d p, s.dockState = some (d, some p) →
    ∃ g, grip = some g ∧ g.last = p ∧ d = g.dockPos + (p - g.pointer)

/-- The dock is left alone. -/
structure SameDock (s s' : AnnotationsExtension K) : Prop where
  dock : s'.dockState = s.dockState
  handler : s'.books.ids .dockDragSeq = s.books.ids .dockDragSeq
  safety : s'.books.ids .dockDragSafetySrc = s.books.ids .dockDragSafetySrc

theorem Gripped.of_same (h : s.Gripped grip) (hsame : SameDock s s') : s'.Gripped grip where
  handler d last hdock := by
    rw [hsame.handler]
    exact h.handler d last (hsame.dock.symm.trans hdock)
  safety d last hdock := by
    rw [hsame.safety]
    exact h.safety d last (hsame.dock.symm.trans hdock)
  follows d p hdock := h.follows d p (hsame.dock.symm.trans hdock)

theorem SameDock.trans {s'' : AnnotationsExtension K} (h : SameDock s s') (h' : SameDock s' s'') : SameDock s s'' where
  dock := h'.dock.trans h.dock
  handler := h'.handler.trans h.handler
  safety := h'.safety.trans h.safety

theorem sameDock_of_eq (hoverlay : s'.overlay = s.overlay) (hbooks : s'.books = s.books) : SameDock s s' where
  dock := by rw [dockState, hoverlay]; rfl
  handler := by rw [hbooks]
  safety := by rw [hbooks]

theorem sameDock_refl : SameDock s s := ⟨rfl, rfl, rfl⟩

theorem sameDock_finish {n : Field} (id : ℕ) (hseq : n ≠ .dockDragSeq) (hsafety : n ≠ .dockDragSafetySrc) :
    SameDock s { s with books := s.books.finish n id } :=
  ⟨rfl, Function.update_of_ne hseq.symm _ _, Function.update_of_ne hsafety.symm _ _⟩

theorem sameDock_release {n : Field} (hseq : n ≠ .dockDragSeq) (hsafety : n ≠ .dockDragSafetySrc) :
    SameDock s (s.release n) := sameDock_finish _ hseq hsafety

theorem sameDock_connect {n : Field} (k : Callback) (hseq : n ≠ .dockDragSeq) (hsafety : n ≠ .dockDragSafetySrc) :
    SameDock s (s.connect n k) :=
  ⟨rfl, Function.update_of_ne hseq.symm _ _, Function.update_of_ne hsafety.symm _ _⟩

theorem sameDock_modifyOverlay {f : DockedSession K → DockedSession K}
    (hf : ∀ o, (f o).dockPos = o.dockPos ∧ (f o).dockDragLast = o.dockDragLast) : SameDock s (s.modifyOverlay f) where
  dock := by
    unfold dockState modifyOverlay
    cases s.overlay with
    | none => rfl
    | some o => exact congrArg some (Prod.ext (hf o).1 (hf o).2)
  handler := rfl
  safety := rfl

theorem sameDock_onDockEntered : SameDock s s.onDockEntered := by
  have hexpand : SameDock s s.dockExpandIfShrunk := sameDock_modifyOverlay fun _ => ⟨rfl, rfl⟩
  exact (hexpand.trans (sameDock_release (n := .dockShrinkSrc) (by simp) (by simp))).trans
    (sameDock_connect .dockShrink (by simp) (by simp))

theorem sameDock_restartTimer : SameDock s s.restartTimer := by
  have hstop : SameDock s s.stopTimer := sameDock_release (by simp) (by simp)
  unfold restartTimer
  dsimp only
  split_ifs
  · exact hstop
  · exact hstop
  · exact hstop.trans (sameDock_connect _ (by simp) (by simp))

theorem sameDock_changeSetting (change : MovementChange) : SameDock s (s.changeSetting change) := by
  unfold changeSetting
  dsimp only
  generalize List.filter _ _ = handlers
  have hsettings : SameDock s { s with settings := change.apply s.settings } := sameDock_of_eq rfl rfl
  refine hsettings.trans ?_
  generalize { s with settings := change.apply s.settings } = start
  induction handlers generalizing start with
  | nil => exact sameDock_refl
  | cons e handlers ih => exact sameDock_restartTimer.trans (ih _)

theorem sameDock_syncPenStageCapture : SameDock s s.syncPenStageCapture := by
  have hfree : SameDock s ((s.release (.penCap .stage)).release (.penCap .uiGroup)) :=
    (sameDock_release (by simp) (by simp)).trans (sameDock_release (by simp) (by simp))
  unfold syncPenStageCapture
  dsimp only
  split_ifs
  · exact hfree
  · exact (hfree.trans (sameDock_connect _ (by simp) (by simp))).trans (sameDock_connect _ (by simp) (by simp))

theorem sameDock_toggle [Scalar K] : SameDock s s.toggle := by
  unfold toggle
  dsimp only
  generalize htoggled : (s.modifyOverlay fun o => { o with session := o.session.toggle }) = t
  have ht : SameDock s t := htoggled ▸ sameDock_modifyOverlay fun _ => ⟨rfl, rfl⟩
  rw [syncShellPointerPassthrough_eq]
  refine SameDock.trans (ht.trans (SameDock.trans ?_ sameDock_syncPenStageCapture)) (sameDock_of_eq rfl rfl)
  split_ifs
  · exact (sameDock_release (n := .dockShrinkSrc) (by simp) (by simp)).trans
      (sameDock_connect .dockShrink (by simp) (by simp))
  · exact sameDock_refl

/-! ### The drag -/

/-- Without a drag there is nothing to hold on to. -/
theorem gripped_idle (hdock : ∀ d last, s.dockState = some (d, last) → last = none)
    (hseq : s.books.ids .dockDragSeq = 0) (hsafety : s.books.ids .dockDragSafetySrc = 0) : s.Gripped grip where
  handler d last h := by simp [hdock d last h, hseq]
  safety d last h := by simp [hdock d last h, hsafety]
  follows d p h := absurd (hdock d (some p) h) (by simp)

theorem gripped_of_overlay_none (h : s.overlay = none) : s.Gripped grip := by
  have hdock : s.dockState = none := by rw [dockState, h]; rfl
  refine ⟨fun d last hsome => ?_, fun d last hsome => ?_, fun d p hsome => ?_⟩ <;>
  · rw [hdock] at hsome
    cases hsome

/-- Where the drag is forgotten no position of the pointer is kept. -/
theorem dockState_forget {t : AnnotationsExtension K} {d : ℤ × ℤ} {last : Option (ℤ × ℤ)}
    (h : (t.modifyOverlay fun o => { o with dockDragLast := none }).dockState = some (d, last)) : last = none := by
  unfold dockState modifyOverlay at h
  obtain ⟨o, ho, hpair⟩ := Option.map_eq_some_iff.mp h
  obtain ⟨o', -, rfl⟩ := Option.map_eq_some_iff.mp ho
  exact (Prod.mk.inj hpair).2.symm

theorem gripped_endDrag : s.endDrag.Gripped grip :=
  gripped_idle (fun _ _ h => dockState_forget h) (by simp [endDrag, modifyOverlay, release])
    (by simp [endDrag, modifyOverlay, release])

theorem sameDock_saveDockPos : SameDock s s.saveDockPos := by
  unfold saveDockPos
  split
  · exact sameDock_refl
  · exact sameDock_of_eq rfl rfl

/-- The pointer moves, and the dock with it. -/
theorem gripped_motion (h : s.Gripped grip) (pointer : ℤ × ℤ) :
    (s.modifyOverlay fun o => o.dragTo pointer).Gripped (grip.map fun g => { g with last := pointer }) := by
  cases hoverlay : s.overlay with
  | none => exact gripped_of_overlay_none (by simp [modifyOverlay, hoverlay])
  | some o =>
    have hdock : s.dockState = some (o.dockPos, o.dockDragLast) := by rw [dockState, hoverlay]; rfl
    cases hlast : o.dockDragLast with
    | none =>
      rw [hlast] at hdock
      have hsame : o.dragTo pointer = o := by rw [DockedSession.dragTo, hlast]
      have hkept : (s.modifyOverlay fun o => o.dragTo pointer).dockState = some (o.dockPos, none) := by
        rw [dockState, modifyOverlay, hoverlay, Option.map_some, hsame, Option.map_some, hlast]
      refine ⟨fun d last hsome => ?_, fun d last hsome => ?_, fun d p hsome => ?_⟩
      · exact h.handler d last (hdock.trans (hkept.symm.trans hsome))
      · exact h.safety d last (hdock.trans (hkept.symm.trans hsome))
      · cases hkept.symm.trans hsome
    | some last =>
      rw [hlast] at hdock
      have hmoved : (s.modifyOverlay fun o => o.dragTo pointer).dockState =
          some (o.dockPos + (pointer - last), some pointer) := by
        rw [dockState, modifyOverlay, hoverlay, Option.map_some, DockedSession.dragTo, hlast]
        rfl
      obtain ⟨g, hg, -, hd⟩ := h.follows _ _ hdock
      refine ⟨fun d last' hsome => ?_, fun d last' hsome => ?_, fun d p hsome => ?_⟩
      all_goals
        obtain ⟨rfl, hpointer⟩ := Prod.mk.inj (Option.some.inj (hmoved.symm.trans hsome))
      · have hhandler := h.handler _ _ hdock
        exact hpointer ▸ hhandler
      · have hsafety := h.safety _ _ hdock
        exact hpointer ▸ hsafety
      · obtain rfl := Option.some.inj hpointer
        refine ⟨{ g with last := pointer }, by rw [hg]; rfl, rfl, ?_⟩
        rw [hd]
        abel

/-- A press grips the dock where it is. -/
theorem gripped_onDockDragHandlePress (h : s.Tidy) (hgrip : s.Gripped grip) (primary : Bool) (pointer : ℤ × ℤ) :
    (s.onDockDragHandlePress primary pointer).Gripped (seeGrip grip s (.dragHandlePressed primary pointer)) := by
  unfold onDockDragHandlePress
  cases primary with
  | false => exact hgrip
  | true =>
    dsimp only
    rw [if_neg (by simp)]
    cases hoverlay : s.overlay with
    | none => exact gripped_of_overlay_none (by simp [modifyOverlay, dockExpandIfShrunk, bumpDockActivity, release,
        connect, hoverlay])
    | some o =>
      have hpos : 0 < s.books.next := h.kept.next_pos
      refine ⟨fun d last hsome => ?_, fun d last hsome => ?_, fun d p hsome => ?_⟩
      all_goals
        simp only [dockState, modifyOverlay, dockExpandIfShrunk, bumpDockActivity, release, connect, hoverlay,
          Option.map_some, Option.some.injEq, Prod.mk.injEq] at hsome
        obtain ⟨rfl, rfl⟩ := hsome
      · simp [modifyOverlay, dockExpandIfShrunk, bumpDockActivity, release, connect, IdLedger.release, IdLedger.finish,
          IdLedger.connect]
      · simp [modifyOverlay, dockExpandIfShrunk, bumpDockActivity, release, connect, IdLedger.release, IdLedger.finish,
          IdLedger.connect]
      · refine ⟨⟨o.dockPos, pointer, pointer⟩, by simp [seeGrip, hoverlay], ?_⟩
        simp_all

/-- A callback that is not the drag's leaves the pointer of the drag where it was. -/
theorem seeGrip_callback {id : ℕ} (hother : s.books.callback id ≠ some .dockDragCaptured) (stimulus : Stimulus K) :
    seeGrip grip s (.callback id stimulus) = grip := by
  cases stimulus with
  | motion pointer =>
    unfold seeGrip
    dsimp only
    split
    · next h => exact absurd h hother
    · rfl
  | _ => rfl

theorem gripped_onDockDragCaptured (hgrip : s.Gripped grip) {id : ℕ} (hcallback : s.books.callback id = some .dockDragCaptured)
    (stimulus : Stimulus K) : (s.onDockDragCaptured stimulus).Gripped (seeGrip grip s (.callback id stimulus)) := by
  cases stimulus with
  | buttonRelease => exact gripped_endDrag.of_same sameDock_saveDockPos
  | motion pointer =>
    have hsee : seeGrip grip s (.callback id (.motion pointer)) = grip.map fun g => { g with last := pointer } := by
      unfold seeGrip
      dsimp only
      rw [hcallback]
    rw [hsee]
    exact gripped_motion hgrip pointer
  | _ => exact hgrip

/-! ### Runs -/

theorem gripped_disable (hgrip : s.Gripped grip) : s.disable.Gripped grip := by
  unfold disable
  split_ifs
  · exact hgrip
  · exact gripped_of_overlay_none rfl

variable [Scalar K]

/-- A new dock is not held. -/
theorem gripped_newOverlay : s.newOverlay.Gripped grip := by
  unfold newOverlay
  dsimp only
  refine Gripped.of_same (gripped_idle (fun d last h => ?_) ?_ ?_) sameDock_syncPenStageCapture
  · exact (Prod.mk.inj (Option.some.inj h)).2.symm
  · simp [connect]
  · simp [connect]

theorem gripped_enable (hgrip : s.Gripped grip) : s.enable.Gripped grip := by
  unfold enable
  split_ifs
  · exact hgrip
  · have hnew : ({ s with enabled := true } : AnnotationsExtension K).enableMotion.newOverlay.Gripped grip :=
      gripped_newOverlay
    dsimp only
    refine hnew.of_same (SameDock.trans (sameDock_of_eq rfl rfl)
      (SameDock.trans (sameDock_connect (n := .kbIdle) .keybindingIdle (by simp) (by simp)) ?_))
    exact sameDock_of_eq rfl rfl

variable [FloorRing K]

theorem gripped_run (hgrip : s.Gripped grip) (id : ℕ) (stimulus : Stimulus K) :
    (s.run id stimulus).Gripped (seeGrip grip s (.callback id stimulus)) := by
  by_cases hdrag : s.books.callback id = some .dockDragCaptured
  · unfold run
    rw [hdrag]
    exact gripped_onDockDragCaptured hgrip hdrag stimulus
  rw [seeGrip_callback hdrag]
  unfold run
  cases hcallback : s.books.callback id with
  | none => exact hgrip
  | some k =>
    cases k with
    | keybindingIdle =>
      exact (hgrip.of_same (sameDock_finish (n := .kbIdle) id (by simp) (by simp))).of_same (sameDock_of_eq rfl rfl)
    | dockShrink =>
      exact (hgrip.of_same (sameDock_finish (n := .dockShrinkSrc) id (by simp) (by simp))).of_same
        (sameDock_modifyOverlay fun _ => ⟨rfl, rfl⟩)
    | dockDragSafety =>
      exact gripped_idle (fun _ _ h => dockState_forget h) (by simp [modifyOverlay, release])
        (by simp [modifyOverlay, release, IdLedger.finish])
    | dockDragCaptured => exact absurd hcallback hdrag
    | penCapture target =>
      change (s.onCaptured stimulus).Gripped grip
      unfold onCaptured
      split
      · exact hgrip.of_same (sameDock_modifyOverlay fun _ => ⟨rfl, rfl⟩)
      · exact hgrip
    | monitorsChanged => exact hgrip
    | settingChanged key => exact hgrip.of_same sameDock_restartTimer
    | motionTimer ms => exact hgrip

theorem gripped_step (h : s.Tidy) (hgrip : s.Gripped grip) (i : Input K) : (s.step i).Gripped (seeGrip grip s i) := by
  cases i with
  | enable => exact gripped_enable hgrip
  | disable => exact gripped_disable hgrip
  | toggleDrawingOverlay =>
    change (if s.overlay.isSome = true then s.toggle else s).Gripped grip
    split_ifs
    · exact hgrip.of_same sameDock_toggle
    · exact hgrip
  | dockEntered =>
    change (if s.overlay.isSome = true then s.onDockEntered else s).Gripped grip
    split_ifs
    · exact hgrip.of_same sameDock_onDockEntered
    · exact hgrip
  | dragHandlePressed primary pointer =>
    change (if s.overlay.isSome = true then s.onDockDragHandlePress primary pointer else s).Gripped _
    split_ifs with hsome
    · exact gripped_onDockDragHandlePress h hgrip primary pointer
    · exact gripped_of_overlay_none (by simpa using hsome)
  | canvas i =>
    change (s.canvas i).Gripped grip
    unfold canvas
    split
    · exact hgrip
    · exact hgrip
    · exact hgrip.of_same (sameDock_modifyOverlay fun _ => ⟨rfl, rfl⟩)
  | set change => exact hgrip.of_same (sameDock_changeSetting change)
  | callback id stimulus => exact gripped_run hgrip id stimulus

/-- There is a drag just while its handler is connected, and just while its safety timer is set. The
dock is then where it was gripped, moved by as much as the pointer has moved since. -/
theorem drag_follows_pointer (settings : ExtensionSettings) (fork : Bool) (inputs : List (Input K))
    (o : DockedSession K) :
    let held := Runs.run (watch step seeGrip) (new settings fork, none) inputs
    held.1.overlay = some o →
      (o.dockDragLast.isSome ↔ ∃ id, (id, .dockDragCaptured) ∈ held.1.books.live) ∧
      (o.dockDragLast.isSome ↔ ∃ id, (id, .dockDragSafety) ∈ held.1.books.live) ∧
      (o.dockDragLast.isSome → ∃ grip, held.2 = some grip ∧ o.dockPos = grip.dockPos + (grip.last - grip.pointer)) := by
  intro held hoverlay
  have h : held.1.Tidy ∧ held.1.Gripped held.2 :=
    run_invariant (P := fun p : AnnotationsExtension K × Option Grip => p.1.Tidy ∧ p.1.Gripped p.2)
      (fun p i h => ⟨tidy_step h.1 i, gripped_step h.1 h.2 i⟩)
      ⟨tidy_after settings fork [], gripped_of_overlay_none rfl⟩
  obtain ⟨htidy, hgrip⟩ := h
  have hdock : held.1.dockState = some (o.dockPos, o.dockDragLast) := by rw [dockState, hoverlay]; rfl
  refine ⟨(hgrip.handler _ _ hdock).trans ⟨fun hid => ?_, fun ⟨id, hmem⟩ => ?_⟩,
    (hgrip.safety _ _ hdock).trans ⟨fun hid => ?_, fun ⟨id, hmem⟩ => ?_⟩, fun hlast => ?_⟩
  · obtain ⟨⟨id, k⟩, hmem, -, hname⟩ := htidy.kept.alive .dockDragSeq hid
    cases k with
    | dockDragCaptured => exact ⟨id, hmem⟩
    | _ => cases hname
  · exact htidy.kept.ids_ne_zero hmem
  · obtain ⟨⟨id, k⟩, hmem, -, hname⟩ := htidy.kept.alive .dockDragSafetySrc hid
    cases k with
    | dockDragSafety => exact ⟨id, hmem⟩
    | _ => cases hname
  · exact htidy.kept.ids_ne_zero hmem
  · obtain ⟨pointer, hpointer⟩ := Option.isSome_iff_exists.mp hlast
    obtain ⟨grip, hheld, rfl, hpos⟩ := hgrip.follows _ pointer (hpointer ▸ hdock)
    exact ⟨grip, hheld, hpos⟩

/-- The handle is pressed at (20, 30), and the pointer moves to (27, 25): so does the dock, from (14, 14). -/
theorem drag_follows_pointer_moved :
    let held := Runs.run (watch (step (K := ℚ)) seeGrip) (new ⟨false, false, 1, none⟩ false, none)
      [.enable, .dragHandlePressed true (20, 30), .callback 7 (.motion (27, 25))]
    ∃ o grip, held.1.overlay = some o ∧ held.2 = some grip ∧ grip.last = (27, 25) ∧
      o.dockPos = grip.dockPos + (grip.last - grip.pointer) ∧ o.dockPos = (21, 9) := by
  have hdrag := drag_follows_pointer (K := ℚ) ⟨false, false, 1, none⟩ false
    [.enable, .dragHandlePressed true (20, 30), .callback 7 (.motion (27, 25))] _ rfl
  obtain ⟨grip, hgrip, hpos⟩ := hdrag.2.2 rfl
  obtain rfl := Option.some.inj (hgrip.symm.trans (show _ = some (⟨(14, 14), (20, 30), (27, 25)⟩ : Grip) from rfl))
  exact ⟨_, _, rfl, hgrip, rfl, hpos, rfl⟩

end AnnotationsExtension

end Annotations.Lifecycle
