import Annotations.Lifecycle.Trackers

/-! Which windows are tracked: just those that were recognized as Kate's, when the manager was enabled or later
when they were created, and have been there since. And a run of the manager is one of its trackers in the shell,
whose timers run only when they are set. -/

namespace Annotations.Lifecycle

open Atspi Runs

variable {K : Type} [Scalar K] [FloorRing K]

namespace KateTrackerManager

variable {m m' : KateTrackerManager K} {win w : WindowId}

/-- What a step shows of whether the window should be tracked. -/
def sighting (win : WindowId) (m : KateTrackerManager K) : ManagerOp K → Option Bool
  | .enable atspi seen => if !m.initialized && atspi.starts && m.recognizes seen win then some true else none
  | .windowCreated win' seen => if win' = win && m.initialized && m.recognizes seen win then some true else none
  | .windowUnmanaged win' => if win' = win then some false else none
  | .disable => some false
  | _ => none

omit [FloorRing K] in
theorem isSome_tracker_foldl (wins : List WindowId) :
    ((wins.foldl trackIfNew m).tracker w).isSome = ((m.tracker w).isSome || wins.contains w) := by
  induction wins generalizing m with
  | nil => simp
  | cons win wins ih =>
    rw [List.foldl_cons, ih, tracker_trackIfNew]
    by_cases hw : w = win
    · cases htracker : m.tracker win <;> simp [hw, htracker]
    · simp [hw]

omit [Scalar K] [FloorRing K] in
theorem isSome_of_same (hsame : SameTrackers m.shell.trackers m'.shell.trackers) (win : WindowId) :
    (m'.tracker win).isSome = (m.tracker win).isSome := by
  have hrel : Option.Rel Steady (m.tracker win) (m'.tracker win) := hsame.2 win
  generalize m.tracker win = old at hrel
  generalize m'.tracker win = new at hrel
  cases hrel <;> rfl

omit [Scalar K] [FloorRing K] in
/-- A window that is unmanaged without a handler has no tracker. -/
theorem Orderly.tracker_eq_none_of_not_connected (h : m.Orderly) (hrun : ¬ m.connected (.unmanaged win) = true) :
    m.tracker win = none := by
  rw [h.connected_iff (by simp)] at hrun
  simpa [holds, ManagerCallback.field] using hrun

/-! ### What an operation does to the tracked windows -/

omit [FloorRing K] in
theorem tracked_enable (atspi : AtspiSetup) (seen : Identities) (win : WindowId) :
    ((m.enable atspi seen).tracker win).isSome = (sighting win m (.enable atspi seen)).getD (m.tracker win).isSome := by
  unfold enable sighting
  dsimp only
  by_cases hon : m.initialized
  · simp [hon]
  by_cases hstarts : atspi.starts
  · have hexisting : ((m.trackExisting atspi seen).tracker win).isSome =
        ((m.tracker win).isSome || m.recognizes seen win) := by
      refine (isSome_tracker_foldl (m := { m with atspiRegistered := _ }) _).trans ?_
      congr 1
      rw [Bool.eq_iff_iff, List.contains_iff_mem, List.mem_filter]
      unfold recognizes
      simp
    simp only [hon, hstarts, Bool.false_eq_true, if_false, Bool.not_true, Bool.not_false, Bool.true_and]
    refine Eq.trans hexisting ?_
    cases m.recognizes seen win <;> simp
  · simp [hon, hstarts]

theorem tracker_disable (hidle : m.Idle) (win : WindowId) : m.disable.tracker win = none := by
  unfold disable
  split_ifs with hoff
  · exact tracker_eq_none (hidle (by simpa using hoff)).1
  · refine tracker_eq_none ?_
    simp [Shell.step, Shell.destroyTrackers, Shell.send]

omit [FloorRing K] in
theorem tracked_windowCreated (h : m.Orderly) (win' : WindowId) (seen : Identities) (win : WindowId) :
    ((m.windowCreated win' seen).tracker win).isSome =
      (sighting win m (.windowCreated win' seen)).getD (m.tracker win).isSome := by
  have hon : m.connected .windowCreated = m.initialized := Bool.eq_iff_iff.mpr (h.connected_iff (by simp))
  have hsighting : sighting win m (.windowCreated win' seen) =
      if win' = win && (m.initialized && m.recognizes seen win) then some true else none := by
    simp only [sighting, Bool.and_assoc]
  rw [hsighting, windowCreated, hon]
  cases hrun : m.initialized && m.recognizes seen win' with
  | false =>
    by_cases hw : win' = win
    · simp [← hw, hrun]
    · simp [hw]
  | true =>
    rw [if_pos rfl, tracker_trackIfNew]
    by_cases hw : win' = win
    · simp [← hw, hrun]
    · simp [hw, Ne.symm hw]

theorem tracked_windowUnmanaged (h : m.Orderly) (win' win : WindowId) :
    ((m.windowUnmanaged win').tracker win).isSome =
      (sighting win m (.windowUnmanaged win')).getD (m.tracker win).isSome := by
  unfold windowUnmanaged sighting
  dsimp only
  by_cases hrun : m.connected (.unmanaged win') = true
  · rw [if_pos hrun]
    have hfilter : trackerOf (m.shell.trackers.filter fun entry => !decide (entry.win = win')) win =
        if win = win' then none else m.tracker win := trackerOf_filter
    refine (congrArg Option.isSome hfilter).trans ?_
    by_cases hw : win' = win
    · simp [hw]
    · simp [hw, Ne.symm hw]
  · rw [if_neg hrun]
    by_cases hw : win' = win
    · rw [if_pos hw]
      exact congrArg Option.isSome (hw ▸ h.tracker_eq_none_of_not_connected hrun)
    · rw [if_neg hw]
      rfl

theorem tracked_run (h : m.Orderly) (id : ℕ) (view : View K) (win : WindowId) :
    ((m.run id view).tracker win).isSome = (m.tracker win).isSome := by
  have hshell := sameTrackers_shell (s := m.shell)
  unfold run
  cases hk : m.books.callback id with
  | none => rfl
  | some k =>
    cases k with
    | windowCreated => rfl
    | unmanaged win' => rfl
    | sizeChanged win' => exact isSome_of_same (hshell.2.2.2.1 win' view) win
    | positionChanged win' => exact isSome_of_same (hshell.2.2.2.1 win' view) win
    | poll win' => exact isSome_of_same (hshell.2.2.1 win' view) win
    | retry win' ms =>
      obtain ⟨t, htracker, -⟩ := h.tracker_of_retry hk
      dsimp only
      rw [retry_eq htracker]
      refine (congrArg Option.isSome (trackerOf_retry htracker view)).trans ?_
      split_ifs with hw
      · rw [hw, htracker]
        rfl
      · rfl

/-- A step changes which windows are tracked as it shows. -/
theorem tracked_step (h : m.Orderly) (hidle : m.Idle) (op : ManagerOp K) (win : WindowId) :
    ((m.step op).tracker win).isSome = (sighting win m op).getD (m.tracker win).isSome := by
  have hshell := sameTrackers_shell (s := m.shell)
  cases op with
  | enable atspi seen => exact tracked_enable atspi seen win
  | disable => exact congrArg Option.isSome (tracker_disable hidle win)
  | windowCreated win' seen => exact tracked_windowCreated h win' seen win
  | windowUnmanaged win' => exact tracked_windowUnmanaged h win' win
  | callback id view => exact tracked_run h id view win
  | atspi type source view =>
    change ((m.onAtspiEvent type source view).tracker win).isSome = (m.tracker win).isSome
    unfold onAtspiEvent
    split_ifs
    · cases type with
      | valueChanged => exact isSome_of_same (hshell.2.2.2.2.1 source view) win
      | boundsChanged => exact isSome_of_same (hshell.2.2.2.2.2 source view) win
    · rfl
  | compositor op => exact isSome_of_same (hshell.1 op) win
  | deliver => exact isSome_of_same hshell.2.1 win

/-- A window is tracked just if it was recognized as one of Kate's while the manager was enabled, and it has not
been unmanaged since, nor the manager disabled. -/
theorem tracked_iff_latest (display : MetaDisplay) (input : AnnotationInput K) (width height : ℤ)
    (ops : List (ManagerOp K)) (win : WindowId) :
    ((Runs.run step (start display input width height) ops).tracker win).isSome = true ↔
      Latest step (sighting win) (start display input width height) ops ops.length true := by
  rw [← stateAt_length]
  refine eq_iff_latest (f := fun m : KateTrackerManager K => (m.tracker win).isSome)
    (by simp [start, tracker, trackerOf, Shell.start]) (fun k op _ => ?_) le_rfl
  obtain ⟨h, hidle⟩ := orderly_after display input width height (ops.take k)
  exact tracked_step h hidle op win

/-! ### The trackers in the shell -/

/-- The timer that the operation fires is set. -/
def Due (s : Shell K) : ShellOp K → Prop
  | .retry win _ => (trackerOf s.trackers win).any (·.retryId) = true
  | .poll win _ => (trackerOf s.trackers win).any (·.pollId) = true
  | _ => True

theorem shell_foldl_trackIfNew (wins : List WindowId) (hmanaged : ∀ win ∈ wins, win ∈ m.shell.layer.display.windows) :
    (wins.foldl trackIfNew m).shell = Runs.run Shell.step m.shell (wins.map .windowCreated) ∧
      Along Shell.step Due m.shell (wins.map .windowCreated) := by
  induction wins generalizing m with
  | nil => exact ⟨rfl, trivial⟩
  | cons win wins ih =>
    have hstep : (m.trackIfNew win).shell = m.shell.step (.windowCreated win) := by
      simp only [trackIfNew, Shell.step, Shell.trackIfNew, hmanaged win List.mem_cons_self, if_true]
      split_ifs <;> rfl
    have hlayer : (m.trackIfNew win).shell.layer = m.shell.layer := trackIfNew_spec.2.2
    obtain ⟨hrun, halong⟩ := ih (m := m.trackIfNew win) fun w hw => by
      rw [hlayer]
      exact hmanaged w (List.mem_cons_of_mem _ hw)
    rw [hstep] at hrun halong
    exact ⟨hrun, trivial, halong⟩

/-- The shell gets there by operations of its own, and they fire only timers that are set. -/
def Shells (s s' : Shell K) : Prop :=
  ∃ shellOps, s' = Runs.run Shell.step s shellOps ∧ Along Shell.step Due s shellOps

theorem Shells.refl (s : Shell K) : Shells s s := ⟨[], rfl, trivial⟩

theorem Shells.step {s : Shell K} (op : ShellOp K) (hdue : Due s op) : Shells s (s.step op) := ⟨[op], rfl, hdue, trivial⟩

/-- The shell does nothing more than the compositor does when a window goes that has no tracker. -/
theorem step_windowUnmanaged_of_tracker_eq_none (htracker : m.tracker win = none) :
    m.shell.step (.windowUnmanaged win) =
      { m.shell with layer := m.shell.layer.opStep (.call (.windowUnmanaged win)) } := by
  have hother : ∀ entry ∈ m.shell.trackers, entry.win ≠ win := fun entry hentry hwin => by
    have hany : (m.tracker win).isSome = true := by
      rw [tracker, isSome_trackerOf, List.any_eq_true]
      exact ⟨entry, hentry, decide_eq_true hwin⟩
    rw [htracker] at hany
    cases hany
  have hkept : m.shell.trackers.filter (fun entry => !decide (entry.win = win)) = m.shell.trackers :=
    List.filter_eq_self.mpr fun entry hentry => by simpa using hother entry hentry
  have hgone : m.shell.trackers.filter (fun entry => decide (entry.win = win)) = [] :=
    List.filter_eq_nil_iff.mpr fun entry hentry => by simpa using hother entry hentry
  simp only [Shell.step, Shell.destroyTrackers, Shell.send, hkept, hgone, List.flatMap_nil, List.append_nil]

theorem shells_run (h : m.Orderly) (id : ℕ) (view : View K) : Shells m.shell (m.run id view).shell := by
  unfold run
  cases hk : m.books.callback id with
  | none => exact .refl _
  | some k =>
    cases k with
    | windowCreated => exact .refl _
    | unmanaged win => exact .refl _
    | sizeChanged win => exact .step (.geometryChanged win view) trivial
    | positionChanged win => exact .step (.geometryChanged win view) trivial
    | poll win =>
      have hheld : m.holds (.pollId win) = true :=
        (h.held _).mp (h.kept.ids_ne_zero (IdLedger.mem_of_callback hk))
      exact .step (.poll win view) hheld
    | retry win ms =>
      obtain ⟨t, htracker, hretry⟩ := h.tracker_of_retry hk
      dsimp only
      rw [retry_eq htracker]
      refine .step (.retry win view) ?_
      change (m.tracker win).any (·.retryId) = true
      rw [htracker]
      exact hretry

/-- A step of the manager is some operations of the shell. -/
theorem shells_step (h : m.Orderly) (op : ManagerOp K) : Shells m.shell (m.step op).shell := by
  cases op with
  | enable atspi seen =>
    change Shells m.shell (m.enable atspi seen).shell
    unfold enable
    split_ifs
    · exact .refl _
    · exact .refl _
    · exact ⟨_, shell_foldl_trackIfNew _ fun win hwin => List.mem_of_mem_filter hwin⟩
  | disable =>
    change Shells m.shell m.disable.shell
    unfold disable
    split_ifs
    · exact .refl _
    · exact .step .disable trivial
  | windowCreated win seen =>
    change Shells m.shell (m.windowCreated win seen).shell
    unfold windowCreated
    split_ifs with hrun
    · simp only [recognizes, Bool.and_eq_true, decide_eq_true_eq] at hrun
      exact ⟨_, shell_foldl_trackIfNew [win] (by simpa using hrun.2.1)⟩
    · exact .refl _
  | windowUnmanaged win =>
    change Shells m.shell (m.windowUnmanaged win).shell
    unfold windowUnmanaged
    split_ifs with hrun
    · exact .step (.windowUnmanaged win) trivial
    · have hsame := step_windowUnmanaged_of_tracker_eq_none (h.tracker_eq_none_of_not_connected hrun)
      exact hsame ▸ .step (.windowUnmanaged win) trivial
  | callback id view => exact shells_run h id view
  | atspi type source view =>
    change Shells m.shell (m.onAtspiEvent type source view).shell
    unfold onAtspiEvent
    split_ifs
    · cases type with
      | valueChanged => exact .step (.valueChanged source view) trivial
      | boundsChanged => exact .step (.boundsChanged source view) trivial
    · exact .refl _
  | compositor op => exact .step (.compositor op) trivial
  | deliver => exact .step .deliver trivial

/-- Every run of the manager is a run of the shell with its trackers, in which only timers fire that are set. -/
theorem manager_refines_shell (display : MetaDisplay) (input : AnnotationInput K) (width height : ℤ)
    (ops : List (ManagerOp K)) : ∃ shellOps, (Runs.run step (start display input width height) ops).shell =
      Runs.run Shell.step (.start display input width height) shellOps ∧
        Along Shell.step Due (.start display input width height) shellOps := by
  induction ops using List.reverseRecOn with
  | nil => exact ⟨[], rfl, trivial⟩
  | append_singleton ops op ih =>
    obtain ⟨shellOps, hrun, halong⟩ := ih
    obtain ⟨more, hrun', halong'⟩ := shells_step (orderly_after display input width height ops).1 op
    rw [hrun] at hrun' halong'
    refine ⟨shellOps ++ more, ?_, along_append.mpr ⟨halong, halong'⟩⟩
    rw [run_concat, hrun', run_append]

end KateTrackerManager

end Annotations.Lifecycle
