import Annotations.Lifecycle.Attempts

/-! What the manager and its trackers leave connected. At any moment just the callbacks are connected that
the manager still needs, each once, and a manager that is disabled needs none. -/

namespace Annotations.Lifecycle

open Atspi Runs

variable {K : Type}

/-! ### Books -/

/-- The window of a field. -/
def ManagerField.window : ManagerField → Option WindowId
  | .displayWindowCreatedId => none
  | .sizeId win => some win
  | .posId win => some win
  | .unmId win => some win
  | .retryId win => some win
  | .pollId win => some win

namespace ManagerBooks

abbrev Kept (books : ManagerBooks) : Prop := IdLedger.Kept ManagerCallback.field books

variable {books : ManagerBooks} {win : WindowId} {n : ManagerField}

theorem kept_scheduleDiscovery (h : books.Kept) (retryCount : ℕ) :
    (books.scheduleDiscovery win retryCount).Kept := h.replace rfl

theorem ids_scheduleDiscovery {retryCount : ℕ} : (books.scheduleDiscovery win retryCount).ids n =
    if n = .retryId win then books.next else books.ids n := by
  unfold scheduleDiscovery
  by_cases hn : n = .retryId win
  · simp [hn, IdLedger.release, IdLedger.finish]
  · simp [hn]

theorem kept_newTracker (h : books.Kept) (hnone : ∀ n, n.window = some win → books.ids n = 0) :
    (books.newTracker win).Kept := by
  unfold newTracker
  refine kept_scheduleDiscovery ?_ 0
  have h1 := h.reset (n := .sizeId win) (hnone _ rfl)
  have h2 := h1.reset (n := .posId win) (by simp [hnone (.posId win) rfl])
  have h3 := h2.reset (n := .unmId win) (by simp [hnone (.unmId win) rfl])
  have h4 := h3.reset (n := .retryId win) (by simp [hnone (.retryId win) rfl])
  have h5 := h4.reset (n := .pollId win) (by simp [hnone (.pollId win) rfl])
  have hsize := h5.connect (k := .sizeChanged win) (n := .sizeId win) rfl (by simp)
  have hpos := hsize.connect (k := .positionChanged win) (n := .posId win) rfl (by simp)
  exact hpos.connect (k := .unmanaged win) (n := .unmId win) rfl (by simp)

/-- A new tracker has all but a poll. -/
theorem ids_newTracker (h : books.Kept) :
    (books.newTracker win).ids n ≠ 0 ↔ if n.window = some win then n ≠ .pollId win else books.ids n ≠ 0 := by
  have hpos := h.next_pos
  unfold newTracker
  rw [ids_scheduleDiscovery]
  cases n with
  | displayWindowCreatedId => simp [ManagerField.window]
  | retryId w =>
    by_cases hw : w = win
    · simp [hw, ManagerField.window, IdLedger.connect, IdLedger.reset]
    · simp [hw, ManagerField.window]
  | _ w =>
    by_cases hw : w = win
    · simp [hw, ManagerField.window, IdLedger.connect, IdLedger.reset, hpos.ne']
    · simp [hw, ManagerField.window]

theorem kept_destroy (h : books.Kept) (win : WindowId) : (books.destroy win).Kept :=
  ((((h.release _).release _).release _).release _).release _

theorem ids_destroy : (books.destroy win).ids n = if n.window = some win then 0 else books.ids n := by
  unfold destroy
  cases n with
  | displayWindowCreatedId => simp [ManagerField.window]
  | _ w =>
    by_cases hw : w = win
    · simp [hw, ManagerField.window]
    · simp [hw, ManagerField.window]

theorem kept_foldl_destroy (wins : List WindowId) (h : books.Kept) : (wins.foldl destroy books).Kept := by
  induction wins generalizing books with
  | nil => exact h
  | cons win wins ih => exact ih (kept_destroy h win)

theorem ids_foldl_destroy (wins : List WindowId) : (wins.foldl destroy books).ids n =
    if n.window.any (· ∈ wins) then 0 else books.ids n := by
  induction wins generalizing books with
  | nil => cases n.window <;> simp
  | cons win wins ih =>
    rw [List.foldl_cons, ih, ids_destroy]
    cases hn : n.window with
    | none => simp
    | some w => by_cases hw : w = win <;> simp [hw]

/-! What is connected after an update was before, or is new. -/

theorem mem_live_scheduleDiscovery {retryCount : ℕ} {e : ℕ × ManagerCallback}
    (he : e ∈ (books.scheduleDiscovery win retryCount).live) :
    e ∈ books.live ∨ e.2 = .retry win (discoveryDelay retryCount) := by
  rcases List.mem_cons.mp he with rfl | he
  · exact .inr rfl
  · exact .inl (IdLedger.mem_release.mp he).1

theorem mem_live_newTracker {e : ℕ × ManagerCallback} (he : e ∈ (books.newTracker win).live) :
    e ∈ books.live ∨ e.2 = .retry win (discoveryDelay 0) ∨ ∀ win ms, e.2 ≠ .retry win ms := by
  rcases mem_live_scheduleDiscovery he with he | hretry
  · rcases List.mem_cons.mp he with rfl | he
    · exact .inr (.inr nofun)
    rcases List.mem_cons.mp he with rfl | he
    · exact .inr (.inr nofun)
    rcases List.mem_cons.mp he with rfl | he
    · exact .inr (.inr nofun)
    exact .inl he
  · exact .inr (.inl hretry)

theorem mem_live_destroy {e : ℕ × ManagerCallback} (he : e ∈ (books.destroy win).live) : e ∈ books.live := by
  unfold destroy at he
  simp only [IdLedger.mem_release] at he
  exact he.1.1.1.1.1

end ManagerBooks

/-! ### Order -/

namespace KateTrackerManager

section
variable (m : KateTrackerManager K)

/-- The field should hold the id of a callback. -/
def holds : ManagerField → Bool
  | .displayWindowCreatedId => m.initialized
  | .sizeId win => (m.tracker win).isSome
  | .posId win => (m.tracker win).isSome
  | .unmId win => (m.tracker win).isSome
  | .retryId win => (m.tracker win).any (·.retryId)
  | .pollId win => (m.tracker win).any (·.pollId)

/-- The books are kept, and their fields hold what they should. -/
structure Orderly : Prop where
  kept : m.books.Kept
  held : ∀ n, m.books.ids n ≠ 0 ↔ m.holds n = true
  delay : ∀ id win ms, (id, .retry win ms) ∈ m.books.live →
    ∃ t, m.tracker win = some t ∧ ms = discoveryDelay t.retryCount
  progress : ∀ win t, m.tracker win = some t → Progress win t
  nodup : (m.shell.trackers.map (·.win)).Nodup

/-- A manager that is not enabled has nothing. -/
def Idle : Prop := m.initialized = false → m.shell.trackers = [] ∧ m.atspiRegistered = none

end

variable {m m' : KateTrackerManager K} {win w : WindowId} {t : KateWindowTracker K} {n : ManagerField}

theorem tracker_eq_none (h : m.shell.trackers = []) : m.tracker win = none := by
  rw [tracker, h]
  rfl

/-- The fields of a window without a tracker are empty. -/
theorem Orderly.ids_eq_zero (h : m.Orderly) (hnone : m.tracker win = none) (hn : n.window = some win) :
    m.books.ids n = 0 := by
  by_contra hid
  have hheld := (h.held n).mp hid
  cases n with
  | displayWindowCreatedId => cases hn
  | _ w =>
    obtain rfl := Option.some.inj hn
    simp [holds, hnone] at hheld

/-- Callbacks that bring no discovery forward. -/
theorem Orderly.of_same (h : m.Orderly) (hbooks : m'.books = m.books) (hinitialized : m'.initialized = m.initialized)
    (hsame : SameTrackers m.shell.trackers m'.shell.trackers) : m'.Orderly where
  kept := hbooks ▸ h.kept
  held n := by
    have hholds : m'.holds n = m.holds n := by
      cases n with
      | displayWindowCreatedId => exact hinitialized
      | _ win =>
        have hrel : Option.Rel Steady (m.tracker win) (m'.tracker win) := hsame.2 win
        generalize hold : m.tracker win = old at hrel
        generalize hnew : m'.tracker win = new at hrel
        cases hrel with
        | none => simp [holds, hold, hnew]
        | some hsteady => simp [holds, hold, hnew, hsteady.retryId, hsteady.pollId]
    rw [hbooks, hholds, h.held n]
  delay id win ms hmem := by
    obtain ⟨t, ht, hms⟩ := h.delay id win ms (hbooks ▸ hmem)
    have hrel : Option.Rel Steady (m.tracker win) (m'.tracker win) := hsame.2 win
    rw [ht] at hrel
    generalize hnew : m'.tracker win = new at hrel
    cases hrel with
    | some hsteady => exact ⟨_, rfl, by rw [hms, hsteady.retryCount]⟩
  progress win t' ht' := by
    have hrel : Option.Rel Steady (m.tracker win) (m'.tracker win) := hsame.2 win
    rw [ht'] at hrel
    generalize hold : m.tracker win = old at hrel
    cases hrel with
    | some hsteady => exact (h.progress win _ hold).steady hsteady
  nodup := by
    rw [hsame.1]
    exact h.nodup

theorem Idle.of_same (h : m.Idle) (hinitialized : m'.initialized = m.initialized)
    (hregistered : m'.atspiRegistered = m.atspiRegistered)
    (hsame : SameTrackers m.shell.trackers m'.shell.trackers) : m'.Idle := by
  intro hoff
  obtain ⟨htrackers, hnone⟩ := h (hinitialized.symm.trans hoff)
  have hwins := hsame.1
  rw [htrackers] at hwins
  exact ⟨List.map_eq_nil_iff.mp hwins, hregistered.trans hnone⟩

variable [Scalar K] [FloorRing K]

/-! ### Windows come and go -/

omit [FloorRing K] in
theorem trackIfNew_of_some (h : (m.tracker win).isSome) : m.trackIfNew win = m := by
  unfold trackIfNew
  rw [← isSome_trackerOf]
  exact if_pos h

omit [FloorRing K] in
theorem trackIfNew_of_none (h : m.tracker win = none) : m.trackIfNew win =
    { m with
      shell := { m.shell with
        trackers := m.shell.trackers ++ [⟨win, .new win (m.shell.layer.display.window win).pid, false⟩] }
      books := m.books.newTracker win } := by
  have hany : (m.shell.trackers.any fun entry => entry.win = win) = false := by
    rw [← isSome_trackerOf]
    exact Option.isSome_eq_false_iff.mpr (Option.isNone_iff_eq_none.mpr h)
  unfold trackIfNew Shell.trackIfNew
  rw [hany]
  rfl

omit [FloorRing K] in
/-- Every window has a tracker of its own. -/
theorem tracker_trackIfNew : (m.trackIfNew win).tracker w =
    if w = win then (m.tracker win).or (some (.new win (m.shell.layer.display.window win).pid)) else m.tracker w := by
  cases htracker : m.tracker win with
  | some t =>
    rw [trackIfNew_of_some (by rw [htracker]; rfl)]
    split_ifs with hw
    · rw [hw, htracker, Option.some_or]
    · rfl
  | none =>
    rw [trackIfNew_of_none htracker, tracker, trackerOf_concat, ← tracker]
    by_cases hw : w = win
    · simp [hw, htracker]
    · simp [hw, Ne.symm hw]

omit [FloorRing K] in
theorem orderly_trackIfNew (h : m.Orderly) (win : WindowId) : (m.trackIfNew win).Orderly := by
  cases htracker : m.tracker win with
  | some t => rwa [trackIfNew_of_some (by rw [htracker]; rfl)]
  | none =>
    have hnone : ∀ n, n.window = some win → m.books.ids n = 0 := fun n => h.ids_eq_zero htracker
    have htrackers : ∀ w, (m.trackIfNew win).tracker w =
        if w = win then some (.new win (m.shell.layer.display.window win).pid) else m.tracker w := by
      intro w
      rw [tracker_trackIfNew, htracker, Option.none_or]
    have hbooks : (m.trackIfNew win).books = m.books.newTracker win := by rw [trackIfNew_of_none htracker]
    have hinitialized : (m.trackIfNew win).initialized = m.initialized := by rw [trackIfNew_of_none htracker]
    have hwins : (m.trackIfNew win).shell.trackers.map (·.win) = m.shell.trackers.map (·.win) ++ [win] := by
      rw [trackIfNew_of_none htracker, List.map_append]
      rfl
    refine ⟨hbooks ▸ ManagerBooks.kept_newTracker h.kept hnone, fun n => ?_, fun id w ms hmem => ?_, fun w t ht => ?_, ?_⟩
    · rw [hbooks, ManagerBooks.ids_newTracker h.kept]
      cases n with
      | displayWindowCreatedId => simpa [ManagerField.window, holds, hinitialized] using h.held .displayWindowCreatedId
      | _ w =>
        by_cases hw : w = win
        · simp [ManagerField.window, holds, htrackers, hw, KateWindowTracker.new]
        · simpa [ManagerField.window, holds, htrackers, hw] using h.held _
    · rw [htrackers]
      rcases ManagerBooks.mem_live_newTracker (hbooks ▸ hmem) with hold | hnew | hother
      · have hne : w ≠ win := by
          rintro rfl
          have hid := h.kept.ids_ne_zero hold
          exact hid (hnone _ rfl)
        rw [if_neg hne]
        exact h.delay id w ms hold
      · obtain ⟨rfl, rfl⟩ := ManagerCallback.retry.inj hnew
        exact ⟨_, if_pos rfl, rfl⟩
      · exact absurd rfl (hother w ms)
    · rw [htrackers] at ht
      split_ifs at ht with hw
      · obtain rfl := Option.some.inj ht
        exact hw ▸ progress_new win _
      · exact h.progress w t ht
    · rw [hwins]
      refine h.nodup.append (List.nodup_singleton win) (List.disjoint_singleton.mpr fun hmem => ?_)
      obtain ⟨entry, hentry, hwin⟩ := List.mem_map.mp hmem
      have hsome : (m.tracker win).isSome := by
        rw [tracker, isSome_trackerOf, List.any_eq_true]
        exact ⟨entry, hentry, by simpa using hwin⟩
      rw [htracker] at hsome
      cases hsome

omit [FloorRing K] in
theorem trackIfNew_spec : (m.trackIfNew win).initialized = m.initialized ∧
    (m.trackIfNew win).atspiRegistered = m.atspiRegistered ∧ (m.trackIfNew win).shell.layer = m.shell.layer := by
  unfold trackIfNew Shell.trackIfNew
  split_ifs <;> exact ⟨rfl, rfl, rfl⟩

omit [Scalar K] [FloorRing K] in
/-- The tracker of a window is destroyed, and forgotten. -/
theorem orderly_destroy (h : m.Orderly) (hbooks : m'.books = m.books.destroy win)
    (hinitialized : m'.initialized = m.initialized)
    (htrackers : m'.shell.trackers = m.shell.trackers.filter fun entry => !decide (entry.win = win)) : m'.Orderly := by
  have htracker : ∀ w, m'.tracker w = if w = win then none else m.tracker w := fun w => by
    rw [tracker, htrackers, trackerOf_filter, ← tracker]
  refine ⟨hbooks ▸ ManagerBooks.kept_destroy h.kept win, fun n => ?_, fun id w ms hmem => ?_, fun w t ht => ?_, ?_⟩
  · rw [hbooks, ManagerBooks.ids_destroy]
    cases n with
    | displayWindowCreatedId => simpa [ManagerField.window, holds, hinitialized] using h.held .displayWindowCreatedId
    | _ w =>
      by_cases hw : w = win
      · simp [ManagerField.window, holds, htracker, hw]
      · simpa [ManagerField.window, holds, htracker, hw] using h.held _
  · have hne : w ≠ win := by
      rintro rfl
      have hid := (ManagerBooks.kept_destroy h.kept w).ids_ne_zero (hbooks ▸ hmem)
      exact hid (by rw [ManagerBooks.ids_destroy]; exact if_pos rfl)
    rw [htracker, if_neg hne]
    exact h.delay id w ms (ManagerBooks.mem_live_destroy (hbooks ▸ hmem))
  · rw [htracker] at ht
    split_ifs at ht
    exact h.progress w t ht
  · rw [htrackers]
    exact h.nodup.sublist (List.filter_sublist.map _)

omit [FloorRing K] in
theorem orderly_foldl_trackIfNew (h : m.Orderly) (wins : List WindowId) : (wins.foldl trackIfNew m).Orderly ∧
    (wins.foldl trackIfNew m).initialized = m.initialized := by
  induction wins generalizing m with
  | nil => exact ⟨h, rfl⟩
  | cons win wins ih =>
    obtain ⟨horderly, hinitialized⟩ := ih (orderly_trackIfNew h win)
    exact ⟨horderly, hinitialized.trans trackIfNew_spec.1⟩

omit [Scalar K] [FloorRing K] in
/-- A callback is connected if its field holds an id, or it is a timer of another delay. -/
theorem Orderly.connected_iff (h : m.Orderly) {k : ManagerCallback} (hk : ∀ win ms, k ≠ .retry win ms) :
    m.connected k = true ↔ m.holds k.field = true := by
  rw [← h.held]
  unfold connected
  rw [List.any_eq_true]
  constructor
  · rintro ⟨⟨id, k'⟩, he, hk'⟩
    obtain rfl : k' = k := by simpa using hk'
    exact h.kept.ids_ne_zero he
  · intro hid
    obtain ⟨⟨id, k'⟩, he, -, hfield⟩ := h.kept.alive _ hid
    refine ⟨_, he, decide_eq_true ?_⟩
    cases k with
    | retry win ms => exact absurd rfl (hk win ms)
    | _ => cases k' <;> simp_all [ManagerCallback.field]

omit [FloorRing K] in
theorem orderly_trackExisting (h : m.Orderly) (atspi : AtspiSetup) (seen : Identities) :
    (m.trackExisting atspi seen).Orderly ∧ (m.trackExisting atspi seen).initialized = m.initialized :=
  orderly_foldl_trackIfNew (m := { m with atspiRegistered := some (AtspiEvent.all.filter atspi.registers) })
    ⟨h.kept, h.held, h.delay, h.progress, h.nodup⟩ _

omit [FloorRing K] in
theorem orderly_enable (h : m.Orderly) (hidle : m.Idle) (atspi : AtspiSetup) (seen : Identities) :
    (m.enable atspi seen).Orderly ∧ (m.enable atspi seen).Idle := by
  unfold enable
  split_ifs with hon
  · exact ⟨h, hidle⟩
  · exact ⟨h, hidle⟩
  dsimp only
  obtain ⟨htracking, hinitialized⟩ := orderly_trackExisting h atspi seen
  generalize m.trackExisting atspi seen = tracking at htracking hinitialized
  have hfree : tracking.books.ids .displayWindowCreatedId = 0 := by
    by_contra hid
    exact hon (hinitialized.symm.trans ((htracking.held _).mp hid))
  have hkept := htracking.kept.connect (k := .windowCreated) (n := .displayWindowCreatedId) rfl hfree
  refine ⟨⟨hkept, fun n => ?_, fun id win ms hmem => ?_, htracking.progress, htracking.nodup⟩, nofun⟩
  · rw [IdLedger.ids_connect]
    split_ifs with hn
    · rw [hn]
      simpa [holds] using htracking.kept.next_pos.ne'
    · rw [htracking.held n]
      cases n with
      | displayWindowCreatedId => exact absurd rfl hn
      | _ win => rfl
  · rcases List.mem_cons.mp hmem with heq | hmem
    · cases heq
    · exact htracking.delay id win ms hmem

theorem orderly_disable (h : m.Orderly) (hidle : m.Idle) : m.disable.Orderly ∧ m.disable.Idle := by
  unfold disable
  split_ifs
  · exact ⟨h, hidle⟩
  have hempty : (m.shell.step .disable).trackers = [] := by simp [Shell.step, Shell.destroyTrackers, Shell.send]
  have hids : ∀ n, ((m.shell.trackers.map (·.win)).foldl ManagerBooks.destroy
      (m.books.release .displayWindowCreatedId)).ids n = 0 := by
    intro n
    rw [ManagerBooks.ids_foldl_destroy]
    split_ifs with htracked
    · rfl
    · cases n with
      | displayWindowCreatedId => simp
      | _ win =>
        rw [IdLedger.ids_release, if_neg (by simp)]
        have hnone : m.tracker win = none := trackerOf_eq_none_of_not_mem fun entry hentry hwin =>
          htracked (decide_eq_true (List.mem_map.mpr ⟨entry, hentry, hwin⟩))
        exact h.ids_eq_zero hnone rfl
  have hkept := ManagerBooks.kept_foldl_destroy (m.shell.trackers.map (·.win)) (h.kept.release .displayWindowCreatedId)
  generalize hdisabled : (KateTrackerManager.mk (m.shell.step .disable) .. : KateTrackerManager K) = disabled
  have hnone : ∀ win, disabled.tracker win = none := fun win => by
    rw [← hdisabled]
    exact tracker_eq_none hempty
  have hbooks : disabled.books.Kept := by rw [← hdisabled]; exact hkept
  have hzero : ∀ n, disabled.books.ids n = 0 := by rw [← hdisabled]; exact hids
  have hoff : disabled.initialized = false := by rw [← hdisabled]
  refine ⟨⟨hbooks, fun n => ?_, fun id win ms hmem => ?_, fun win t ht => ?_, ?_⟩, fun _ => ?_⟩
  · rw [hzero n]
    cases n with
    | displayWindowCreatedId => simp [holds, hoff]
    | _ win => simp [holds, hnone]
  · exact absurd (hzero _) (hbooks.ids_ne_zero hmem)
  · rw [hnone] at ht
    cases ht
  · rw [← hdisabled]
    exact hempty ▸ List.nodup_nil
  · rw [← hdisabled]
    exact ⟨hempty, rfl⟩

theorem orderly_windowUnmanaged (h : m.Orderly) (hidle : m.Idle) (win : WindowId) :
    (m.windowUnmanaged win).Orderly ∧ (m.windowUnmanaged win).Idle := by
  unfold windowUnmanaged
  split_ifs
  · have htrackers : (m.shell.step (.windowUnmanaged win)).trackers =
        m.shell.trackers.filter fun entry => !decide (entry.win = win) := rfl
    refine ⟨orderly_destroy h rfl rfl htrackers, fun hoff => ?_⟩
    obtain ⟨hempty, hnone⟩ := hidle hoff
    refine ⟨?_, hnone⟩
    change (m.shell.step (.windowUnmanaged win)).trackers = []
    rw [htrackers, hempty]
    rfl
  · exact ⟨h.of_same rfl rfl sameTrackers_refl, hidle.of_same rfl rfl sameTrackers_refl⟩

omit [FloorRing K] in
theorem orderly_windowCreated (h : m.Orderly) (hidle : m.Idle) (win : WindowId) (seen : Identities) :
    (m.windowCreated win seen).Orderly ∧ (m.windowCreated win seen).Idle := by
  unfold windowCreated
  split_ifs with hrun
  · have hon : m.initialized = true := by
      rw [Bool.and_eq_true] at hrun
      exact (h.connected_iff (by simp)).mp hrun.1
    refine ⟨orderly_trackIfNew h win, fun hoff => ?_⟩
    rw [trackIfNew_spec.1, hon] at hoff
    cases hoff
  · exact ⟨h, hidle⟩

/-! ### Attempts -/

omit [Scalar K] [FloorRing K] in
/-- A timer that fires finds its tracker waiting for it. -/
theorem Orderly.tracker_of_retry (h : m.Orderly) {id ms : ℕ} (hk : m.books.callback id = some (.retry win ms)) :
    ∃ t, m.tracker win = some t ∧ t.retryId = true := by
  have hid : m.books.ids (.retryId win) ≠ 0 := h.kept.ids_ne_zero (IdLedger.mem_of_callback hk)
  have hheld := (h.held _).mp hid
  cases htracker : m.tracker win with
  | none => simp [holds, htracker] at hheld
  | some t => exact ⟨t, rfl, by simpa [holds, htracker] using hheld⟩

omit [Scalar K] [FloorRing K] in
/-- The poll is started if there should be one. -/
theorem startPoll_spec {books : ManagerBooks} (h : books.Kept) (hpoll : books.ids (.pollId win) ≠ 0 → t.pollId = true) :
    (books.startPoll win t).Kept ∧
      (∀ n, (books.startPoll win t).ids n ≠ 0 ↔ if n = .pollId win then t.pollId = true else books.ids n ≠ 0) ∧
      ∀ e ∈ (books.startPoll win t).live, e ∈ books.live ∨ e.2 = .poll win := by
  unfold ManagerBooks.startPoll
  split_ifs with hstart
  · simp only [Bool.and_eq_true, decide_eq_true_eq] at hstart
    refine ⟨h.connect (k := .poll win) (n := .pollId win) rfl hstart.2, fun n => ?_, fun e he => ?_⟩
    · rw [IdLedger.ids_connect]
      split_ifs
      · simpa [hstart.1] using h.next_pos.ne'
      · exact Iff.rfl
    · rcases List.mem_cons.mp he with rfl | he
      · exact .inr rfl
      · exact .inl he
  · refine ⟨h, fun n => ?_, fun e he => .inl he⟩
    split_ifs with hn
    · rw [hn]
      refine ⟨hpoll, fun hon hzero => hstart ?_⟩
      simp [hon, hzero]
    · exact Iff.rfl

omit [Scalar K] [FloorRing K] in
/-- An attempt leaves the poll, and a timer if there is to be another attempt. -/
theorem afterAttempt_spec {books : ManagerBooks} (h : books.Kept) (hretry : books.ids (.retryId win) = 0)
    (hpoll : books.ids (.pollId win) ≠ 0 → t.pollId = true) : (books.afterAttempt win t).Kept ∧
      (∀ n, (books.afterAttempt win t).ids n ≠ 0 ↔ if n = .retryId win then t.retryId = true
        else if n = .pollId win then t.pollId = true else books.ids n ≠ 0) ∧
      ∀ e ∈ (books.afterAttempt win t).live,
        e ∈ books.live ∨ e.2 = .poll win ∨ e.2 = .retry win (discoveryDelay t.retryCount) := by
  obtain ⟨hkept, hids, hlive⟩ := startPoll_spec h hpoll
  unfold ManagerBooks.afterAttempt
  split_ifs with hnext
  · refine ⟨ManagerBooks.kept_scheduleDiscovery hkept _, fun n => ?_, fun e he => ?_⟩
    · rw [ManagerBooks.ids_scheduleDiscovery]
      by_cases hn : n = .retryId win
      · rw [if_pos hn, if_pos hn]
        exact iff_of_true hkept.next_pos.ne' hnext
      · rw [if_neg hn, if_neg hn]
        exact hids n
    · rcases ManagerBooks.mem_live_scheduleDiscovery he with he | he
      · exact (hlive e he).imp_right .inl
      · exact .inr (.inr he)
  · refine ⟨hkept, fun n => ?_, fun e he => (hlive e he).imp_right .inl⟩
    rw [hids n]
    by_cases hn : n = .retryId win
    · simp [hn, hretry, hnext]
    · rw [if_neg hn]

/-- The tracker that an attempt has changed. -/
theorem trackerOf_retry (htracker : m.tracker win = some t) (view : View K) :
    trackerOf (m.shell.step (.retry win view)).trackers w =
      if w = win then some (t.handle (.retry view (m.shell.minimized win))).1 else m.tracker w := by
  change trackerOf (Shell.wake win (fun t => t.handle (.retry view (m.shell.minimized win))) m.shell.trackers).1 w = _
  rw [trackerOf_wake]
  split_ifs with hw
  · rw [hw, ← tracker, htracker, Option.map_some]
  · rfl

theorem retry_eq (htracker : m.tracker win = some t) (id : ℕ) (view : View K) : m.retry win id view =
    { m with
      shell := m.shell.step (.retry win view)
      books := ManagerBooks.afterAttempt (m.books.finish (.retryId win) id) win
        (t.handle (.retry view (m.shell.minimized win))).1 } := by
  have hself := trackerOf_retry (w := win) htracker view
  rw [if_pos rfl] at hself
  unfold retry tracker
  dsimp only
  rw [hself]

theorem orderly_retry (h : m.Orderly) {id ms : ℕ} (hk : m.books.callback id = some (.retry win ms)) (view : View K) :
    (m.retry win id view).Orderly := by
  obtain ⟨t, htracker, hretry⟩ := h.tracker_of_retry hk
  have hprogress := h.progress win t htracker
  have hattempted : Attempted t (t.handle (.retry view (m.shell.minimized win))).1 := attempted hretry hprogress.win
  have htrackers : ∀ w, trackerOf (m.shell.step (.retry win view)).trackers w = _ := fun w => trackerOf_retry htracker view
  rw [retry_eq htracker]
  generalize (t.handle (.retry view (m.shell.minimized win))).1 = t' at hattempted htrackers
  have hfinished : ManagerBooks.Kept (m.books.finish (.retryId win) id) := h.kept.finish hk rfl
  have hretryId : (m.books.finish (.retryId win) id).ids (.retryId win) = 0 := Function.update_self ..
  have hids : ∀ n, n ≠ .retryId win → (m.books.finish (.retryId win) id).ids n = m.books.ids n :=
    fun n hn => Function.update_of_ne hn ..
  have hpoll : (m.books.finish (.retryId win) id).ids (.pollId win) ≠ 0 → t'.pollId = true := fun hid => by
    rw [hids _ (by simp)] at hid
    have hheld := (h.held _).mp hid
    exact hattempted.keeps (by simpa [holds, htracker] using hheld)
  obtain ⟨hkept, hheld, hlive⟩ := afterAttempt_spec hfinished hretryId hpoll
  generalize hafter : (KateTrackerManager.mk (m.shell.step (.retry win view)) m.initialized .. :
    KateTrackerManager K) = m'
  have hbooks : m'.books = ManagerBooks.afterAttempt (m.books.finish (.retryId win) id) win t' := by rw [← hafter]
  have hinitialized : m'.initialized = m.initialized := by rw [← hafter]
  have htracker' : ∀ w, m'.tracker w = if w = win then some t' else m.tracker w := by
    rw [← hafter]
    exact htrackers
  refine ⟨hbooks ▸ hkept, fun n => ?_, fun id' w ms' hmem => ?_, fun w u hu => ?_, ?_⟩
  · rw [hbooks, hheld]
    by_cases hr : n = .retryId win
    · simp [hr, holds, htracker']
    by_cases hp : n = .pollId win
    · simp [hp, holds, htracker']
    rw [if_neg hr, if_neg hp, hids n hr, h.held n]
    cases n with
    | displayWindowCreatedId => simp [holds, hinitialized]
    | retryId w => simp [holds, htracker', show w ≠ win from fun hw => hr (hw ▸ rfl)]
    | pollId w => simp [holds, htracker', show w ≠ win from fun hw => hp (hw ▸ rfl)]
    | _ w => by_cases hw : w = win <;> simp [holds, htracker', hw, htracker]
  · rw [htracker']
    rw [hbooks] at hmem
    rcases hlive _ hmem with hold | hpoll' | hnext
    · obtain ⟨hlived, hne⟩ : (id', ManagerCallback.retry w ms') ∈ m.books.live ∧ id' ≠ id := by
        simpa [IdLedger.finish] using hold
      have hw : w ≠ win := by
        rintro rfl
        have howned : m.books.ids (.retryId w) = id' := h.kept.owned _ hlived
        exact hne (howned.symm.trans (h.kept.ids_of_callback hk))
      rw [if_neg hw]
      exact h.delay id' w ms' hlived
    · cases hpoll'
    · obtain ⟨rfl, rfl⟩ := ManagerCallback.retry.inj hnext
      exact ⟨_, if_pos rfl, rfl⟩
  · rw [htracker'] at hu
    split_ifs at hu with hw
    · obtain rfl := Option.some.inj hu
      exact hw ▸ hprogress.attempted hretry hattempted
    · exact h.progress w u hu
  · rw [← hafter]
    change ((Shell.wake win _ m.shell.trackers).1.map (·.win)).Nodup
    rw [wins_wake]
    exact h.nodup

/-! ### Runs -/

/-- What the shell does with its trackers, but for an attempt and for windows that come and go. -/
theorem sameTrackers_shell {s : Shell K} : (∀ op, SameTrackers s.trackers (s.step (.compositor op)).trackers) ∧
    SameTrackers s.trackers (s.step .deliver).trackers ∧
    (∀ win view, SameTrackers s.trackers (s.step (.poll win view)).trackers) ∧
    (∀ win view, SameTrackers s.trackers (s.step (.geometryChanged win view)).trackers) ∧
    (∀ source view, SameTrackers s.trackers (s.step (.valueChanged source view)).trackers) ∧
    ∀ source view, SameTrackers s.trackers (s.step (.boundsChanged source view)).trackers := by
  have hatspi : ∀ sourcePid handler,
      (∀ (entry : Tracked K) result, handler entry = some result → Steady entry.tracker result.1) →
        SameTrackers s.trackers (s.onAtspiEvent sourcePid handler).trackers := by
    intro sourcePid handler hsteady
    unfold Shell.onAtspiEvent
    split_ifs
    · exact sameTrackers_refl
    · exact sameTrackers_dispatch hsteady
  refine ⟨fun op => ?_, ?_, fun win view => ?_, fun win view => ?_, fun source view => ?_, fun source view => ?_⟩
  · simp only [Shell.step]
    split_ifs <;> exact sameTrackers_refl
  · simp only [Shell.step]
    split <;> exact sameTrackers_refl
  · exact sameTrackers_wake fun t => steady_poll
  · exact sameTrackers_wake fun t => steady_republishRegion
  · exact hatspi _ _ fun entry result hhandled => steady_handleValueChangedSource hhandled
  · exact hatspi _ _ fun entry result hhandled => steady_handleBoundsChangedSource hhandled

theorem orderly_run (h : m.Orderly) (hidle : m.Idle) (id : ℕ) (view : View K) :
    (m.run id view).Orderly ∧ (m.run id view).Idle := by
  have hgeometry : ∀ win, SameTrackers m.shell.trackers (m.shell.step (.geometryChanged win view)).trackers :=
    fun win => sameTrackers_shell.2.2.2.1 win view
  unfold run
  cases hk : m.books.callback id with
  | none => exact ⟨h, hidle⟩
  | some k =>
    cases k with
    | windowCreated => exact ⟨h, hidle⟩
    | unmanaged win => exact ⟨h, hidle⟩
    | sizeChanged win => exact ⟨h.of_same rfl rfl (hgeometry win), hidle.of_same rfl rfl (hgeometry win)⟩
    | positionChanged win => exact ⟨h.of_same rfl rfl (hgeometry win), hidle.of_same rfl rfl (hgeometry win)⟩
    | retry win ms =>
      refine ⟨orderly_retry h hk view, fun hoff => ?_⟩
      obtain ⟨t, htracker, -⟩ := h.tracker_of_retry hk
      dsimp only at hoff
      rw [retry_eq htracker] at hoff
      have hnone : m.tracker win = none := tracker_eq_none (hidle hoff).1
      exact absurd (htracker.symm.trans hnone) (by simp)
    | poll win =>
      have hpoll : SameTrackers m.shell.trackers (m.shell.step (.poll win view)).trackers :=
        sameTrackers_shell.2.2.1 win view
      exact ⟨h.of_same rfl rfl hpoll, hidle.of_same rfl rfl hpoll⟩

theorem orderly_step (h : m.Orderly ∧ m.Idle) (op : ManagerOp K) : (m.step op).Orderly ∧ (m.step op).Idle := by
  obtain ⟨h, hidle⟩ := h
  have hshell := sameTrackers_shell (s := m.shell)
  cases op with
  | enable atspi seen => exact orderly_enable h hidle atspi seen
  | disable => exact orderly_disable h hidle
  | windowCreated win seen => exact orderly_windowCreated h hidle win seen
  | windowUnmanaged win => exact orderly_windowUnmanaged h hidle win
  | callback id view => exact orderly_run h hidle id view
  | atspi type source view =>
    unfold step onAtspiEvent
    dsimp only
    split_ifs
    · cases type with
      | valueChanged =>
        have hsame := hshell.2.2.2.2.1 source view
        exact ⟨h.of_same rfl rfl hsame, hidle.of_same rfl rfl hsame⟩
      | boundsChanged =>
        have hsame := hshell.2.2.2.2.2 source view
        exact ⟨h.of_same rfl rfl hsame, hidle.of_same rfl rfl hsame⟩
    · exact ⟨h, hidle⟩
  | compositor op => exact ⟨h.of_same rfl rfl (hshell.1 op), hidle.of_same rfl rfl (hshell.1 op)⟩
  | deliver => exact ⟨h.of_same rfl rfl hshell.2.1, hidle.of_same rfl rfl hshell.2.1⟩

omit [FloorRing K] in
theorem orderly_start (display : MetaDisplay) (input : AnnotationInput K) (width height : ℤ) :
    (start display input width height).Orderly where
  kept := IdLedger.kept_empty
  held n := by cases n <;> simp [start, IdLedger.empty, holds, tracker, trackerOf, Shell.start]
  delay _ _ _ hmem := absurd hmem List.not_mem_nil
  progress _ _ ht := by cases ht
  nodup := List.nodup_nil

theorem orderly_after (display : MetaDisplay) (input : AnnotationInput K) (width height : ℤ) (ops : List (ManagerOp K)) :
    (Runs.run step (start display input width height) ops).Orderly ∧
      (Runs.run step (start display input width height) ops).Idle :=
  run_invariant (P := fun m : KateTrackerManager K => m.Orderly ∧ m.Idle) (fun _ op h => orderly_step h op)
    ⟨orderly_start display input width height, fun _ => ⟨rfl, rfl⟩⟩

section
variable (m : KateTrackerManager K)

/-- The callback is needed: the handler for new windows by a manager that is enabled, those of a window by its
tracker, the poll by a tracker with an editor, and the timer by one that has not found everything and has
attempts left. -/
def needs : ManagerCallback → Bool
  | .windowCreated => m.initialized
  | .sizeChanged win => (m.tracker win).isSome
  | .positionChanged win => (m.tracker win).isSome
  | .unmanaged win => (m.tracker win).isSome
  | .poll win => (m.tracker win).any (·.editor.isSome)
  | .retry win ms => (m.tracker win).any fun t => t.retryId && ms = discoveryDelay t.retryCount

end

omit [Scalar K] [FloorRing K] in
theorem Orderly.connected_iff_needs (h : m.Orderly) (k : ManagerCallback) : m.connected k = true ↔ m.needs k = true := by
  cases k with
  | retry win ms =>
    constructor
    · intro hconnected
      obtain ⟨⟨id, k⟩, he, hk⟩ := List.any_eq_true.mp hconnected
      obtain rfl : k = .retry win ms := by simpa using hk
      obtain ⟨t, htracker, hms⟩ := h.delay id win ms he
      have hheld := (h.held (.retryId win)).mp (h.kept.ids_ne_zero he)
      simp only [holds, htracker, Option.any_some] at hheld
      simp [needs, htracker, hheld, hms]
    · intro hneeds
      cases htracker : m.tracker win with
      | none => simp [needs, htracker] at hneeds
      | some t =>
        obtain ⟨hretry, rfl⟩ : t.retryId = true ∧ ms = discoveryDelay t.retryCount := by
          simpa [needs, htracker] using hneeds
        have hheld : m.holds (.retryId win) = true := by simp [holds, htracker, hretry]
        obtain ⟨⟨id, k⟩, he, -, hfield⟩ := h.kept.alive _ ((h.held _).mpr hheld)
        refine List.any_eq_true.mpr ⟨_, he, decide_eq_true ?_⟩
        cases k with
        | retry win' ms' =>
          obtain rfl := ManagerField.retryId.inj hfield
          obtain ⟨t', htracker', rfl⟩ := h.delay id win' ms' he
          obtain rfl := Option.some.inj (htracker.symm.trans htracker')
          rfl
        | _ => cases hfield
  | poll win =>
    rw [h.connected_iff (by simp)]
    cases htracker : m.tracker win with
    | none => simp [holds, needs, ManagerCallback.field, htracker]
    | some t => simp [holds, needs, ManagerCallback.field, htracker, (h.progress win t htracker).poll]
  | _ => exact h.connected_iff (by simp)

/-! ### Attempts of a run -/

/-- The timer of an attempt for the window runs. -/
def attempts (m : KateTrackerManager K) (win : WindowId) : ManagerOp K → Bool
  | .callback id _ => (m.books.callback id).any fun k => k.field = .retryId win
  | _ => false

/-- How often the tracker of a window has tried, by the timers that have run since it is there. -/
def seeAttempts (counts : WindowId → ℕ) (m : KateTrackerManager K) (op : ManagerOp K) (win : WindowId) : ℕ :=
  if (m.tracker win).isNone then 0 else if m.attempts win op then counts win + 1 else counts win

/-- A tracker that is there after an operation is new, or has tried once more if its timer ran. -/
def Counts (attempt : Bool) (old new : Option (KateWindowTracker K)) : Prop :=
  ∀ t' ∈ new, (old = none ∧ t'.retryCount = 0) ∨
    ∃ t, old = some t ∧ t'.retryCount = t.retryCount + if attempt then 1 else 0

omit [Scalar K] [FloorRing K] in
theorem counts_refl {old : Option (KateWindowTracker K)} : Counts false old old :=
  fun t' ht' => .inr ⟨t', ht', rfl⟩

omit [Scalar K] [FloorRing K] in
theorem counts_of_same (hsame : SameTrackers m.shell.trackers m'.shell.trackers) (win : WindowId) :
    Counts false (m.tracker win) (m'.tracker win) := by
  intro t' ht'
  have hrel : Option.Rel Steady (m.tracker win) (m'.tracker win) := hsame.2 win
  rw [Option.mem_def.mp ht'] at hrel
  generalize hold : m.tracker win = old at hrel
  cases hrel with
  | some hsteady => exact .inr ⟨_, rfl, hsteady.retryCount⟩

omit [FloorRing K] in
theorem counts_trackIfNew (win w : WindowId) : Counts false (m.tracker w) ((m.trackIfNew win).tracker w) := by
  rw [tracker_trackIfNew]
  by_cases hw : w = win
  · cases htracker : m.tracker win with
    | none =>
      intro t' ht'
      rw [if_pos hw, Option.none_or] at ht'
      obtain rfl := Option.some.inj ht'
      exact .inl ⟨hw ▸ htracker, rfl⟩
    | some t =>
      rw [if_pos hw, Option.some_or, hw, htracker]
      exact counts_refl
  · rw [if_neg hw]
    exact counts_refl

omit [FloorRing K] in
theorem counts_foldl_trackIfNew (wins : List WindowId) (w : WindowId) :
    Counts false (m.tracker w) ((wins.foldl trackIfNew m).tracker w) := by
  induction wins generalizing m with
  | nil => exact counts_refl
  | cons win wins ih =>
    intro t' ht'
    rcases ih t' ht' with ⟨hnone, hzero⟩ | ⟨t, ht, hcount⟩
    · have hold : m.tracker w = none := by
        rw [tracker_trackIfNew] at hnone
        split_ifs at hnone with hw
        · simp at hnone
        · exact hnone
      exact .inl ⟨hold, hzero⟩
    · rcases counts_trackIfNew win w t ht with ⟨hold, hzero⟩ | ⟨t₀, ht₀, hcount₀⟩
      · exact .inl ⟨hold, hcount.trans hzero⟩
      · exact .inr ⟨t₀, ht₀, hcount.trans hcount₀⟩

theorem counts_run (h : m.Orderly) (id : ℕ) (view : View K) (w : WindowId) :
    Counts (m.attempts w (.callback id view)) (m.tracker w) ((m.run id view).tracker w) := by
  have hgeometry : ∀ win, SameTrackers m.shell.trackers (m.shell.step (.geometryChanged win view)).trackers :=
    fun win => sameTrackers_shell.2.2.2.1 win view
  unfold run attempts
  dsimp only
  cases hk : m.books.callback id with
  | none => exact counts_refl
  | some k =>
    cases k with
    | windowCreated => exact counts_refl
    | unmanaged win => exact counts_refl
    | sizeChanged win => exact counts_of_same (hgeometry win) w
    | positionChanged win => exact counts_of_same (hgeometry win) w
    | poll win => exact counts_of_same (sameTrackers_shell.2.2.1 win view) w
    | retry win ms =>
      obtain ⟨t, htracker, hretry⟩ := h.tracker_of_retry hk
      have hattempted : Attempted t (t.handle (.retry view (m.shell.minimized win))).1 :=
        attempted hretry (h.progress win t htracker).win
      intro t' ht'
      dsimp only at ht'
      rw [retry_eq htracker] at ht'
      have hself := trackerOf_retry (w := w) htracker view
      have hmem : trackerOf (m.shell.step (.retry win view)).trackers w = some t' := ht'
      rw [hself] at hmem
      by_cases hw : w = win
      · rw [if_pos hw] at hmem
        obtain rfl := Option.some.inj hmem
        refine .inr ⟨t, hw ▸ htracker, ?_⟩
        simpa [ManagerCallback.field, hw] using hattempted.retryCount
      · rw [if_neg hw] at hmem
        refine .inr ⟨t', hmem, ?_⟩
        simp [ManagerCallback.field, Ne.symm hw]

theorem counts_step (h : m.Orderly) (op : ManagerOp K) (w : WindowId) :
    Counts (m.attempts w op) (m.tracker w) ((m.step op).tracker w) := by
  have hshell := sameTrackers_shell (s := m.shell)
  have hgone : ∀ {m' : KateTrackerManager K}, m'.tracker w = none → Counts false (m.tracker w) (m'.tracker w) :=
    fun hnone t' ht' => by
      rw [hnone] at ht'
      cases ht'
  cases op with
  | enable atspi seen =>
    change Counts false (m.tracker w) ((m.enable atspi seen).tracker w)
    unfold enable
    split_ifs
    · exact counts_refl
    · exact counts_refl
    · exact counts_foldl_trackIfNew (m := { m with atspiRegistered := some (AtspiEvent.all.filter atspi.registers) }) _ w
  | disable =>
    change Counts false (m.tracker w) (m.disable.tracker w)
    unfold disable
    split_ifs
    · exact counts_refl
    · exact hgone (tracker_eq_none (by simp [Shell.step, Shell.destroyTrackers, Shell.send]))
  | windowCreated win seen =>
    change Counts false (m.tracker w) ((m.windowCreated win seen).tracker w)
    unfold windowCreated
    split_ifs
    · exact counts_trackIfNew win w
    · exact counts_refl
  | windowUnmanaged win =>
    change Counts false (m.tracker w) ((m.windowUnmanaged win).tracker w)
    unfold windowUnmanaged
    split_ifs
    · have hleft : trackerOf (m.shell.step (.windowUnmanaged win)).trackers w =
          if w = win then none else trackerOf m.shell.trackers w := trackerOf_filter
      by_cases hw : w = win
      · exact hgone (hleft.trans (if_pos hw))
      · intro t' ht'
        exact .inr ⟨t', (hleft.trans (if_neg hw)).symm.trans ht', rfl⟩
    · exact counts_refl
  | callback id view => exact counts_run h id view w
  | atspi type source view =>
    change Counts false (m.tracker w) ((m.onAtspiEvent type source view).tracker w)
    unfold onAtspiEvent
    split_ifs
    · cases type with
      | valueChanged => exact counts_of_same (hshell.2.2.2.2.1 source view) w
      | boundsChanged => exact counts_of_same (hshell.2.2.2.2.2 source view) w
    · exact counts_refl
  | compositor op => exact counts_of_same (hshell.1 op) w
  | deliver => exact counts_of_same hshell.2.1 w

/-- The count of the timers is that of the tracker. -/
def Counted (m : KateTrackerManager K) (counts : WindowId → ℕ) : Prop :=
  ∀ win t, m.tracker win = some t → counts win = t.retryCount

theorem counted_step {counts : WindowId → ℕ} (h : m.Orderly) (hcounted : m.Counted counts) (op : ManagerOp K) :
    (m.step op).Counted (m.seeAttempts counts op) := by
  intro win t' ht'
  unfold seeAttempts
  rcases counts_step h op win t' ht' with ⟨hnone, hzero⟩ | ⟨t, ht, hcount⟩
  · rw [hnone, hzero]
    rfl
  · rw [ht, hcount, ← hcounted win t ht]
    split_ifs <;> simp_all

theorem counted_after (display : MetaDisplay) (input : AnnotationInput K) (width height : ℤ) (ops : List (ManagerOp K)) :
    (Runs.run step (start display input width height) ops).Counted
      (Runs.run (watch step seeAttempts) (start display input width height, fun _ => 0) ops).2 := by
  let Both (p : KateTrackerManager K × (WindowId → ℕ)) : Prop := (p.1.Orderly ∧ p.1.Idle) ∧ p.1.Counted p.2
  have hrun : Both (Runs.run (watch step seeAttempts) (start display input width height, fun _ => 0) ops) :=
    run_invariant (fun p op h => ⟨orderly_step h.1 op, counted_step h.1.1 h.2 op⟩)
      ⟨orderly_after display input width height [], fun win t ht => by cases ht⟩
  unfold Both at hrun
  rw [run_watch_fst] at hrun
  exact hrun.2

/-- Whatever happens to windows, timers and accessibility, just the callbacks are connected that are needed,
one for each field; a manager that is not enabled has none, no listener and no trackers. A window has one tracker
at most, for which the timer of an attempt runs six times at most, and before that it gives up only when it has
found editor and scrollbar. -/
theorem connected_iff_needed (display : MetaDisplay) (input : AnnotationInput K) (width height : ℤ)
    (ops : List (ManagerOp K)) :
    let m := Runs.run step (start display input width height) ops
    let counts := (Runs.run (watch step seeAttempts)
      (start display input width height, fun _ => 0) ops).2
    (∀ k, m.connected k = true ↔ m.needs k = true) ∧
      (∀ e ∈ m.books.live, ∀ e' ∈ m.books.live, e.2.field = e'.2.field → e = e') ∧
      (m.initialized = false → m.books.live = [] ∧ m.atspiRegistered = none ∧ m.shell.trackers = []) ∧
      (m.shell.trackers.map (·.win)).Nodup ∧
      ∀ win t, m.tracker win = some t → counts win = t.retryCount ∧
        counts win ≤ KateWindowTracker.discoveryAttempts ∧
        (t.retryId = false → counts win = KateWindowTracker.discoveryAttempts ∨
          t.editor.isSome = true ∧ t.scrollbar.isSome = true) := by
  dsimp only
  obtain ⟨h, hidle⟩ := orderly_after display input width height ops
  have hcounted := counted_after display input width height ops
  generalize Runs.run step (start display input width height) ops = m at h hidle hcounted
  refine ⟨h.connected_iff_needs, fun e he e' he' => h.kept.name_unique he he', fun hoff => ?_, h.nodup,
    fun win t ht => ?_⟩
  · obtain ⟨hempty, hnone⟩ := hidle hoff
    refine ⟨h.kept.live_eq_nil fun n => ?_, hnone, hempty⟩
    by_contra hid
    have hheld := (h.held n).mp hid
    cases n with
    | displayWindowCreatedId => exact absurd (hoff.symm.trans hheld) (by simp)
    | _ win => simp [holds, tracker_eq_none hempty] at hheld
  · have hcount := hcounted win t ht
    rw [hcount]
    exact ⟨rfl, (h.progress win t ht).attempts, (h.progress win t ht).done⟩

end KateTrackerManager

end Annotations.Lifecycle
