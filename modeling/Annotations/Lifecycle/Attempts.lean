import Annotations.Lifecycle.Manager

/-! How far a tracker has come with its discovery, and what its callbacks do to that. Only the timer of the
discovery brings it forward, and it does so at most six times. -/

namespace Annotations.Lifecycle

open Atspi Runs IdLedger

variable {K : Type}

/-- The discovery is where it was. A scrollbar may have been found by an event. -/
structure Steady (t t' : KateWindowTracker K) : Prop where
  win : t'.win = t.win
  retryId : t'.retryId = t.retryId
  retryCount : t'.retryCount = t.retryCount
  pollId : t'.pollId = t.pollId
  editor : t'.editor.isSome = t.editor.isSome
  scrollbar : t.scrollbar.isSome → t'.scrollbar.isSome

/-- The poll runs once there is an editor, and attempts are made until there is a scrollbar as well, or the
attempts are used up. -/
structure Progress (win : WindowId) (t : KateWindowTracker K) : Prop where
  win : t.win = some win
  poll : t.pollId = t.editor.isSome
  attempts : t.retryCount ≤ KateWindowTracker.discoveryAttempts
  retry : t.retryId = true → t.retryCount < KateWindowTracker.discoveryAttempts
  done : t.retryId = false →
    t.retryCount = KateWindowTracker.discoveryAttempts ∨ t.editor.isSome = true ∧ t.scrollbar.isSome = true

section Callbacks
variable [Scalar K] [FloorRing K] {t t' : KateWindowTracker K} {view : View K} {minimized : Bool} {win : WindowId}

omit [Scalar K] [FloorRing K] in
theorem steady_refl : Steady t t := ⟨rfl, rfl, rfl, rfl, rfl, id⟩

omit [Scalar K] [FloorRing K] in
theorem Steady.trans {t'' : KateWindowTracker K} (h : Steady t t') (h' : Steady t' t'') : Steady t t'' where
  win := h'.win.trans h.win
  retryId := h'.retryId.trans h.retryId
  retryCount := h'.retryCount.trans h.retryCount
  pollId := h'.pollId.trans h.pollId
  editor := h'.editor.trans h.editor
  scrollbar hsome := h'.scrollbar (h.scrollbar hsome)

omit [Scalar K] [FloorRing K] in
theorem Progress.steady (h : Progress win t) (hsteady : Steady t t') : Progress win t' where
  win := hsteady.win.trans h.win
  poll := by rw [hsteady.pollId, hsteady.editor, h.poll]
  attempts := hsteady.retryCount ▸ h.attempts
  retry hon := hsteady.retryCount ▸ h.retry (hsteady.retryId.symm.trans hon)
  done hoff := by
    rw [hsteady.retryCount, hsteady.editor]
    exact (h.done (hsteady.retryId.symm.trans hoff)).imp_right fun hfound => ⟨hfound.1, hsteady.scrollbar hfound.2⟩

omit [Scalar K] [FloorRing K] in
theorem steady_republishRegion : Steady t (t.republishRegion view minimized).1 := by
  obtain ⟨sig, hregion⟩ := t.republishRegion_eq view minimized
  rw [hregion]
  exact ⟨rfl, rfl, rfl, rfl, rfl, id⟩

omit [FloorRing K] in
theorem steady_captureBaseline : Steady t (t.captureBaseline view) := by
  rw [KateWindowTracker.captureBaseline_eq]
  exact ⟨rfl, rfl, rfl, rfl, rfl, id⟩

theorem steady_republishScroll : Steady t (t.republishScroll view).1 := by
  cases heditor : t.editor with
  | none =>
    rw [KateWindowTracker.republishScroll_of_no_editor heditor]
    exact steady_refl
  | some editor =>
    rw [KateWindowTracker.republishScroll_eq (by rw [heditor]; rfl), KateWindowTracker.calibrate_eq]
    exact ⟨rfl, rfl, rfl, rfl, rfl, id⟩

omit [FloorRing K] in
theorem steady_pollScroll (h : t.pollScroll view = some t') : Steady t t' := by
  unfold KateWindowTracker.pollScroll at h
  split_ifs at h
  split at h
  · cases h
  next cur hcur =>
    have hread : Steady t { t with pollLastSbVal := some cur } := ⟨rfl, rfl, rfl, rfl, rfl, id⟩
    split_ifs at h
    obtain rfl := Option.some.inj h
    split_ifs
    · exact hread.trans steady_captureBaseline
    · exact hread

omit [Scalar K] [FloorRing K] in
theorem steady_valueChangedScroll {source : Accessible} (h : t.valueChangedScroll view source = some t') :
    Steady t t' := by
  unfold KateWindowTracker.valueChangedScroll at h
  split_ifs at h
  · obtain rfl := Option.some.inj h
    exact steady_refl
  · split at h
    · split_ifs at h
      obtain rfl := Option.some.inj h
      exact ⟨rfl, rfl, rfl, rfl, rfl, fun _ => rfl⟩
    · cases h

omit [FloorRing K] in
theorem steady_boundsChangedScroll {source : Accessible} (h : t.boundsChangedScroll view source = some t') :
    Steady t t' := by
  unfold KateWindowTracker.boundsChangedScroll at h
  split_ifs at h
  · obtain rfl := Option.some.inj h
    exact steady_captureBaseline
  · obtain rfl := Option.some.inj h
    exact steady_refl

theorem steady_handleValueChangedSource {source : Accessible} {result : KateWindowTracker K × List (Call K)}
    (h : t.handleValueChangedSource view source = some result) : Steady t result.1 := by
  obtain ⟨t', hscroll, rfl⟩ := Option.map_eq_some_iff.mp h
  exact (steady_valueChangedScroll hscroll).trans steady_republishScroll

theorem steady_handleBoundsChangedSource {source : Accessible} {result : KateWindowTracker K × List (Call K)}
    (h : t.handleBoundsChangedSource view source minimized = some result) : Steady t result.1 := by
  unfold KateWindowTracker.handleBoundsChangedSource at h
  split_ifs at h
  · obtain rfl := Option.some.inj h
    have hforget : Steady t { t with lastRegionSig := none } := ⟨rfl, rfl, rfl, rfl, rfl, id⟩
    exact hforget.trans steady_republishRegion
  · obtain ⟨t', hscroll, rfl⟩ := Option.map_eq_some_iff.mp h
    exact (steady_boundsChangedScroll hscroll).trans steady_republishScroll

theorem steady_poll : Steady t (t.handle (.poll view)).1 := by
  change Steady t (((t.pollScroll view).map fun t => t.republishScroll view).getD (t, [])).1
  cases hscroll : t.pollScroll view with
  | none => exact steady_refl
  | some t' => exact (steady_pollScroll hscroll).trans steady_republishScroll

/-! ### An attempt -/

/-- What an attempt makes of the discovery. -/
structure Attempted (t t' : KateWindowTracker K) : Prop where
  win : t'.win = t.win
  retryCount : t'.retryCount = t.retryCount + 1
  poll : t.pollId = t.editor.isSome → t'.pollId = t'.editor.isSome
  keeps : t.pollId = true → t'.pollId = true
  retryId : t'.retryId =
    !(t'.editor.isSome && t'.scrollbar.isSome || t'.retryCount ≥ KateWindowTracker.discoveryAttempts)

/-- The tree is walked, and the poll started if there is an editor. -/
theorem tryDiscover_spec (view : View K) (minimized : Bool) : let t' := (t.tryDiscover view minimized).1
    t'.win = t.win ∧ t'.retryCount = t.retryCount ∧
      (t.pollId = t.editor.isSome → t'.pollId = t'.editor.isSome) ∧ (t.pollId = true → t'.pollId = true) := by
  dsimp only
  unfold KateWindowTracker.tryDiscover
  cases view.discover t.pid with
  | none => exact ⟨rfl, rfl, id, id⟩
  | some found =>
    dsimp only
    cases heditor : (t.locate found).editor with
    | none =>
      have hold : t.editor = none := by
        cases hfound : found.editor <;> simp_all [KateWindowTracker.locate]
      exact ⟨rfl, rfl, fun hpoll => by rw [heditor]; exact hpoll.trans (by rw [hold]), id⟩
    | some editor =>
      have hread : Steady (t.locate found) (((t.locate found).captureBaseline view).republishRegion view minimized).1 :=
        steady_captureBaseline.trans steady_republishRegion
      have hsteady : Steady (t.locate found) ((((t.locate found).captureBaseline view).republishRegion view
          minimized).1.republishScroll view).1 := hread.trans steady_republishScroll
      refine ⟨hsteady.win, hsteady.retryCount, fun _ => ?_, fun _ => rfl⟩
      exact (hsteady.editor.trans (by rw [heditor]; rfl)).symm

theorem attempted (hretry : t.retryId = true) (hwin : t.win = some win) :
    Attempted t (t.handle (.retry view minimized)).1 := by
  let off : KateWindowTracker K := { t with retryId := false }
  obtain ⟨hsame, hcount, hpoll, hkeeps⟩ := tryDiscover_spec (t := off) view minimized
  have hhandle : (t.handle (.retry view minimized)).1 =
      let t' := { (off.tryDiscover view minimized).1 with retryCount := (off.tryDiscover view minimized).1.retryCount + 1 }
      { t' with retryId := !(t'.editor.isSome && t'.scrollbar.isSome ||
        t'.retryCount ≥ KateWindowTracker.discoveryAttempts) } := by
    change (t.retryDiscovery view minimized).1 = _
    unfold KateWindowTracker.retryDiscovery
    rw [if_neg (by simp [hretry])]
    dsimp only
    split
    · exact absurd (hwin.symm.trans ‹_›) (by simp)
    · rfl
  rw [hhandle]
  exact ⟨hsame, congrArg (· + 1) hcount, hpoll, hkeeps, rfl⟩

omit [Scalar K] [FloorRing K] in
theorem Progress.attempted (h : Progress win t) (hretry : t.retryId = true) (hattempted : Attempted t t') :
    Progress win t' where
  win := hattempted.win.trans h.win
  poll := hattempted.poll h.poll
  attempts := by
    rw [hattempted.retryCount]
    exact h.retry hretry
  retry hon := by
    rw [hattempted.retryId] at hon
    simp only [Bool.not_eq_true', Bool.or_eq_false_iff, decide_eq_false_iff_not, not_le] at hon
    exact hon.2
  done hoff := by
    rw [hattempted.retryId] at hoff
    simp only [Bool.not_eq_false', Bool.or_eq_true, decide_eq_true_eq, Bool.and_eq_true] at hoff
    rcases hoff with hfound | hexhausted
    · exact .inr hfound
    · refine .inl (le_antisymm ?_ hexhausted)
      rw [hattempted.retryCount]
      exact h.retry hretry

omit [FloorRing K] in
theorem progress_new (win : WindowId) (pid : ℕ) : Progress win (.new win pid : KateWindowTracker K) where
  win := rfl
  poll := rfl
  attempts := Nat.zero_le _
  retry _ := Nat.succ_pos _
  done := nofun

end Callbacks

/-! ### Stored trackers -/

section Entries
variable {entries entries' : List (Tracked K)} {win w : WindowId} {t : KateWindowTracker K}

theorem isSome_trackerOf : (trackerOf entries win).isSome = entries.any fun entry => entry.win = win := by
  unfold trackerOf
  rw [Option.isSome_map, Bool.eq_iff_iff, List.find?_isSome, List.any_eq_true]

theorem trackerOf_eq_none_of_not_mem (h : ∀ entry ∈ entries, entry.win ≠ win) : trackerOf entries win = none := by
  have hnone : entries.find? (fun entry => entry.win = win) = none :=
    List.find?_eq_none.mpr fun entry hentry => by simpa using h entry hentry
  rw [trackerOf, hnone, Option.map_none]

theorem trackerOf_concat (published : Bool) : trackerOf (entries ++ [⟨win, t, published⟩]) w =
    (trackerOf entries w).or (if win = w then some t else none) := by
  unfold trackerOf
  rw [List.find?_append]
  cases entries.find? fun entry => entry.win = w with
  | some entry => rfl
  | none => by_cases hw : win = w <;> simp [hw]

theorem trackerOf_filter : trackerOf (entries.filter fun entry => !decide (entry.win = win)) w =
    if w = win then none else trackerOf entries w := by
  split_ifs with hw
  · exact trackerOf_eq_none_of_not_mem fun entry hentry => by
      simpa [hw] using (List.mem_filter.mp hentry).2
  · unfold trackerOf
    rw [List.find?_filter]
    congr 2
    funext entry
    by_cases hentry : entry.win = w
    · simp [hentry, hw]
    · simp [hentry]

theorem trackerOf_wake (callback : KateWindowTracker K → KateWindowTracker K × List (Call K)) :
    trackerOf (Shell.wake win callback entries).1 w =
      if w = win then (trackerOf entries w).map fun t => (callback t).1 else trackerOf entries w := by
  induction entries with
  | nil => simp [Shell.wake, trackerOf]
  | cons entry entries ih =>
    unfold trackerOf at ih ⊢
    unfold Shell.wake
    by_cases hentry : entry.win = win
    · by_cases hw : w = win
      · simp [hentry, hw, Tracked.update]
      · have hne : ¬ win = w := fun h => hw h.symm
        simpa [hentry, hw, hne, Tracked.update] using ih
    · by_cases hw : entry.win = w
      · have hne : ¬ w = win := fun h => hentry (hw.trans h)
        simp [hw, hne]
      · simpa [hentry, hw] using ih

theorem wins_wake (callback : KateWindowTracker K → KateWindowTracker K × List (Call K)) :
    (Shell.wake win callback entries).1.map (·.win) = entries.map (·.win) := by
  induction entries with
  | nil => rfl
  | cons entry entries ih =>
    unfold Shell.wake
    dsimp only
    split_ifs <;> simp [ih, Tracked.update]

/-- The entries are those of the same windows, and their trackers have come as far as before. -/
def SameTrackers (entries entries' : List (Tracked K)) : Prop :=
  entries'.map (·.win) = entries.map (·.win) ∧
    ∀ w, Option.Rel Steady (trackerOf entries w) (trackerOf entries' w)

theorem sameTrackers_refl : SameTrackers entries entries := by
  refine ⟨rfl, fun w => ?_⟩
  cases trackerOf entries w with
  | none => exact .none
  | some t => exact .some steady_refl

theorem SameTrackers.cons {entry entry' : Tracked K} (h : SameTrackers entries entries') (hwin : entry'.win = entry.win)
    (hsteady : Steady entry.tracker entry'.tracker) : SameTrackers (entry :: entries) (entry' :: entries') := by
  refine ⟨by simp [h.1, hwin], fun w => ?_⟩
  have hrest := h.2 w
  unfold trackerOf at hrest ⊢
  by_cases hw : entry.win = w
  · simpa [hw, hwin] using hsteady
  · simpa [hw, hwin] using hrest

theorem sameTrackers_wake {callback : KateWindowTracker K → KateWindowTracker K × List (Call K)}
    (hsteady : ∀ t, Steady t (callback t).1) : SameTrackers entries (Shell.wake win callback entries).1 := by
  induction entries with
  | nil => exact sameTrackers_refl
  | cons entry entries ih =>
    unfold Shell.wake
    dsimp only
    split_ifs
    · exact ih.cons rfl (hsteady entry.tracker)
    · exact ih.cons rfl steady_refl

theorem sameTrackers_dispatch {sourcePid : ℤ} {handler : Tracked K → Option (KateWindowTracker K × List (Call K))}
    (hsteady : ∀ entry result, handler entry = some result → Steady entry.tracker result.1) :
    SameTrackers entries (Shell.dispatch sourcePid handler entries).1 := by
  induction entries with
  | nil => exact sameTrackers_refl
  | cons entry entries ih =>
    unfold Shell.dispatch
    dsimp only
    split_ifs
    · exact ih.cons rfl steady_refl
    · cases hhandled : handler entry with
      | some result => exact sameTrackers_refl.cons rfl (hsteady entry result hhandled)
      | none => exact ih.cons rfl steady_refl

end Entries

end Annotations.Lifecycle
