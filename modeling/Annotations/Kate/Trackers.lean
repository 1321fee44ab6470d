import Annotations.Delivery.Seat
import Annotations.Kate.Returning

/-! The trackers of the shell, the compositor, and the bus between them. A tracker belongs
to one window, and what it sends is addressed to the process of the window. The bus
delivers in the order of sending. -/

namespace Annotations

open Atspi Runs

variable {K : Type} [Scalar K] [FloorRing K]

/-- An entry of `_trackers`. That the tracker has published a region is remembered for the
statements only. -/
structure Tracked (K : Type) where
  win : WindowId
  tracker : KateWindowTracker K
  published : Bool

/-- What a call does to the region of a process: `true` sets one and `false` clears it. -/
def regionOf (pid : ℕ) : Call K → Option Bool
  | .setWindowEditorRegion pid' _ _ w h => if pid' = pid then some (0 < w && 0 < h) else none
  | _ => none

/-- The calls of a tracker that publish something. -/
def Publishes : Call K → Prop
  | .setWindowEditorRegion _ _ _ w h => 0 < w ∧ 0 < h
  | .setWindowScroll .. => True
  | _ => False

namespace Tracked

variable (entry : Tracked K)

omit [Scalar K] [FloorRing K] in
/-- The entry after a callback of its tracker. -/
def update (result : KateWindowTracker K × List (Call K)) : Tracked K where
  win := entry.win
  tracker := result.1
  published := entry.published || result.2.any fun c => (regionOf entry.tracker.pid c).isSome

end Tracked

/-- `KateTrackerManager` and the layer, with the calls that are under way. -/
structure Shell (K : Type) where
  layer : MetaAnnotationLayer K
  trackers : List (Tracked K)
  bus : List (Call K)

/-- What happens to them. -/
inductive ShellOp (K : Type) where
  | compositor (op : Op K)
  | deliver
  | windowCreated (win : WindowId)
  | windowUnmanaged (win : WindowId)
  | retry (win : WindowId) (view : View K)
  | poll (win : WindowId) (view : View K)
  | geometryChanged (win : WindowId) (view : View K)
  | valueChanged (source : Accessible) (view : View K)
  | boundsChanged (source : Accessible) (view : View K)
  | disable

/-- The operations of the compositor that do not come over the bus, and do not end a
window. -/
def Op.local : Op K → Bool
  | .call (.setWindowEditorRegion ..) => false
  | .call (.setWindowScroll ..) => false
  | .call (.windowUnmanaged _) => false
  | _ => true

namespace Shell

/-- A callback of the tracker of one window. -/
def wake (win : WindowId) (callback : KateWindowTracker K → KateWindowTracker K × List (Call K)) :
    List (Tracked K) → List (Tracked K) × List (Call K)
  | [] => ([], [])
  | entry :: entries =>
    let rest := wake win callback entries
    if entry.win = win then
      let result := callback entry.tracker
      (entry.update result :: rest.1, result.2 ++ rest.2)
    else (entry :: rest.1, rest.2)

/-- The loop of `_onAtspiEvent`: the first tracker of the process that takes the event
ends it. -/
def dispatch (sourcePid : ℤ) (handler : Tracked K → Option (KateWindowTracker K × List (Call K))) :
    List (Tracked K) → List (Tracked K) × List (Call K)
  | [] => ([], [])
  | entry :: entries =>
    let rest := dispatch sourcePid handler entries
    if (entry.tracker.pid : ℤ) ≠ sourcePid then (entry :: rest.1, rest.2)
    else
      match handler entry with
      | some result => (entry.update result :: entries, result.2)
      | none => (entry :: rest.1, rest.2)

variable (s : Shell K)

def minimized (win : WindowId) : Bool := (s.layer.display.window win).minimized

/-- The shell after some trackers have run and sent their calls. -/
def send (result : List (Tracked K) × List (Call K)) : Shell K :=
  { s with
    trackers := result.1
    bus := s.bus ++ result.2 }

/-- `_trackIfNew`. -/
def trackIfNew (win : WindowId) : Shell K :=
  if s.trackers.any fun entry => entry.win = win then s
  else { s with trackers := s.trackers ++ [⟨win, .new win (s.layer.display.window win).pid, false⟩] }

/-- The trackers for which `gone` holds are destroyed and forgotten. -/
def destroyTrackers (gone : Tracked K → Bool) : Shell K :=
  s.send (s.trackers.filter fun entry => !gone entry, (s.trackers.filter gone).flatMap (·.tracker.destroy))

/-- An accessibility event. The manager drops those without a process. -/
def onAtspiEvent (sourcePid : ℤ) (handler : Tracked K → Option (KateWindowTracker K × List (Call K))) : Shell K :=
  if sourcePid ≤ 0 then s else s.send (dispatch sourcePid handler s.trackers)

def step : ShellOp K → Shell K
  | .compositor op => if op.local then { s with layer := s.layer.opStep op } else s
  | .deliver =>
    match s.bus with
    | [] => s
    | c :: bus => { s with layer := s.layer.opStep (.call c), bus := bus }
  | .windowCreated win => if win ∈ s.layer.display.windows then s.trackIfNew win else s
  | .windowUnmanaged win =>
    { s with layer := s.layer.opStep (.call (.windowUnmanaged win)) }.destroyTrackers fun entry => entry.win = win
  | .retry win view => s.send (wake win (fun t => t.handle (.retry view (s.minimized win))) s.trackers)
  | .poll win view => s.send (wake win (fun t => t.handle (.poll view)) s.trackers)
  | .geometryChanged win view =>
    s.send (wake win (fun t => t.handle (.geometryChanged view (s.minimized win))) s.trackers)
  | .valueChanged source view =>
    s.onAtspiEvent (view.pid source) fun entry => entry.tracker.handleValueChangedSource view source
  | .boundsChanged source view =>
    s.onAtspiEvent (view.pid source) fun entry =>
      entry.tracker.handleBoundsChangedSource view source (s.minimized entry.win)
  | .disable => s.destroyTrackers fun _ => true

/-- A compositor without ink, before the extension is enabled. -/
def start (display : MetaDisplay) (input : AnnotationInput K) (width height : ℤ) : Shell K :=
  ⟨metaAnnotationLayerNew display input width height, [], []⟩

end Shell

/-! ### What the trackers send -/

namespace KateWindowTracker

variable {t : KateWindowTracker K} {view : View K} {minimized : Bool}

/-- A callback leaves the process alone, and only publishes. -/
structure Sends (t : KateWindowTracker K) (result : KateWindowTracker K × List (Call K)) : Prop where
  pid : result.1.pid = t.pid
  publishes : ∀ c ∈ result.2, Publishes c

omit [Scalar K] [FloorRing K] in
theorem Sends.trans {t' : KateWindowTracker K} {calls : List (Call K)} {result : KateWindowTracker K × List (Call K)}
    (h : t.Sends (t', calls)) (h' : t'.Sends result) : t.Sends (result.1, calls ++ result.2) where
  pid := h'.pid.trans h.pid
  publishes c hc := (List.mem_append.mp hc).elim (h.publishes c) (h'.publishes c)

omit [Scalar K] [FloorRing K] in
theorem sends_nil {t' : KateWindowTracker K} (h : t'.pid = t.pid) : t.Sends (t', []) := ⟨h, by simp⟩

omit [Scalar K] [FloorRing K] in
theorem sends_republishRegion : t.Sends (t.republishRegion view minimized) := by
  unfold republishRegion
  split
  · split_ifs
    · exact sends_nil rfl
    · split
      · exact sends_nil rfl
      · split_ifs with hsize
        · exact sends_nil rfl
        · exact sends_nil rfl
        · refine ⟨rfl, fun c hc => ?_⟩
          obtain rfl := List.mem_singleton.mp hc
          change 0 < _ ∧ 0 < _
          omega
  · exact sends_nil rfl

theorem sends_republishScroll : t.Sends (t.republishScroll view) := by
  have hpid : (t.calibrate view).pid = t.pid := by rw [calibrate_eq]
  unfold republishScroll
  split
  · exact sends_nil rfl
  · dsimp only
    split
    · exact sends_nil hpid
    · split_ifs
      · exact sends_nil hpid
      · refine ⟨hpid, fun c hc => ?_⟩
        obtain rfl := List.mem_singleton.mp hc
        trivial

theorem sends_tryDiscover : t.Sends (t.tryDiscover view minimized) := by
  unfold tryDiscover
  split
  · exact sends_nil rfl
  · dsimp only
    split
    · exact sends_nil rfl
    · rename_i found _ _ _ _
      have hregion : t.Sends (((t.locate found).captureBaseline view).republishRegion view minimized) :=
        ⟨sends_republishRegion.pid.trans (by rw [captureBaseline_eq]; rfl), sends_republishRegion.publishes⟩
      have hscroll : ∀ u : KateWindowTracker K, u.Sends (u.republishScroll view) := fun _ => sends_republishScroll
      have hboth := hregion.trans (hscroll _)
      exact ⟨hboth.pid, hboth.publishes⟩

theorem sends_retryDiscovery : t.Sends (t.retryDiscovery view minimized) := by
  unfold retryDiscovery
  split_ifs
  · exact sends_nil rfl
  · dsimp only
    split
    · exact sends_nil rfl
    · have hdiscover : ∀ u : KateWindowTracker K, u.Sends (u.tryDiscover view minimized) := fun _ => sends_tryDiscover
      have hoff := hdiscover { t with retryId := false }
      exact ⟨hoff.pid, hoff.publishes⟩

theorem sends_of_scrollSite {e : TrackerEvent K} {t' : KateWindowTracker K} (h : t.scrollSite e = some t') :
    t.Sends (t'.republishScroll view) :=
  ⟨sends_republishScroll.pid.trans (scrollSite_keeps (b := 0) h).1, sends_republishScroll.publishes⟩

theorem sends_handleValueChangedSource {source : Accessible} {result : KateWindowTracker K × List (Call K)}
    (h : t.handleValueChangedSource view source = some result) : t.Sends result := by
  obtain ⟨t', hscroll, rfl⟩ := Option.map_eq_some_iff.mp h
  exact sends_of_scrollSite (e := .valueChanged source view) hscroll

theorem sends_handleBoundsChangedSource {source : Accessible} {result : KateWindowTracker K × List (Call K)}
    (h : t.handleBoundsChangedSource view source minimized = some result) : t.Sends result := by
  unfold handleBoundsChangedSource at h
  split_ifs at h
  · obtain rfl := Option.some.inj h
    exact ⟨sends_republishRegion.pid, sends_republishRegion.publishes⟩
  · obtain ⟨t', hscroll, rfl⟩ := Option.map_eq_some_iff.mp h
    exact sends_of_scrollSite (e := .boundsChanged source view minimized) hscroll

theorem sends_handle (e : TrackerEvent K) : t.Sends (t.handle e) := by
  cases e with
  | retry view minimized => exact sends_retryDiscovery
  | poll view =>
    change t.Sends (((t.pollScroll view).map fun t => t.republishScroll view).getD (t, []))
    cases hscroll : t.pollScroll view with
    | none => exact sends_nil rfl
    | some t' => exact sends_of_scrollSite (e := .poll view) hscroll
  | geometryChanged view minimized => exact sends_republishRegion
  | valueChanged source view =>
    change t.Sends ((t.handleValueChangedSource view source).getD (t, []))
    cases hhandled : t.handleValueChangedSource view source with
    | none => exact sends_nil rfl
    | some result => exact sends_handleValueChangedSource hhandled
  | boundsChanged source view minimized =>
    change t.Sends ((t.handleBoundsChangedSource view source minimized).getD (t, []))
    cases hhandled : t.handleBoundsChangedSource view source minimized with
    | none => exact sends_nil rfl
    | some result => exact sends_handleBoundsChangedSource hhandled

end KateWindowTracker

/-! ### What the entries become -/

/-- The calls only publish, and every entry comes from one of the same window and process,
and has published if that one had or a region is sent for it. -/
structure Relays (entries entries' : List (Tracked K)) (calls : List (Call K)) : Prop where
  publishes : ∀ c ∈ calls, Publishes c
  origin : ∀ entry' ∈ entries', ∃ entry ∈ entries, entry'.win = entry.win ∧ entry'.tracker.pid = entry.tracker.pid ∧
    (entry'.published → entry.published ∨ ∃ c ∈ calls, (regionOf entry.tracker.pid c).isSome)

section Relays

variable {entry entry' : Tracked K} {entries entries' : List (Tracked K)} {calls calls' : List (Call K)}

omit [Scalar K] [FloorRing K] in
theorem relays_refl : Relays entries entries [] where
  publishes := by simp
  origin entry h := ⟨entry, h, rfl, rfl, .inl⟩

omit [Scalar K] [FloorRing K] in
/-- An entry that is left alone. -/
theorem Relays.skip (h : Relays entries entries' calls) : Relays (entry :: entries) (entry :: entries') calls where
  publishes := h.publishes
  origin entry' hentry' := by
    rcases List.mem_cons.mp hentry' with rfl | hmem
    · exact ⟨_, List.mem_cons_self, rfl, rfl, .inl⟩
    · obtain ⟨origin, horigin, hsame⟩ := h.origin _ hmem
      exact ⟨origin, List.mem_cons_of_mem _ horigin, hsame⟩

omit [Scalar K] [FloorRing K] in
/-- An entry whose tracker runs a callback. -/
theorem Relays.update {result : KateWindowTracker K × List (Call K)} (hsends : entry.tracker.Sends result)
    (h : Relays entries entries' calls) :
    Relays (entry :: entries) (entry.update result :: entries') (result.2 ++ calls) where
  publishes c hc := (List.mem_append.mp hc).elim (hsends.publishes c) (h.publishes c)
  origin entry' hentry' := by
    rcases List.mem_cons.mp hentry' with rfl | hmem
    · refine ⟨entry, List.mem_cons_self, rfl, hsends.pid, fun hpublished => ?_⟩
      rcases Bool.or_eq_true_iff.mp hpublished with hbefore | hsent
      · exact .inl hbefore
      · obtain ⟨c, hc, hregion⟩ := List.any_eq_true.mp hsent
        exact .inr ⟨c, List.mem_append_left _ hc, hregion⟩
    · obtain ⟨origin, horigin, hwin, hpid, hpublished⟩ := h.origin _ hmem
      refine ⟨origin, List.mem_cons_of_mem _ horigin, hwin, hpid, fun h' => (hpublished h').imp_right ?_⟩
      rintro ⟨c, hc, hregion⟩
      exact ⟨c, List.mem_append_right _ hc, hregion⟩

omit [Scalar K] [FloorRing K] in
theorem relays_wake (win : WindowId) {callback : KateWindowTracker K → KateWindowTracker K × List (Call K)}
    (hsends : ∀ t : KateWindowTracker K, t.Sends (callback t)) (entries : List (Tracked K)) :
    Relays entries (Shell.wake win callback entries).1 (Shell.wake win callback entries).2 := by
  induction entries with
  | nil => exact relays_refl
  | cons entry entries ih =>
    unfold Shell.wake
    dsimp only
    split_ifs
    · exact ih.update (hsends entry.tracker)
    · exact ih.skip

omit [Scalar K] [FloorRing K] in
theorem relays_dispatch (sourcePid : ℤ) {handler : Tracked K → Option (KateWindowTracker K × List (Call K))}
    (hsends : ∀ entry result, handler entry = some result → entry.tracker.Sends result) (entries : List (Tracked K)) :
    Relays entries (Shell.dispatch sourcePid handler entries).1 (Shell.dispatch sourcePid handler entries).2 := by
  induction entries with
  | nil => exact relays_refl
  | cons entry entries ih =>
    unfold Shell.dispatch
    dsimp only
    split_ifs
    · exact ih.skip
    · cases hhandled : handler entry with
      | some result => simpa using relays_refl.update (hsends entry result hhandled)
      | none => exact ih.skip

end Relays

end Annotations
