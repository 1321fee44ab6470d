import Annotations.Kate.Tracker
import Annotations.Runs.Basic

/-! The scroll that a tracker has published, over its callbacks. A callback gets to
`_republishScroll` at most once, and what is published there is the way of the scrollbar
from its base value times the height of a line. The base value never changes, so what
is published depends on the scrollbar alone as long as the height is not changed under
it. -/

namespace Annotations

open Atspi Runs

variable {K : Type} [Scalar K] [FloorRing K]

def TrackerEvent.view : TrackerEvent K → View K
  | .retry view _ => view
  | .poll view => view
  | .geometryChanged view _ => view
  | .valueChanged _ view => view
  | .boundsChanged _ view _ => view

theorem mathRound_intCast (n : ℤ) : mathRound (n : K) = n := by
  unfold mathRound
  rw [Int.floor_intCast_add, Int.floor_eq_zero_iff.mpr ⟨by positivity, by norm_num⟩, add_zero]

/-- The scroll that a call publishes. -/
def scrollOf : Call K → Option ℤ
  | .setWindowScroll _ _ scrollY => some scrollY
  | _ => none

/-- The scroll that the last of some calls published. -/
def lastScroll (calls : List (Call K)) : Option ℤ := (calls.filterMap scrollOf).getLast?

omit [Scalar K] [FloorRing K] in
theorem lastScroll_append (calls calls' : List (Call K)) :
    lastScroll (calls ++ calls') = (lastScroll calls').or (lastScroll calls) := by
  unfold lastScroll
  rw [List.filterMap_append, List.getLast?_append]

namespace KateWindowTracker

variable {t t' : KateWindowTracker K} {view : View K} {minimized : Bool} {e : TrackerEvent K}

/-! ### What each part of a callback changes -/

omit [Scalar K] [FloorRing K] in
theorem republishRegion_eq (view : View K) (minimized : Bool) :
    ∃ sig, (t.republishRegion view minimized).1 = { t with lastRegionSig := sig } := by
  unfold republishRegion
  split
  · split_ifs
    · exact ⟨_, rfl⟩
    · split
      · exact ⟨_, rfl⟩
      · split_ifs
        · exact ⟨_, rfl⟩
        · exact ⟨_, rfl⟩
        · exact ⟨_, rfl⟩
  · exact ⟨_, rfl⟩

omit [Scalar K] [FloorRing K] in
theorem lastScroll_republishRegion : lastScroll (t.republishRegion view minimized).2 = none := by
  unfold republishRegion
  split
  · split_ifs
    · rfl
    · split
      · rfl
      · split_ifs <;> rfl
  · rfl

omit [FloorRing K] in
/-- The height of a line that `_captureBaseline` leaves. -/
def capturedHeight (t : KateWindowTracker K) (view : View K) : K :=
  match t.charExtents view with
  | some (rect, _) => if rect.height > 0 then (rect.height : K) else t.lineHeight
  | none => t.lineHeight

omit [FloorRing K] in
/-- The base values are captured once, and the height of a line whenever there is one. -/
theorem captureBaseline_eq : t.captureBaseline view =
    { t with
      charBaseYRel := t.charBaseYRel.or ((t.charExtents view).map fun extents => extents.1.y - extents.2.y)
      lineHeight := t.capturedHeight view
      baseSbVal := t.baseSbVal.or (t.sbVal view) } := by
  unfold captureBaseline capturedHeight
  cases hchar : t.charExtents view <;> cases hrel : t.charBaseYRel <;> cases hbase : t.baseSbVal <;>
    ext1 <;> simp [hrel, hbase, sbVal]

omit [FloorRing K] in
theorem calibrate_eq : t.calibrate view =
    { t with
      lineHeight := (t.measured view).getD t.lineHeight
      lineHeightCalibrated := t.lineHeightCalibrated || (t.measured view).isSome } := by
  unfold calibrate
  cases hmeasured : t.measured view <;> simp

/-- The scroll that `_republishScroll` computes. -/
def pixels (t : KateWindowTracker K) (view : View K) : Option ℤ := ((t.calibrate view).scrollY view).map mathRound

/-- The scroll that is computed is the last one published, sent again or not. -/
theorem republishScroll_eq (heditor : t.editor.isSome) :
    (t.republishScroll view).1 = { t.calibrate view with lastScrollY := (t.pixels view).or t.lastScrollY } := by
  obtain ⟨editor, heditor⟩ := Option.isSome_iff_exists.mp heditor
  have hlast : (t.calibrate view).lastScrollY = t.lastScrollY := by rw [calibrate_eq]
  unfold republishScroll pixels
  simp only [heditor]
  cases hscroll : (t.calibrate view).scrollY view with
  | none => simp [← hlast]
  | some sy =>
    dsimp only
    split_ifs with hsame
    · have hor : (some (mathRound sy)).or t.lastScrollY = (t.calibrate view).lastScrollY := hsame.symm
      rw [Option.map_some, hor]
    · rfl

theorem republishScroll_of_no_editor (heditor : t.editor = none) : t.republishScroll view = (t, []) := by
  unfold republishScroll
  rw [heditor]

theorem lastScroll_republishScroll (heditor : t.editor.isSome) :
    (lastScroll (t.republishScroll view).2).or t.lastScrollY = (t.pixels view).or t.lastScrollY := by
  obtain ⟨editor, heditor⟩ := Option.isSome_iff_exists.mp heditor
  have hlast : (t.calibrate view).lastScrollY = t.lastScrollY := by rw [calibrate_eq]
  unfold republishScroll pixels
  simp only [heditor]
  cases hscroll : (t.calibrate view).scrollY view with
  | none => rfl
  | some sy =>
    dsimp only
    split_ifs with hsame
    · simpa [lastScroll] using hlast.symm.trans hsame
    · rfl

/-- With a scrollbar, the scroll is its way times the height of a line. -/
theorem pixels_of_sbDelta {sb : K} (h : t.sbDelta view = some sb) :
    t.pixels view = some (mathRound (sb * (t.measured view).getD t.lineHeight)) := by
  have hcalibrated : (t.calibrate view).sbDelta view = some sb := by
    rw [calibrate_eq]
    exact h
  unfold pixels scrollY
  rw [hcalibrated]
  simp only [Option.map_some, mathRound_intCast]
  rw [calibrate_eq]

/-! ### Callbacks -/

/-- The tracker on which a callback calls `_republishScroll`, if it does. -/
def scrollSite (t : KateWindowTracker K) : TrackerEvent K → Option (KateWindowTracker K)
  | .retry view minimized =>
    if !t.retryId || t.win.isNone then none
    else
      (view.discover t.pid).bind fun found =>
        let t := { t with retryId := false }.locate found
        if t.editor.isNone then none else some ((t.captureBaseline view).republishRegion view minimized).1
  | .poll view => t.pollScroll view
  | .geometryChanged _ _ => none
  | .valueChanged source view => t.valueChangedScroll view source
  | .boundsChanged source view _ => t.boundsChangedScroll view source

/-- What the scroll depends on. -/
structure Gauge (K : Type) where
  baseSbVal : Option K
  lineHeight : K
  lastScrollY : Option ℤ

def gauge (t : KateWindowTracker K) : Gauge K := ⟨t.baseSbVal, t.lineHeight, t.lastScrollY⟩

/-- The gauge, and what it is calibrated by. -/
structure Meter (K : Type) extends Gauge K where
  charBaseYRel : Option ℤ
  lineHeightCalibrated : Bool

def meter (t : KateWindowTracker K) : Meter K := ⟨t.gauge, t.charBaseYRel, t.lineHeightCalibrated⟩

omit [Scalar K] [FloorRing K] in
theorem meter_republishRegion : (t.republishRegion view minimized).1.meter = t.meter := by
  obtain ⟨sig, hsig⟩ := republishRegion_eq (t := t) view minimized
  rw [hsig]
  rfl

theorem meter_retryDiscovery (view : View K) (minimized : Bool) {win : WindowId} (hretry : t.retryId)
    (hwin : t.win = some win) :
    (t.retryDiscovery view minimized).1.meter = ({ t with retryId := false }.tryDiscover view minimized).1.meter ∧
      (t.retryDiscovery view minimized).2 = ({ t with retryId := false }.tryDiscover view minimized).2 := by
  unfold retryDiscovery
  simp only [hretry, hwin, Bool.not_true, Bool.false_eq_true, if_false]
  exact ⟨rfl, trivial⟩

theorem meter_tryDiscover (minimized : Bool) {found : Found} (hfound : view.discover t.pid = some found)
    (heditor : (t.locate found).editor.isSome) :
    let region := ((t.locate found).captureBaseline view).republishRegion view minimized
    (t.tryDiscover view minimized).1.meter = (region.1.republishScroll view).1.meter ∧
      (t.tryDiscover view minimized).2 = region.2 ++ (region.1.republishScroll view).2 := by
  obtain ⟨editor, heditor⟩ := Option.isSome_iff_exists.mp heditor
  unfold tryDiscover
  simp only [hfound, heditor]
  exact ⟨rfl, trivial⟩

/-- Without an editor nothing is published. -/
theorem meter_tryDiscover_of_no_editor (minimized : Bool)
    (h : ∀ found, view.discover t.pid = some found → (t.locate found).editor = none) :
    (t.tryDiscover view minimized).1.meter = t.meter ∧ (t.tryDiscover view minimized).2 = [] := by
  unfold tryDiscover
  cases hfound : view.discover t.pid with
  | none => exact ⟨rfl, rfl⟩
  | some found =>
    simp only [h found hfound]
    exact ⟨rfl, trivial⟩

/-- A callback that gets to `_republishScroll` leaves the meter as the call leaves, and
publishes the scroll that the call publishes. -/
theorem handle_of_scrollSite (h : t.scrollSite e = some t') :
    (t.handle e).1.meter = (t'.republishScroll e.view).1.meter ∧
      lastScroll (t.handle e).2 = lastScroll (t'.republishScroll e.view).2 := by
  cases e with
  | retry view minimized =>
    simp only [scrollSite] at h
    split_ifs at h with hoff
    obtain ⟨hretry, hwin⟩ : t.retryId = true ∧ t.win ≠ none := by simpa using hoff
    obtain ⟨win, hwin⟩ := Option.ne_none_iff_exists'.mp hwin
    obtain ⟨found, hfound, h⟩ := Option.bind_eq_some_iff.mp h
    split_ifs at h with heditor
    obtain ⟨rfl⟩ := h
    obtain ⟨hmeter, hcalls⟩ := meter_retryDiscovery view minimized hretry hwin
    obtain ⟨hmeter', hcalls'⟩ := meter_tryDiscover (t := { t with retryId := false }) minimized
      hfound (by simpa [Option.isSome_iff_ne_none] using heditor)
    refine ⟨hmeter.trans hmeter', ?_⟩
    have hsplit : (t.handle (.retry view minimized)).2 = _ := hcalls.trans hcalls'
    rw [hsplit, lastScroll_append, lastScroll_republishRegion, Option.or_none]
    rfl
  | poll view =>
    have hhandle : t.handle (.poll view) = t'.republishScroll view := by
      change ((t.pollScroll view).map fun t => t.republishScroll view).getD (t, []) = _
      rw [show t.pollScroll view = some t' from h]
      rfl
    rw [hhandle]
    exact ⟨rfl, rfl⟩
  | geometryChanged view minimized => cases h
  | valueChanged source view =>
    have hhandle : t.handle (.valueChanged source view) = t'.republishScroll view := by
      change ((t.valueChangedScroll view source).map fun t => t.republishScroll view).getD (t, []) = _
      rw [show t.valueChangedScroll view source = some t' from h]
      rfl
    rw [hhandle]
    exact ⟨rfl, rfl⟩
  | boundsChanged source view minimized =>
    have hscroll : t.boundsChangedScroll view source = some t' := h
    have hguard : ¬ (t.editor.isNone ∨ view.pid source ≠ t.pid) ∧ t.editor ≠ some source := by
      unfold boundsChangedScroll at hscroll
      split_ifs at hscroll with hguard
      all_goals exact ⟨fun hor => hguard (hor.imp_right .inl), fun heq => hguard (.inr (.inr heq))⟩
    have hhandle : t.handle (.boundsChanged source view minimized) = t'.republishScroll view := by
      simp only [handle, handleBoundsChangedSource, if_neg hguard.1, if_neg hguard.2, hscroll]
      rfl
    rw [hhandle]
    exact ⟨rfl, rfl⟩

/-- A callback that does not get there leaves the meter, and publishes no scroll. -/
theorem handle_of_no_scrollSite (h : t.scrollSite e = none) :
    (t.handle e).1.meter = t.meter ∧ lastScroll (t.handle e).2 = none := by
  cases e with
  | retry view minimized =>
    by_cases hretry : t.retryId = true
    · cases hwin : t.win with
      | none =>
        simp only [handle, retryDiscovery, hretry, hwin, Bool.not_true, Bool.false_eq_true, if_false]
        exact ⟨rfl, rfl⟩
      | some win =>
        obtain ⟨hmeter, hcalls⟩ := meter_retryDiscovery view minimized hretry hwin
        have hnone : ∀ found, view.discover t.pid = some found →
            ({ t with retryId := false }.locate found).editor = none := by
          intro found hfound
          simpa [scrollSite, hretry, hwin, hfound] using h
        obtain ⟨hmeter', hcalls'⟩ := meter_tryDiscover_of_no_editor (t := { t with retryId := false })
          minimized hnone
        refine ⟨hmeter.trans hmeter', ?_⟩
        have hempty : (t.handle (.retry view minimized)).2 = [] := hcalls.trans hcalls'
        rw [hempty]
        rfl
    · have hhandle : t.handle (.retry view minimized) = (t, []) := by simp [handle, retryDiscovery, hretry]
      rw [hhandle]
      exact ⟨rfl, rfl⟩
  | poll view =>
    simp only [handle, show t.pollScroll view = none from h]
    exact ⟨rfl, rfl⟩
  | geometryChanged view minimized => exact ⟨meter_republishRegion, lastScroll_republishRegion⟩
  | valueChanged source view =>
    simp only [handle, handleValueChangedSource, show t.valueChangedScroll view source = none from h]
    exact ⟨rfl, rfl⟩
  | boundsChanged source view minimized =>
    simp only [handle, handleBoundsChangedSource, show t.boundsChangedScroll view source = none from h]
    split_ifs
    · exact ⟨rfl, rfl⟩
    · exact ⟨meter_republishRegion, lastScroll_republishRegion⟩
    · exact ⟨rfl, rfl⟩

omit [FloorRing K] in
theorem captureBaseline_keeps {b : K} :
    (t.captureBaseline view).pid = t.pid ∧ (t.captureBaseline view).lastScrollY = t.lastScrollY ∧
      (t.baseSbVal = some b → (t.captureBaseline view).baseSbVal = some b) := by
  rw [captureBaseline_eq]
  exact ⟨rfl, rfl, fun hb => by simp [hb]⟩

/-- The callback captures base values on the way to the call. -/
def captures (t : KateWindowTracker K) : TrackerEvent K → Bool
  | .retry _ _ => true
  | .poll _ => t.baseSbVal.isNone
  | .boundsChanged _ _ _ => t.charBaseYRel.isNone
  | .geometryChanged _ _ | .valueChanged _ _ => false

omit [FloorRing K] in
/-- On the way to the call the meter only changes where base values are captured. -/
theorem scrollSite_eq (h : t.scrollSite e = some t') :
    ∃ (t₀ : KateWindowTracker K) (sig : Option Rect), t₀.meter = t.meter ∧ t₀.pid = t.pid ∧
      t' = { if t.captures e then t₀.captureBaseline e.view else t₀ with lastRegionSig := sig } := by
  cases e with
  | retry view minimized =>
    simp only [scrollSite] at h
    split_ifs at h
    obtain ⟨found, _, h⟩ := Option.bind_eq_some_iff.mp h
    split_ifs at h
    obtain ⟨rfl⟩ := h
    obtain ⟨sig, hsig⟩ := republishRegion_eq (t := ({ t with retryId := false }.locate found).captureBaseline view)
      view minimized
    refine ⟨{ t with retryId := false }.locate found, sig, rfl, rfl, ?_⟩
    rw [hsig]
    rfl
  | poll view =>
    have hscroll : t.pollScroll view = some t' := h
    unfold pollScroll at hscroll
    split_ifs at hscroll
    split at hscroll
    · cases hscroll
    next cur _ =>
      split_ifs at hscroll
      obtain ⟨rfl⟩ := hscroll
      exact ⟨{ t with pollLastSbVal := some cur }, _, rfl, rfl, rfl⟩
  | geometryChanged view minimized => cases h
  | valueChanged source view =>
    have hscroll : t.valueChangedScroll view source = some t' := h
    unfold valueChangedScroll at hscroll
    split_ifs at hscroll
    · obtain ⟨rfl⟩ := hscroll
      exact ⟨t, _, rfl, rfl, rfl⟩
    · split at hscroll
      · split_ifs at hscroll
        obtain ⟨rfl⟩ := hscroll
        exact ⟨{ t with scrollbar := some source }, _, rfl, rfl, rfl⟩
      · cases hscroll
  | boundsChanged source view minimized =>
    have hscroll : t.boundsChangedScroll view source = some t' := h
    unfold boundsChangedScroll at hscroll
    rw [Option.ite_none_left_eq_some] at hscroll
    obtain ⟨_, ⟨rfl⟩⟩ := hscroll
    exact ⟨t, _, rfl, rfl, rfl⟩

omit [FloorRing K] in
/-- On the way to the call, process and last scroll stay, and so does a base value that
there is. -/
theorem scrollSite_keeps {b : K} (h : t.scrollSite e = some t') :
    t'.pid = t.pid ∧ t'.lastScrollY = t.lastScrollY ∧ (t.baseSbVal = some b → t'.baseSbVal = some b) := by
  obtain ⟨t₀, sig, hmeter, hpid, rfl⟩ := scrollSite_eq h
  have hlast : t₀.lastScrollY = t.lastScrollY := congrArg (fun m : Meter K => m.lastScrollY) hmeter
  have hsb : t₀.baseSbVal = t.baseSbVal := congrArg (fun m : Meter K => m.baseSbVal) hmeter
  rw [← hpid, ← hlast, ← hsb]
  split
  · exact captureBaseline_keeps
  · exact ⟨rfl, rfl, id⟩

/-! ### Runs -/

/-- A tracker, and all that it has sent. -/
structure Session (K : Type) where
  tracker : KateWindowTracker K
  sent : List (Call K)

namespace Session

def start (win : WindowId) (pid : ℕ) : Session K := ⟨.new win pid, []⟩

def step (s : Session K) (e : TrackerEvent K) : Session K := ⟨(s.tracker.handle e).1, s.sent ++ (s.tracker.handle e).2⟩

/-- The scroll last published to the compositor. -/
def published (s : Session K) : Option ℤ := lastScroll s.sent

end Session

/-- The value of the scrollbar that a callback publishes the scroll for. -/
def sample (t : KateWindowTracker K) (e : TrackerEvent K) : Option K :=
  (t.scrollSite e).bind fun t' => if t'.editor.isSome then t'.sbVal e.view else none

/-- The callback changes the height of a line: `_captureBaseline` reads another one off
character 0, or `_republishScroll` measures another one. -/
def recalibrates (t : KateWindowTracker K) (e : TrackerEvent K) : Bool :=
  match t.scrollSite e with
  | none => false
  | some t' => t'.lineHeight ≠ t.lineHeight || (t'.measured e.view).any (· ≠ t'.lineHeight)

/-- The callback has a base value for the scrollbar that it reads. -/
def anchored (t : KateWindowTracker K) (e : TrackerEvent K) : Bool :=
  match t.scrollSite e with
  | none => true
  | some t' => t'.editor.isNone || (t'.sbVal e.view).isNone || t'.baseSbVal.isSome

/-- What a tracker sends last is what it remembers. -/
theorem lastScrollY_handle : (t.handle e).1.lastScrollY = (lastScroll (t.handle e).2).or t.lastScrollY := by
  cases hsite : t.scrollSite e with
  | none =>
    obtain ⟨hmeter, hcalls⟩ := handle_of_no_scrollSite hsite
    rw [hcalls, Option.none_or]
    exact congrArg (fun m : Meter K => m.lastScrollY) hmeter
  | some t' =>
    obtain ⟨hmeter, hcalls⟩ := handle_of_scrollSite hsite
    have hlast : t'.lastScrollY = t.lastScrollY := (scrollSite_keeps (b := 0) hsite).2.1
    rw [hcalls, show (t.handle e).1.lastScrollY = _ from congrArg (fun m : Meter K => m.lastScrollY) hmeter, ← hlast]
    by_cases heditor : t'.editor.isSome
    · rw [lastScroll_republishScroll heditor, republishScroll_eq heditor]
      rfl
    · rw [republishScroll_of_no_editor (by simpa using heditor)]
      rfl

/-- A callback that reads a value with a base publishes its way from the base, by the
height of a line that the callback leaves. -/
theorem published_of_sample {v : K} (hsample : t.sample e = some v) (hanchored : t.anchored e) :
    ∃ b, (t.handle e).1.baseSbVal = some b ∧
      (t.handle e).1.lastScrollY = some (mathRound ((v - b) * (t.handle e).1.lineHeight)) := by
  obtain ⟨t', hsite, hv⟩ := Option.bind_eq_some_iff.mp hsample
  split_ifs at hv with heditor
  obtain ⟨b, hb⟩ : ∃ b, t'.baseSbVal = some b := by
    simp only [anchored, hsite, hv, Option.isNone_some, Bool.or_false, Bool.or_eq_true] at hanchored
    rcases hanchored with hnone | hsome
    · simp [Option.isNone_iff_eq_none.mp hnone] at heditor
    · exact Option.isSome_iff_exists.mp hsome
  obtain ⟨hmeter, _⟩ := handle_of_scrollSite hsite
  have hbase : (t.handle e).1.baseSbVal = (t'.republishScroll e.view).1.baseSbVal :=
    congrArg (fun m : Meter K => m.baseSbVal) hmeter
  have hheight : (t.handle e).1.lineHeight = (t'.republishScroll e.view).1.lineHeight :=
    congrArg (fun m : Meter K => m.lineHeight) hmeter
  have hlast : (t.handle e).1.lastScrollY = (t'.republishScroll e.view).1.lastScrollY :=
    congrArg (fun m : Meter K => m.lastScrollY) hmeter
  have hdelta : t'.sbDelta e.view = some (v - b) := by simp [sbDelta, hb, hv]
  refine ⟨b, ?_, ?_⟩
  · rw [hbase, republishScroll_eq heditor, calibrate_eq]
    exact hb
  · rw [hlast, hheight, republishScroll_eq heditor, pixels_of_sbDelta hdelta, calibrate_eq]
    rfl

variable {s : Session K}

/-- What was sent last is what the tracker remembers. -/
theorem Session.published_step (h : s.published = s.tracker.lastScrollY) :
    (s.step e).published = (s.step e).tracker.lastScrollY := by
  have hsent : (s.step e).published = (lastScroll (s.tracker.handle e).2).or s.published := lastScroll_append _ _
  rw [hsent, h]
  exact lastScrollY_handle.symm

/-- A base value stays, and so does the height of a line unless the callback recalibrates. -/
theorem handle_keeps {b : K} (hb : t.baseSbVal = some b) :
    (t.handle e).1.baseSbVal = some b ∧
      (t.recalibrates e = false → (t.handle e).1.lineHeight = t.lineHeight) := by
  cases hsite : t.scrollSite e with
  | none =>
    obtain ⟨hmeter, _⟩ := handle_of_no_scrollSite hsite
    refine ⟨(congrArg (fun m : Meter K => m.baseSbVal) hmeter).trans hb, fun _ => ?_⟩
    exact congrArg (fun m : Meter K => m.lineHeight) hmeter
  | some t' =>
    obtain ⟨hmeter, _⟩ := handle_of_scrollSite hsite
    have hbase : (t.handle e).1.baseSbVal = (t'.republishScroll e.view).1.baseSbVal :=
      congrArg (fun m : Meter K => m.baseSbVal) hmeter
    have hheight : (t.handle e).1.lineHeight = (t'.republishScroll e.view).1.lineHeight :=
      congrArg (fun m : Meter K => m.lineHeight) hmeter
    have hb' := (scrollSite_keeps hsite).2.2 hb
    rw [hbase, hheight]
    have hnot : t.recalibrates e = false →
        t'.lineHeight = t.lineHeight ∧ (t'.measured e.view).getD t'.lineHeight = t'.lineHeight := by
      intro h
      simp only [recalibrates, hsite, Bool.or_eq_false_iff, decide_eq_false_iff_not, not_not] at h
      refine ⟨h.1, ?_⟩
      cases hmeasured : t'.measured e.view with
      | none => rfl
      | some height => simpa [hmeasured] using h.2
    by_cases heditor : t'.editor.isSome
    · rw [republishScroll_eq heditor, calibrate_eq]
      exact ⟨hb', fun h => (hnot h).2.trans (hnot h).1⟩
    · rw [republishScroll_of_no_editor (by simpa using heditor)]
      exact ⟨hb', fun h => (hnot h).1⟩

/-! ### The claim over runs -/

section Runs

variable (win : WindowId) (pid : ℕ) (events : List (TrackerEvent K))

/-- The session after the first `k` callbacks. -/
def Session.after (k : ℕ) : Session K := stateAt Session.step (.start win pid) events k

/-- The callback `k` publishes the scroll for the value `v` of the scrollbar. -/
def SampledAt (k : ℕ) (v : K) : Prop :=
  ∃ e, events[k]? = some e ∧ (Session.after win pid events k).tracker.sample e = some v

/-- A callback may only change the height of a line as long as the scrollbar has never
been seen away from its base value. -/
structure KeepsScroll (k : ℕ) (e : TrackerEvent K) : Prop where
  anchored : (Session.after win pid events k).tracker.anchored e
  calibrated : (Session.after win pid events k).tracker.recalibrates e →
    ∀ i < k, ∀ v, SampledAt win pid events i v → (Session.after win pid events k).tracker.baseSbVal = some v

theorem published_after (k : ℕ) (hk : k ≤ events.length) :
    (Session.after win pid events k).published = (Session.after win pid events k).tracker.lastScrollY :=
  stateAt_invariant (P := fun _ (s : Session K) => s.published = s.tracker.lastScrollY) rfl
    (fun _ _ _ h => Session.published_step h) hk

variable {win pid events}

/-- After a callback, the scroll published for every value sampled so far is what the
present base value and height of a line make of it. -/
theorem published_of_sampledAt (hkeeps : ∀ k e, events[k]? = some e → KeepsScroll win pid events k e) (k : ℕ)
    (hk : k ≤ events.length) : ∀ i < k, ∀ v, SampledAt win pid events i v →
      ∃ b, (Session.after win pid events k).tracker.baseSbVal = some b ∧
        (Session.after win pid events (i + 1)).published =
          some (mathRound ((v - b) * (Session.after win pid events k).tracker.lineHeight)) := by
  induction k with
  | zero => exact fun i hi => absurd hi (Nat.not_lt_zero i)
  | succ k ih =>
    intro i hi v hv
    have hget : events[k]? = some events[k] := List.getElem?_eq_getElem hk
    have hstep : Session.after win pid events (k + 1) = (Session.after win pid events k).step events[k] :=
      stateAt_succ hget
    rcases Nat.lt_succ_iff_lt_or_eq.mp hi with hlt | rfl
    · obtain ⟨b, hb, hpublished⟩ := ih (Nat.le_of_succ_le hk) i hlt v hv
      obtain ⟨hb', hheight⟩ := handle_keeps (e := events[k]) hb
      refine ⟨b, by rw [hstep]; exact hb', ?_⟩
      rw [hpublished, hstep]
      cases hrecalibrates : (Session.after win pid events k).tracker.recalibrates events[k] with
      | true =>
        -- the value is the base value, whose scroll is 0 at any height
        have hvb := (hkeeps k _ hget).calibrated hrecalibrates i hlt v hv
        obtain rfl : b = v := Option.some.inj (hb.symm.trans hvb)
        simp
      | false =>
        change _ = some (mathRound ((v - b) * ((Session.after win pid events k).tracker.handle events[k]).1.lineHeight))
        rw [hheight hrecalibrates]
    · obtain ⟨e, he, hsample⟩ := hv
      obtain rfl : events[i] = e := Option.some.inj (hget.symm.trans he)
      obtain ⟨b, hb, hlast⟩ := published_of_sample hsample (hkeeps i _ hget).anchored
      refine ⟨b, by rw [hstep]; exact hb, ?_⟩
      rw [published_after win pid events (i + 1) hk, hstep]
      exact hlast

variable (win pid events)

/-- Whenever the scrollbar comes back to a value, the published scroll does. -/
theorem published_eq_of_sampledAt
    (hkeeps : ∀ k e, events[k]? = some e → KeepsScroll win pid events k e) (i j : ℕ) (v : K)
    (hi : SampledAt win pid events i v) (hj : SampledAt win pid events j v) :
    (Session.after win pid events (i + 1)).published = (Session.after win pid events (j + 1)).published := by
  have hlt : ∀ k, SampledAt win pid events k v → k < events.length := by
    rintro k ⟨e, he, _⟩
    exact (List.getElem?_eq_some_iff.mp he).1
  obtain ⟨b, hb, hpublished⟩ := published_of_sampledAt hkeeps events.length le_rfl i (hlt i hi) v hi
  obtain ⟨b', hb', hpublished'⟩ := published_of_sampledAt hkeeps events.length le_rfl j (hlt j hj) v hj
  obtain rfl : b = b' := Option.some.inj (hb.symm.trans hb')
  exact hpublished.trans hpublished'.symm

end Runs

/-- An editor whose character 0 has the given extents, next to a scrollbar with the given
value. -/
def document (value : ℚ) (character : Rect) : View ℚ where
  desktop := some [some 0]
  children node := if node = 0 then [some 1, some 2] else []
  role node := if node = 1 then .text else if node = 2 then .scrollBar else .other
  pid _ := 7
  extents node := if node = 1 then some ⟨0, 0, 400, 400⟩ else if node = 2 then some ⟨400, 0, 10, 400⟩ else none
  characterExtents node := if node = 1 then some character else none
  currentValue node := if node = 2 then some value else none

/-- The first scroll measures the lines, and later ones come back to it. -/
theorem published_eq_of_sampledAt_calibrated :
    let events : List (TrackerEvent ℚ) := [.retry (document 0 ⟨5, 0, 8, 0⟩) false, .poll (document 2 ⟨5, -34, 8, 0⟩),
      .poll (document 10 ⟨5, -60, 8, 0⟩), .poll (document 2 ⟨5, -34, 8, 0⟩)]
    (Session.after 0 7 events 2).published = (Session.after 0 7 events 4).published := by
  intro events
  have hsample : ∀ v, SampledAt 0 7 events 0 v → v = 0 := by
    rintro v ⟨e, he, hv⟩
    obtain rfl : TrackerEvent.retry (document 0 ⟨5, 0, 8, 0⟩) false = e := Option.some.inj he
    have hzero : (Session.after 0 7 events 0).tracker.sample (.retry (document 0 ⟨5, 0, 8, 0⟩) false) = some 0 := by
      decide +kernel
    exact (Option.some.inj (hzero.symm.trans hv)).symm
  refine published_eq_of_sampledAt 0 7 events (fun k e he => ?_) 1 3 2 ⟨_, rfl, by decide +kernel⟩
    ⟨_, rfl, by decide +kernel⟩
  match k with
  | 0 =>
    obtain rfl := Option.some.inj he
    exact ⟨by decide +kernel, fun _ i hi => absurd hi (Nat.not_lt_zero i)⟩
  | 1 =>
    obtain rfl := Option.some.inj he
    refine ⟨by decide +kernel, fun _ i hi v hv => ?_⟩
    obtain rfl : i = 0 := by omega
    rw [hsample v hv]
    decide +kernel
  | 2 =>
    obtain rfl := Option.some.inj he
    exact ⟨by decide +kernel, fun h => absurd h (by decide +kernel)⟩
  | 3 =>
    obtain rfl := Option.some.inj he
    exact ⟨by decide +kernel, fun h => absurd h (by decide +kernel)⟩
  | k + 4 => simp [events] at he

/-- A scroll of two lines measures the height of a line after a scroll of ten was published
with the height that was taken for granted: back at ten, the scroll is another one. -/
theorem not_published_eq_recalibrated :
    let events : List (TrackerEvent ℚ) := [.retry (document 0 ⟨5, 0, 8, 0⟩) false, .poll (document 10 ⟨5, -60, 8, 0⟩),
      .poll (document 2 ⟨5, -34, 8, 0⟩), .poll (document 10 ⟨5, -60, 8, 0⟩)]
    SampledAt 0 7 events 1 10 ∧ SampledAt 0 7 events 3 10 ∧
      (Session.after 0 7 events 2).published = some 140 ∧ (Session.after 0 7 events 4).published = some 170 := by
  intro events
  exact ⟨⟨_, rfl, by decide +kernel⟩, ⟨_, rfl, by decide +kernel⟩, by decide +kernel, by decide +kernel⟩

end KateWindowTracker

end Annotations
