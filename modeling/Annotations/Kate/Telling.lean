import Annotations.Kate.Closing
import Annotations.Runs.Mirror

/-! What the trackers say, and what is done with it. A tracker speaks of its own process only, and what it remembers
is what it published last. A call that arrives writes the region or the scroll of the records of its process,
rounded to `float`. -/

namespace Annotations

open Atspi Runs
open Scalar (toFloat)

variable {K : Type} [Scalar K] [FloorRing K]

/-- The region that a call publishes for a process: `none` when it clears it. -/
def extentsOf (pid : ℕ) : Call K → Option (Option Rect)
  | .setWindowEditorRegion pid' x y w h =>
    if pid' = pid then some (if w ≤ 0 ∨ h ≤ 0 then none else some ⟨x, y, w, h⟩) else none
  | _ => none

/-- The scroll that a call publishes for a process. -/
def offsetOf (pid : ℕ) : Call K → Option (ℤ × ℤ)
  | .setWindowScroll pid' scrollX scrollY => if pid' = pid then some (scrollX, scrollY) else none
  | _ => none

/-- A region of a record: a corner and a size. -/
abbrev Area (K : Type) := K × K × K × K

/-- A published region as a record holds it. -/
def areaOf (rect : Rect) : Area K :=
  (toFloat (rect.x : K), toFloat (rect.y : K), toFloat (rect.width : K), toFloat (rect.height : K))

/-- A published scroll as a record holds it. -/
def wayOf (offset : ℤ × ℤ) : K × K := (toFloat (offset.1 : K), toFloat (offset.2 : K))

namespace Frame

variable (f : Frame K)

def area : Option (Area K) := if f.hasEditorRegion then some (f.editorX, f.editorY, f.editorW, f.editorH) else none

def way : K × K := (f.scrollX, f.scrollY)

omit [FloorRing K] in
theorem area_withRegion (x y w h : ℤ) :
    (f.withRegion x y w h).area = if w ≤ 0 ∨ h ≤ 0 then none else some (areaOf ⟨x, y, w, h⟩) := by
  unfold withRegion area areaOf
  split_ifs <;> simp_all

omit [FloorRing K] in
theorem way_withRegion (x y w h : ℤ) : (f.withRegion x y w h).way = f.way := by
  unfold withRegion
  split_ifs <;> rfl

end Frame

/-! ### What a tracker says -/

namespace KateWindowTracker

variable {t t' : KateWindowTracker K} {view : View K} {minimized : Bool}
  {result : KateWindowTracker K × List (Call K)}

/-- What the tracker remembers is what it published last. -/
structure Tells (t t' : KateWindowTracker K) (calls : List (Call K)) : Prop where
  pid : t'.pid = t.pid
  region : ∀ ext, t'.lastRegionSig = some ext →
    lastWrite (extentsOf t.pid) calls = some (some ext) ∨
      lastWrite (extentsOf t.pid) calls = none ∧ t.lastRegionSig = some ext
  scroll : ∀ y, t'.lastScrollY = some y →
    lastWrite (offsetOf t.pid) calls = some (0, y) ∨ lastWrite (offsetOf t.pid) calls = none ∧ t.lastScrollY = some y

/-- All calls are of the process. -/
def Addressed (pid : ℕ) (calls : List (Call K)) : Prop :=
  ∀ c ∈ calls, ∀ pid', pid' ≠ pid → extentsOf pid' c = none ∧ offsetOf pid' c = none

omit [Scalar K] [FloorRing K] in
theorem tells_quiet (hpid : t'.pid = t.pid) (hscroll : t'.lastScrollY = t.lastScrollY)
    (hregion : t'.lastRegionSig = t.lastRegionSig ∨ t'.lastRegionSig = none) : Tells t t' [] where
  pid := hpid
  region ext hext := by
    rcases hregion with hsame | hnone
    · exact .inr ⟨rfl, hsame.symm.trans hext⟩
    · exact absurd (hnone.symm.trans hext) (by simp)
  scroll y hy := .inr ⟨rfl, hscroll.symm.trans hy⟩

omit [Scalar K] [FloorRing K] in
theorem Tells.trans {u : KateWindowTracker K} {calls calls' : List (Call K)} (h : Tells t t' calls)
    (h' : Tells t' u calls') : Tells t u (calls ++ calls') where
  pid := h'.pid.trans h.pid
  region ext hext := by
    have hlast := h'.region ext hext
    rw [h.pid] at hlast
    rw [lastWrite_append]
    rcases hlast with hsome | ⟨hnone, hbefore⟩
    · exact .inl (by rw [hsome, Option.some_or])
    · rw [hnone, Option.none_or]
      exact h.region ext hbefore
  scroll y hy := by
    have hlast := h'.scroll y hy
    rw [h.pid] at hlast
    rw [lastWrite_append]
    rcases hlast with hsome | ⟨hnone, hbefore⟩
    · exact .inl (by rw [hsome, Option.some_or])
    · rw [hnone, Option.none_or]
      exact h.scroll y hbefore

omit [Scalar K] [FloorRing K] in
/-- The calls of other processes do not tell anything about this one. -/
theorem tells_others {calls : List (Call K)} (h : ∀ c ∈ calls, extentsOf t.pid c = none ∧ offsetOf t.pid c = none) :
    Tells t t calls where
  pid := rfl
  region _ hext := .inr ⟨lastWrite_eq_none.mpr fun c hc => (h c hc).1, hext⟩
  scroll _ hy := .inr ⟨lastWrite_eq_none.mpr fun c hc => (h c hc).2, hy⟩

/-- A callback tells what the tracker remembers afterwards, and speaks of its own process only. -/
structure Says (t : KateWindowTracker K) (result : KateWindowTracker K × List (Call K)) : Prop where
  tells : Tells t result.1 result.2
  addressed : Addressed t.pid result.2

omit [Scalar K] [FloorRing K] in
theorem says_quiet (hpid : t'.pid = t.pid) (hscroll : t'.lastScrollY = t.lastScrollY)
    (hregion : t'.lastRegionSig = t.lastRegionSig ∨ t'.lastRegionSig = none) : Says t (t', []) :=
  ⟨tells_quiet hpid hscroll hregion, by simp [Addressed]⟩

omit [Scalar K] [FloorRing K] in
theorem says_refl : Says t (t, []) := says_quiet rfl rfl (.inl rfl)

omit [Scalar K] [FloorRing K] in
theorem Says.trans {calls : List (Call K)} (h : Says t (t', calls)) (h' : Says t' result) :
    Says t (result.1, calls ++ result.2) where
  tells := h.tells.trans h'.tells
  addressed c hc := by
    rcases List.mem_append.mp hc with hc | hc
    · exact h.addressed c hc
    · have hlater := h'.addressed c hc
      rwa [h.tells.pid] at hlater

omit [Scalar K] [FloorRing K] in
theorem Says.quiet_then (h : Says t (t', [])) (h' : Says t' result) : Says t result := h.trans h'

omit [Scalar K] [FloorRing K] in
/-- Nothing is said at the end. -/
theorem Says.then_quiet {u : KateWindowTracker K} (h : Says t result) (h' : Says result.1 (u, [])) :
    Says t (u, result.2) := by
  have hboth := h.trans h'
  rwa [List.append_nil] at hboth

omit [Scalar K] [FloorRing K] in
theorem says_republishRegion (view : View K) (minimized : Bool) : Says t (t.republishRegion view minimized) := by
  have hsame : Says t (t, []) := says_refl
  unfold republishRegion
  split
  · split_ifs
    · exact hsame
    · split
      · exact hsame
      · rename_i ext _
        split_ifs with hsize
        · exact hsame
        · exact hsame
        · refine ⟨⟨rfl, fun ext' hext' => .inl ?_, fun y hy => .inr ⟨?_, hy⟩⟩, fun c hc pid hpid => ?_⟩
          · obtain rfl := Option.some.inj hext'
            rw [lastWrite_singleton, extentsOf, if_pos rfl, if_neg (by omega)]
          · exact lastWrite_singleton
          · obtain rfl := List.mem_singleton.mp hc
            exact ⟨if_neg hpid.symm, rfl⟩
  · exact hsame

theorem says_republishScroll (view : View K) : Says t (t.republishScroll view) := by
  have hcalibrated : (t.calibrate view).pid = t.pid ∧ (t.calibrate view).lastRegionSig = t.lastRegionSig ∧
      (t.calibrate view).lastScrollY = t.lastScrollY := by
    rw [calibrate_eq]
    exact ⟨rfl, rfl, rfl⟩
  obtain ⟨hpid, hregion, hscroll⟩ := hcalibrated
  have hquiet : Says t (t.calibrate view, []) := says_quiet hpid hscroll (.inl hregion)
  unfold republishScroll
  split
  · exact says_refl
  · dsimp only
    split
    · exact hquiet
    · split_ifs
      · exact hquiet
      · refine ⟨⟨hpid, fun ext hext => .inr ⟨?_, hregion.symm.trans hext⟩, fun y hy => .inl ?_⟩, fun c hc pid hne => ?_⟩
        · exact lastWrite_singleton
        · obtain rfl := Option.some.inj hy
          rw [lastWrite_singleton, offsetOf, if_pos hpid]
        · obtain rfl := List.mem_singleton.mp hc
          exact ⟨rfl, if_neg (hpid.trans_ne hne.symm)⟩

omit [FloorRing K] in
theorem says_captureBaseline (view : View K) : Says t (t.captureBaseline view, []) := by
  rw [captureBaseline_eq]
  exact says_quiet rfl rfl (.inl rfl)

theorem says_tryDiscover : Says t (t.tryDiscover view minimized) := by
  unfold tryDiscover
  split
  · exact says_refl
  · dsimp only
    split
    · exact says_quiet rfl rfl (.inl rfl)
    · rename_i found _ _ _ _
      have hlocated : Says t (t.locate found, []) := says_quiet rfl rfl (.inl rfl)
      have hregion := (hlocated.quiet_then (says_captureBaseline view)).quiet_then (says_republishRegion view minimized)
      have hscroll := hregion.trans (says_republishScroll view)
      exact hscroll.then_quiet (says_quiet rfl rfl (.inl rfl))

theorem says_retryDiscovery : Says t (t.retryDiscovery view minimized) := by
  unfold retryDiscovery
  split_ifs
  · exact says_refl
  · dsimp only
    have hoff : Says t ({ t with retryId := false }, []) := says_quiet rfl rfl (.inl rfl)
    split
    · exact hoff
    · have hdiscover : Says { t with retryId := false } ({ t with retryId := false }.tryDiscover view minimized) :=
        says_tryDiscover
      exact (hoff.quiet_then hdiscover).then_quiet (says_quiet rfl rfl (.inl rfl))

omit [FloorRing K] in
theorem says_pollScroll (h : t.pollScroll view = some t') : Says t (t', []) := by
  unfold pollScroll at h
  split_ifs at h
  split at h
  · cases h
  next cur _ =>
    have hread : Says t ({ t with pollLastSbVal := some cur }, []) := says_quiet rfl rfl (.inl rfl)
    split_ifs at h
    obtain rfl := Option.some.inj h
    split_ifs
    · exact hread.quiet_then (says_captureBaseline view)
    · exact hread

omit [Scalar K] [FloorRing K] in
theorem says_valueChangedScroll {source : Accessible} (h : t.valueChangedScroll view source = some t') :
    Says t (t', []) := by
  unfold valueChangedScroll at h
  split_ifs at h
  · obtain rfl := Option.some.inj h
    exact says_refl
  · split at h
    · split_ifs at h
      obtain rfl := Option.some.inj h
      exact says_quiet rfl rfl (.inl rfl)
    · cases h

omit [FloorRing K] in
theorem says_boundsChangedScroll {source : Accessible} (h : t.boundsChangedScroll view source = some t') :
    Says t (t', []) := by
  unfold boundsChangedScroll at h
  split_ifs at h
  · obtain rfl := Option.some.inj h
    exact says_captureBaseline view
  · obtain rfl := Option.some.inj h
    exact says_refl

theorem says_handleValueChangedSource {source : Accessible} (h : t.handleValueChangedSource view source = some result) :
    Says t result := by
  obtain ⟨t', hscroll, rfl⟩ := Option.map_eq_some_iff.mp h
  exact (says_valueChangedScroll hscroll).quiet_then (says_republishScroll view)

theorem says_handleBoundsChangedSource {source : Accessible}
    (h : t.handleBoundsChangedSource view source minimized = some result) : Says t result := by
  unfold handleBoundsChangedSource at h
  split_ifs at h
  · obtain rfl := Option.some.inj h
    have hforget : Says t ({ t with lastRegionSig := none }, []) := says_quiet rfl rfl (.inr rfl)
    exact hforget.quiet_then (says_republishRegion view minimized)
  · obtain ⟨t', hscroll, rfl⟩ := Option.map_eq_some_iff.mp h
    exact (says_boundsChangedScroll hscroll).quiet_then (says_republishScroll view)

theorem says_poll : Says t (t.handle (.poll view)) := by
  change Says t (((t.pollScroll view).map fun t => t.republishScroll view).getD (t, []))
  cases hscroll : t.pollScroll view with
  | none => exact says_refl
  | some t' => exact (says_pollScroll hscroll).quiet_then (says_republishScroll view)

end KateWindowTracker

open KateWindowTracker

/-! ### What the entries become -/

/-- Each entry comes from one whose tracker told what this one remembers, and no process is new. -/
structure Tellings (entries entries' : List (Tracked K)) (calls : List (Call K)) : Prop where
  pids : entries'.map (·.tracker.pid) = entries.map (·.tracker.pid)
  origin : ∀ entry' ∈ entries', ∃ entry ∈ entries, entry'.win = entry.win ∧ Tells entry.tracker entry'.tracker calls
  others : ∀ pid ∉ entries.map (·.tracker.pid), ∀ c ∈ calls, extentsOf pid c = none ∧ offsetOf pid c = none

section Tellings

variable {entry : Tracked K} {entries entries' : List (Tracked K)} {calls : List (Call K)}

omit [Scalar K] [FloorRing K] in
theorem tellings_refl : Tellings entries entries [] where
  pids := rfl
  origin entry h := ⟨entry, h, rfl, tells_quiet rfl rfl (.inl rfl)⟩
  others := by simp

omit [Scalar K] [FloorRing K] in
/-- The tracker of the first entry runs a callback, and then those of the others run theirs. -/
theorem Tellings.cons {entry' : Tracked K} {first : List (Call K)} (h : Tellings entries entries' calls)
    (hnodup : entry.tracker.pid ∉ entries.map (·.tracker.pid)) (hwin : entry'.win = entry.win)
    (hspeech : Says entry.tracker (entry'.tracker, first)) :
    Tellings (entry :: entries) (entry' :: entries') (first ++ calls) where
  pids := by rw [List.map_cons, List.map_cons, h.pids, hspeech.tells.pid]
  origin entry'' hentry'' := by
    rcases List.mem_cons.mp hentry'' with rfl | hmem
    · refine ⟨entry, List.mem_cons_self, hwin, hspeech.tells.trans ?_⟩
      have hrest := h.others _ hnodup
      rw [← hspeech.tells.pid] at hrest
      exact tells_others hrest
    · obtain ⟨origin, horigin, hsame, htold⟩ := h.origin _ hmem
      refine ⟨origin, List.mem_cons_of_mem _ horigin, hsame, Tells.trans (tells_others fun c hc => ?_) htold⟩
      refine hspeech.addressed c hc _ fun heq => ?_
      exact hnodup (heq ▸ List.mem_map_of_mem horigin)
  others pid hpid c hc := by
    rw [List.map_cons, List.mem_cons, not_or] at hpid
    rcases List.mem_append.mp hc with hc | hc
    · exact hspeech.addressed c hc pid hpid.1
    · exact h.others pid hpid.2 c hc

omit [Scalar K] [FloorRing K] in
theorem Tellings.skip (h : Tellings entries entries' calls) (hnodup : entry.tracker.pid ∉ entries.map (·.tracker.pid)) :
    Tellings (entry :: entries) (entry :: entries') calls :=
  h.cons hnodup rfl says_refl

omit [Scalar K] [FloorRing K] in
theorem tellings_wake (win : WindowId) {callback : KateWindowTracker K → KateWindowTracker K × List (Call K)}
    (hspeech : ∀ t : KateWindowTracker K, Says t (callback t)) {entries : List (Tracked K)}
    (hnodup : (entries.map (·.tracker.pid)).Nodup) :
    Tellings entries (Shell.wake win callback entries).1 (Shell.wake win callback entries).2 := by
  induction entries with
  | nil => exact tellings_refl
  | cons entry entries ih =>
    obtain ⟨hnew, hnodup⟩ := List.nodup_cons.mp hnodup
    unfold Shell.wake
    dsimp only
    split_ifs
    · exact (ih hnodup).cons hnew rfl (hspeech entry.tracker)
    · exact (ih hnodup).skip hnew

omit [Scalar K] [FloorRing K] in
theorem tellings_dispatch (sourcePid : ℤ) {handler : Tracked K → Option (KateWindowTracker K × List (Call K))}
    (hspeech : ∀ entry result, handler entry = some result → Says entry.tracker result) {entries : List (Tracked K)}
    (hnodup : (entries.map (·.tracker.pid)).Nodup) :
    Tellings entries (Shell.dispatch sourcePid handler entries).1 (Shell.dispatch sourcePid handler entries).2 := by
  induction entries with
  | nil => exact tellings_refl
  | cons entry entries ih =>
    obtain ⟨hnew, hnodup⟩ := List.nodup_cons.mp hnodup
    unfold Shell.dispatch
    dsimp only
    split_ifs
    · exact (ih hnodup).skip hnew
    · cases hhandled : handler entry with
      | some result =>
        have hfirst : Tellings (entry :: entries) (entry.update result :: entries) (result.2 ++ []) :=
          tellings_refl.cons hnew rfl (hspeech entry result hhandled)
        rwa [List.append_nil] at hfirst
      | none => exact (ih hnodup).skip hnew

end Tellings

/-! ### Calls that arrive -/

namespace Registry

variable {r : Registry K} {win : WindowId} {pid : ℕ} {c : Call K}

omit [FloorRing K] in
/-- A press sets up records, and keeps those that are there. -/
theorem frame_press (c : Canvas) {f : Frame K} (h : r.frame win = some f) : (r.press c).frame win = some f := by
  cases c with
  | none => exact h
  | some win' =>
    change (if win ∈ [win'] then recordOn (r.rect win) (r.frame win) else r.frame win) = some f
    split_ifs
    · rw [h, recordOn]
    · exact h

omit [FloorRing K] in
/-- A region that is set for a process is set for its windows that have a record or get one. -/
theorem area_setRegion (howns : r.Owns pid win) (hpid : pid ≠ 0)
    (hrecord : (recordOn (r.rect win) (r.frame win)).isSome) (x y : ℤ) {w h : ℤ} (hw : 0 < w) (hh : 0 < h) :
    ((r.call (.setWindowEditorRegion pid x y w h)).frame win).map Frame.area = some (some (areaOf ⟨x, y, w, h⟩)) := by
  obtain ⟨f, hf⟩ := Option.isSome_iff_exists.mp hrecord
  have hmem : win ∈ r.display.collectWindowsForPid pid := mem_collectWindowsForPid.mpr ⟨hpid, howns⟩
  unfold call write
  simp only [hmem, if_true, hf, Option.map_some]
  rw [Frame.area_withRegion, if_neg (by omega)]

omit [FloorRing K] in
theorem way_setScroll (howns : r.Owns pid win) (hpid : pid ≠ 0) (hrecord : (r.frame win).isSome) (scrollX scrollY : ℤ) :
    ((r.call (.setWindowScroll pid scrollX scrollY)).frame win).map Frame.way = some (wayOf (scrollX, scrollY)) := by
  obtain ⟨f, hf⟩ := Option.isSome_iff_exists.mp hrecord
  have hmem : win ∈ r.display.collectWindowsForPid pid := mem_collectWindowsForPid.mpr ⟨hpid, howns⟩
  unfold call write
  simp only [hmem, if_true, hf, Option.map_some]
  rfl

omit [FloorRing K] in
/-- A record stays until its window ends, and its region and scroll stay while none is written for its process. -/
theorem frame_call {f : Frame K} (howns : r.Owns pid win) (hmanaged : c ≠ .windowUnmanaged win)
    (h : r.frame win = some f) :
    ∃ f', (r.call c).frame win = some f' ∧ (extentsOf pid c = none → f'.area = f.area) ∧
      (offsetOf pid c = none → f'.way = f.way) := by
  have hsame : ∃ f', r.frame win = some f' ∧ (extentsOf pid c = none → f'.area = f.area) ∧
      (offsetOf pid c = none → f'.way = f.way) := ⟨f, h, fun _ => rfl, fun _ => rfl⟩
  cases c with
  | setWindowEditorRegion pid' x y w height =>
    unfold call write
    dsimp only
    split_ifs with hmem
    · refine ⟨f.withRegion x y w height, by rw [h, recordOn, Option.map_some], fun hother => ?_,
        fun _ => f.way_withRegion x y w height⟩
      rw [extentsOf, if_pos ((mem_collectWindowsForPid.mp hmem).2.2.symm.trans howns.2)] at hother
      cases hother
    · exact hsame
  | setWindowScroll pid' scrollX scrollY =>
    unfold call write
    dsimp only
    split_ifs with hmem
    · refine ⟨f.withScroll scrollX scrollY, by rw [h, Option.map_some], fun _ => rfl, fun hother => ?_⟩
      rw [offsetOf, if_pos ((mem_collectWindowsForPid.mp hmem).2.2.symm.trans howns.2)] at hother
      cases hother
    · exact hsame
  | windowUnmanaged win' =>
    have hne : win ≠ win' := fun heq => hmanaged (heq ▸ rfl)
    unfold call
    simp only [Function.update_of_ne hne]
    exact hsame
  | windowManaged win' data =>
    unfold call
    dsimp only
    split_ifs <;> exact hsame
  | _ => exact hsame

omit [FloorRing K] in
theorem area_call {a : Option (Area K)} (howns : r.Owns pid win) (hmanaged : c ≠ .windowUnmanaged win)
    (hother : extentsOf pid c = none) (h : (r.frame win).map Frame.area = some a) :
    ((r.call c).frame win).map Frame.area = some a := by
  obtain ⟨f, hf, harea⟩ := Option.map_eq_some_iff.mp h
  obtain ⟨f', hf', hkeeps, _⟩ := frame_call howns hmanaged hf
  rw [hf', Option.map_some, hkeeps hother, harea]

omit [FloorRing K] in
theorem way_call {a : K × K} (howns : r.Owns pid win) (hmanaged : c ≠ .windowUnmanaged win)
    (hother : offsetOf pid c = none) (h : (r.frame win).map Frame.way = some a) :
    ((r.call c).frame win).map Frame.way = some a := by
  obtain ⟨f, hf, hway⟩ := Option.map_eq_some_iff.mp h
  obtain ⟨f', hf', _, hkeeps⟩ := frame_call howns hmanaged hf
  rw [hf', Option.map_some, hkeeps hother, hway]

end Registry

end Annotations
