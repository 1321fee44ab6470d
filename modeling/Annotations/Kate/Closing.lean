import Annotations.Kate.Trackers
import Annotations.Publishing.Carried
import Annotations.Runs.Mailbox

/-! What the compositor holds of the regions that the trackers have published. A region
message sets the region of every window of its process, and the one that `destroy` sends
clears it for every window of the process, with a tracker or not. -/

namespace Annotations

open Atspi Runs

variable {K : Type} [Scalar K] [FloorRing K]

section Publications

variable {pid : ℕ} {calls : List (Call K)} {c : Call K}

omit [Scalar K] [FloorRing K] in
theorem Publishes.sets {b : Bool} (h : Publishes c) (hregion : regionOf pid c = some b) : b = true := by
  cases c with
  | setWindowEditorRegion pid' x y w height =>
    simp only [regionOf] at hregion
    split_ifs at hregion
    obtain rfl := Option.some.inj hregion
    obtain ⟨hw, hh⟩ : 0 < w ∧ 0 < height := h
    simp [hw, hh]
  | _ => cases hregion

omit [Scalar K] [FloorRing K] in
/-- Calls that only publish leave the region set, if they have one for the process. -/
theorem lastWrite_of_publishes (pid : ℕ) (h : ∀ c ∈ calls, Publishes c) :
    lastWrite (regionOf pid) calls = none ∨ lastWrite (regionOf pid) calls = some true := by
  cases hlast : lastWrite (regionOf pid) calls with
  | none => exact .inl rfl
  | some b =>
    obtain ⟨c, hc, hregion⟩ := exists_of_lastWrite hlast
    exact .inr (congrArg some ((h c hc).sets hregion))

end Publications

namespace Registry

variable (r : Registry K)

/-- The window has a record, and an editor region in it. -/
def holdsRegion (win : WindowId) : Bool := (r.frame win).any (·.hasEditorRegion)

/-- The window is one of the process. -/
def Owns (pid : ℕ) (win : WindowId) : Prop := win ∈ r.display.windows ∧ r.pid win = pid

variable {r} {win : WindowId} {pid : ℕ}

omit [FloorRing K] in
theorem holdsRegion_press (c : Canvas) (h : r.holdsRegion win) : (r.press c).holdsRegion win := by
  cases c with
  | none => exact h
  | some win' =>
    change ((if win ∈ [win'] then recordOn (r.rect win) (r.frame win) else r.frame win).any (·.hasEditorRegion)) = true
    unfold holdsRegion at h
    split_ifs
    · cases hframe : r.frame win with
      | none => simp [hframe] at h
      | some f =>
        rw [hframe] at h
        exact h
    · exact h

omit [FloorRing K] in
theorem withRegion_hasEditorRegion (f : Frame K) (x y : ℤ) {w h : ℤ} (hw : 0 < w) (hh : 0 < h) :
    (f.withRegion x y w h).hasEditorRegion = true := by
  unfold Frame.withRegion
  rw [if_neg (by omega)]

omit [FloorRing K] in
/-- A region is set for the windows of the process that have a record or get one. -/
theorem holdsRegion_setRegion (howns : r.Owns pid win) (hpid : pid ≠ 0)
    (hrecord : (recordOn (r.rect win) (r.frame win)).isSome) (x y : ℤ) {w h : ℤ} (hw : 0 < w) (hh : 0 < h) :
    (r.call (.setWindowEditorRegion pid x y w h)).holdsRegion win := by
  obtain ⟨f, hf⟩ := Option.isSome_iff_exists.mp hrecord
  have hmem : win ∈ r.display.collectWindowsForPid pid := mem_collectWindowsForPid.mpr ⟨hpid, howns⟩
  unfold holdsRegion call write
  simp only [hmem, if_true, hf, Option.map_some, Option.any_some]
  exact withRegion_hasEditorRegion f x y hw hh

omit [FloorRing K] in
/-- Only clearing the region of its process, and its end, take the region of a window. -/
theorem holdsRegion_call {c : Call K} (h : r.holdsRegion win) (hregion : regionOf (r.pid win) c ≠ some false)
    (hmanaged : c ≠ .windowUnmanaged win) : (r.call c).holdsRegion win := by
  have hframe : ∃ f, r.frame win = some f ∧ f.hasEditorRegion := by
    unfold holdsRegion at h
    cases hframe : r.frame win with
    | none => simp [hframe] at h
    | some f => exact ⟨f, rfl, by simpa [hframe] using h⟩
  obtain ⟨f, hframe, hf⟩ := hframe
  cases c with
  | setWindowEditorRegion pid x y w height =>
    by_cases hmem : win ∈ r.display.collectWindowsForPid pid
    · obtain ⟨hpid, howns⟩ := mem_collectWindowsForPid.mp hmem
      simp only [regionOf, howns.2, if_true, ne_eq, Option.some.injEq, Bool.and_eq_false_iff,
        decide_eq_false_iff_not, not_or, not_not] at hregion
      exact holdsRegion_setRegion howns hpid (by rw [hframe]; rfl) x y hregion.1 hregion.2
    · unfold holdsRegion call write
      simp only [hmem, if_false]
      exact h
  | setWindowScroll pid scrollX scrollY =>
    unfold holdsRegion call write
    dsimp only
    split_ifs
    · rw [hframe]
      exact hf
    · exact h
  | windowUnmanaged win' =>
    have hne : win ≠ win' := fun heq => hmanaged (heq ▸ rfl)
    unfold holdsRegion call
    simp only [Function.update_of_ne hne]
    exact h
  | windowManaged win' data =>
    unfold holdsRegion call
    dsimp only
    split_ifs <;> exact h
  | _ => exact h

omit [FloorRing K] in
/-- Only its end takes a window from its process. -/
theorem owns_call {c : Call K} (h : r.Owns pid win) (hmanaged : c ≠ .windowUnmanaged win) : (r.call c).Owns pid win := by
  have hmodify : ∀ (win' : WindowId) (g : MetaWindow → MetaWindow), (∀ w, (g w).pid = w.pid) →
      ((r.display.modifyWindow win' g).window win).pid = pid := by
    intro win' g hg
    unfold MetaDisplay.modifyWindow
    dsimp only
    by_cases heq : win = win'
    · rw [heq, Function.update_self, hg, ← heq]
      exact h.2
    · rw [Function.update_of_ne heq]
      exact h.2
  cases c with
  | windowFrameChanged win' frame => exact ⟨h.1, hmodify win' (fun w => { w with frameRect := frame }) fun _ => rfl⟩
  | windowMinimized win' minimized => exact ⟨h.1, hmodify win' (fun w => { w with minimized := minimized }) fun _ => rfl⟩
  | windowWorkspaceChanged win' workspace onAll =>
    exact ⟨h.1, hmodify win' (fun w => { w with workspace := workspace, onAllWorkspaces := onAll }) fun _ => rfl⟩
  | windowHidden win' hidden restacked =>
    exact ⟨h.1, hmodify win' (fun w => { w with hidden := hidden }) fun _ => rfl⟩
  | windowManaged win' data =>
    unfold call
    dsimp only
    split_ifs with hmem
    · exact h
    · have hne : win ≠ win' := fun heq => hmem (heq ▸ h.1)
      refine ⟨List.mem_cons_of_mem _ h.1, ?_⟩
      change (Function.update r.display.window win' data win).pid = pid
      rw [Function.update_of_ne hne]
      exact h.2
  | windowUnmanaged win' =>
    have hne : win ≠ win' := fun heq => hmanaged (heq ▸ rfl)
    exact ⟨List.mem_filter.mpr ⟨h.1, by simpa using hne⟩, h.2⟩
  | _ => exact h

end Registry

namespace Shell

variable {s : Shell K} {entry : Tracked K}

/-- The compositor keeps the region of a tracked window, or gets to once the calls under
way are delivered. -/
structure Keeps (s : Shell K) (entry : Tracked K) : Prop where
  owns : s.layer.registry.Owns entry.tracker.pid entry.win
  region : entry.published → lastWrite (regionOf entry.tracker.pid) s.bus = some true ∨
    lastWrite (regionOf entry.tracker.pid) s.bus = none ∧ s.layer.registry.holdsRegion entry.win

/-- No tracker is destroyed while another one of the same process has published, and a
region that is delivered finds the windows of its process with a record or a frame. -/
def allows (s : Shell K) : ShellOp K → Bool
  | .windowUnmanaged win =>
    s.trackers.all fun entry => entry.win ≠ win || entry.tracker.pid = 0 ||
      s.trackers.all fun other => other.win = win || !other.published || other.tracker.pid ≠ entry.tracker.pid
  | .deliver =>
    match s.bus with
    | .setWindowEditorRegion pid _ _ w h :: _ => w ≤ 0 || h ≤ 0 ||
      s.trackers.all fun entry => !entry.published || entry.tracker.pid ≠ pid ||
        pid ≠ 0 && (recordOn (s.layer.registry.rect entry.win) (s.layer.registry.frame entry.win)).isSome
    | _ => true
  | _ => true

omit [FloorRing K] in
theorem allows_deliver {pid : ℕ} {x y w h : ℤ} {bus : List (Call K)} (hallows : s.allows .deliver)
    (hbus : s.bus = .setWindowEditorRegion pid x y w h :: bus) (hw : 0 < w) (hh : 0 < h) (hentry : entry ∈ s.trackers)
    (hpublished : entry.published) (hpid : entry.tracker.pid = pid) :
    pid ≠ 0 ∧ (recordOn (s.layer.registry.rect entry.win) (s.layer.registry.frame entry.win)).isSome := by
  simp only [allows, hbus, Bool.or_eq_true, decide_eq_true_eq, List.all_eq_true] at hallows
  rcases hallows with (hw' | hh') | hall
  · omega
  · omega
  · simpa [hpublished, hpid] using hall entry hentry

omit [FloorRing K] in
theorem allows_windowUnmanaged {win : WindowId} {other : Tracked K} (hallows : s.allows (.windowUnmanaged win))
    (hentry : entry ∈ s.trackers) (hwin : entry.win = win) (hpid : 0 < entry.tracker.pid) (hother : other ∈ s.trackers)
    (hne : other.win ≠ win) (hpublished : other.published) : other.tracker.pid ≠ entry.tracker.pid := by
  have hall := List.all_eq_true.mp hallows entry hentry
  simp only [hwin, hpid.ne', ne_eq, not_true_eq_false, decide_false, Bool.false_or, List.all_eq_true] at hall
  simpa [hne, hpublished] using hall other hother

omit [FloorRing K] in
/-- What the layer does by itself keeps the region. -/
theorem Keeps.opStep (h : s.Keeps entry) {op : Op K} (hop : op.local) :
    Keeps { s with layer := s.layer.opStep op } entry := by
  have hstep : (s.layer.opStep op).registry.Owns entry.tracker.pid entry.win ∧
      (s.layer.registry.holdsRegion entry.win → (s.layer.opStep op).registry.holdsRegion entry.win) := by
    cases op with
    | route event nowUs =>
      rcases MetaAnnotationLayer.registry_route s.layer event nowUs with hsame | ⟨c, hpress⟩
      · rw [hsame]
        exact ⟨h.owns, id⟩
      · rw [hpress]
        refine ⟨?_, Registry.holdsRegion_press c⟩
        cases c <;> exact h.owns
    | call c =>
      have hcall : (s.layer.opStep (.call c)).registry = s.layer.registry.call c :=
        MetaAnnotationLayer.registry_execCall c
      rw [hcall]
      have hmanaged : c ≠ .windowUnmanaged entry.win := by
        rintro rfl
        cases hop
      refine ⟨Registry.owns_call h.owns hmanaged, fun hholds => Registry.holdsRegion_call hholds ?_ hmanaged⟩
      cases c with
      | setWindowEditorRegion => cases hop
      | _ => simp [regionOf]
  exact ⟨hstep.1, fun hpublished => (h.region hpublished).imp_right fun hlast => ⟨hlast.1, hstep.2 hlast.2⟩⟩

omit [Scalar K] [FloorRing K] in
/-- Trackers that run and publish. -/
theorem keeps_send {entries : List (Tracked K)} {calls : List (Call K)} (h : ∀ entry ∈ s.trackers, s.Keeps entry)
    (hrelays : Relays s.trackers entries calls) : ∀ entry ∈ entries, (s.send (entries, calls)).Keeps entry := by
  intro entry' hentry'
  obtain ⟨entry, hentry, hwin, hpid, hpublished⟩ := hrelays.origin entry' hentry'
  obtain ⟨howns, hregion⟩ := h entry hentry
  refine ⟨by rw [hwin, hpid]; exact howns, fun hpublished' => ?_⟩
  have hbus : lastWrite (regionOf entry'.tracker.pid) (s.send (entries, calls)).bus =
      (lastWrite (regionOf entry.tracker.pid) calls).or (lastWrite (regionOf entry.tracker.pid) s.bus) := by
    rw [hpid]
    exact lastWrite_append
  rw [hbus, hwin]
  rcases lastWrite_of_publishes entry.tracker.pid hrelays.publishes with hnone | hset
  · rw [hnone, Option.none_or]
    rcases hpublished hpublished' with hbefore | ⟨c, hc, hsent⟩
    · exact hregion hbefore
    · exact absurd (lastWrite_eq_none.mp hnone c hc) (Option.isSome_iff_ne_none.mp hsent)
  · rw [hset]
    exact .inl rfl

/-- Nothing under way ends a window. -/
def Posted (s : Shell K) : Prop := ∀ c ∈ s.bus, ∀ win, c ≠ .windowUnmanaged win

theorem keeps_deliver (hposted : s.Posted) (h : ∀ entry ∈ s.trackers, s.Keeps entry) (hallows : s.allows .deliver) :
    ∀ entry ∈ (s.step .deliver).trackers, (s.step .deliver).Keeps entry := by
  intro entry
  cases hbus : s.bus with
  | nil => simpa [step, hbus] using h entry
  | cons c bus =>
    have hdelivered : s.step .deliver = { s with layer := s.layer.opStep (.call c), bus := bus } := by
      simp only [step, hbus]
    have hcall : (s.layer.opStep (.call c)).registry = s.layer.registry.call c :=
      MetaAnnotationLayer.registry_execCall c
    rw [hdelivered]
    intro hentry
    obtain ⟨howns, hregion⟩ := h entry hentry
    have hmanaged : c ≠ .windowUnmanaged entry.win := hposted c (by simp [hbus]) entry.win
    refine ⟨hcall ▸ Registry.owns_call howns hmanaged, fun hpublished => ?_⟩
    have hlast := hregion hpublished
    rw [hbus, lastWrite_cons] at hlast
    cases hrest : lastWrite (regionOf entry.tracker.pid) bus with
    | some b => simpa [hrest] using hlast
    | none =>
      rw [hrest, Option.none_or] at hlast
      refine .inr ⟨rfl, ?_⟩
      change (s.layer.opStep (.call c)).registry.holdsRegion entry.win = true
      rw [hcall]
      rcases hlast with hset | ⟨hother, hholds⟩
      · -- the last region message of the process, and it sets one
        cases c with
        | setWindowEditorRegion pid x y w height =>
          simp only [regionOf] at hset
          split_ifs at hset with hpid
          simp only [Option.some.injEq, Bool.and_eq_true, decide_eq_true_eq] at hset
          obtain ⟨hzero, hrecord⟩ := allows_deliver hallows hbus hset.1 hset.2 hentry hpublished hpid.symm
          exact Registry.holdsRegion_setRegion (hpid ▸ howns) hzero hrecord x y hset.1 hset.2
        | _ => cases hset
      · exact Registry.holdsRegion_call hholds (by rw [howns.2, hother]; simp) hmanaged

theorem keeps_windowUnmanaged {win : WindowId} (h : ∀ entry ∈ s.trackers, s.Keeps entry)
    (hallows : s.allows (.windowUnmanaged win)) :
    ∀ entry ∈ (s.step (.windowUnmanaged win)).trackers, (s.step (.windowUnmanaged win)).Keeps entry := by
  intro entry hentry
  obtain ⟨hentry, hother⟩ : entry ∈ s.trackers ∧ entry.win ≠ win := by
    simpa [step, destroyTrackers, send] using hentry
  obtain ⟨howns, hregion⟩ := h entry hentry
  have hcall : (s.layer.opStep (.call (.windowUnmanaged win))).registry = s.layer.registry.call (.windowUnmanaged win) :=
    MetaAnnotationLayer.registry_execCall _
  have hmanaged : (.windowUnmanaged win : Call K) ≠ .windowUnmanaged entry.win := by
    simpa using hother.symm
  have hlayer : (s.step (.windowUnmanaged win)).layer.registry = s.layer.registry.call (.windowUnmanaged win) := hcall
  refine ⟨by rw [hlayer]; exact Registry.owns_call howns hmanaged, fun hpublished => ?_⟩
  -- the region that `destroy` clears is that of another process
  have hdestroyed : lastWrite (regionOf entry.tracker.pid)
      ((s.trackers.filter fun other => other.win = win).flatMap (·.tracker.destroy)) = none := by
    have hnone : ∀ c ∈ (s.trackers.filter fun other => other.win = win).flatMap (·.tracker.destroy),
        regionOf entry.tracker.pid c = none := by
      intro c hc
      obtain ⟨gone, hgone, hc⟩ := List.mem_flatMap.mp hc
      obtain ⟨hmem, hwin⟩ := List.mem_filter.mp hgone
      unfold KateWindowTracker.destroy at hc
      split_ifs at hc with hpid
      · obtain rfl := List.mem_singleton.mp hc
        have hne := allows_windowUnmanaged hallows hmem (by simpa using hwin) hpid hentry hother hpublished
        simp [regionOf, hne.symm]
      · cases hc
    exact lastWrite_eq_none.mpr hnone
  have hbus : lastWrite (regionOf entry.tracker.pid) (s.step (.windowUnmanaged win)).bus = lastWrite (regionOf entry.tracker.pid) s.bus := by
    have happend : (s.step (.windowUnmanaged win)).bus =
        s.bus ++ (s.trackers.filter fun other => other.win = win).flatMap (·.tracker.destroy) := rfl
    rw [happend, lastWrite_append, hdestroyed, Option.none_or]
  rw [hbus, hlayer]
  exact (hregion hpublished).imp_right fun hlast =>
    ⟨hlast.1, Registry.holdsRegion_call hlast.2 (by simp [regionOf]) hmanaged⟩

omit [Scalar K] [FloorRing K] in
/-- An accessibility event. -/
theorem keeps_onAtspiEvent (h : ∀ entry ∈ s.trackers, s.Keeps entry) (sourcePid : ℤ)
    {handler : Tracked K → Option (KateWindowTracker K × List (Call K))}
    (hsends : ∀ entry result, handler entry = some result → entry.tracker.Sends result) :
    ∀ entry ∈ (s.onAtspiEvent sourcePid handler).trackers, (s.onAtspiEvent sourcePid handler).Keeps entry := by
  unfold onAtspiEvent
  split_ifs
  · exact h
  · exact keeps_send h (relays_dispatch sourcePid hsends _)

omit [FloorRing K] in
theorem keeps_trackIfNew {win : WindowId} (h : ∀ entry ∈ s.trackers, s.Keeps entry)
    (hwin : win ∈ s.layer.display.windows) :
    ∀ entry ∈ (s.trackIfNew win).trackers, (s.trackIfNew win).Keeps entry := by
  unfold trackIfNew
  split_ifs
  · exact h
  · intro entry hentry
    rcases List.mem_append.mp hentry with hmem | hnew
    · exact ⟨(h entry hmem).owns, (h entry hmem).region⟩
    · obtain rfl := List.mem_singleton.mp hnew
      exact ⟨⟨hwin, rfl⟩, fun hpublished => by cases hpublished⟩

theorem keeps_step (hposted : s.Posted) (h : ∀ entry ∈ s.trackers, s.Keeps entry) (op : ShellOp K) (hallows : s.allows op) :
    ∀ entry ∈ (s.step op).trackers, (s.step op).Keeps entry := by
  cases op with
  | compositor op =>
    cases hop : op.local with
    | true =>
      intro entry hentry
      simp only [step, hop, if_true] at hentry ⊢
      exact (h entry hentry).opStep hop
    | false =>
      intro entry hentry
      simp only [step, hop, Bool.false_eq_true, if_false] at hentry ⊢
      exact h entry hentry
  | deliver => exact keeps_deliver hposted h hallows
  | windowCreated win =>
    by_cases hwin : win ∈ s.layer.display.windows
    · simpa only [step, hwin, if_true] using keeps_trackIfNew h hwin
    · simpa only [step, hwin, if_false] using h
  | windowUnmanaged win => exact keeps_windowUnmanaged h hallows
  | retry win view => exact keeps_send h (relays_wake win (fun t => t.sends_handle _) _)
  | poll win view => exact keeps_send h (relays_wake win (fun t => t.sends_handle _) _)
  | geometryChanged win view => exact keeps_send h (relays_wake win (fun t => t.sends_handle _) _)
  | valueChanged source view =>
    exact keeps_onAtspiEvent h _ fun entry result hhandled =>
      KateWindowTracker.sends_handleValueChangedSource hhandled
  | boundsChanged source view =>
    exact keeps_onAtspiEvent h _ fun entry result hhandled =>
      KateWindowTracker.sends_handleBoundsChangedSource hhandled
  | disable =>
    intro entry hentry
    simp [step, destroyTrackers, send] at hentry

omit [Scalar K] [FloorRing K] in
theorem posted_send (h : s.Posted) {result : List (Tracked K) × List (Call K)} (hpublishes : ∀ c ∈ result.2, Publishes c) :
    (s.send result).Posted := by
  intro c hc win
  rcases List.mem_append.mp hc with hbus | hsent
  · exact h c hbus win
  · rintro rfl
    exact hpublishes _ hsent

omit [Scalar K] [FloorRing K] in
theorem posted_destroyTrackers (h : s.Posted) (gone : Tracked K → Bool) : (s.destroyTrackers gone).Posted := by
  intro c hc win
  rcases List.mem_append.mp hc with hbus | hsent
  · exact h c hbus win
  · obtain ⟨entry, _, hc⟩ := List.mem_flatMap.mp hsent
    unfold KateWindowTracker.destroy at hc
    split_ifs at hc
    · obtain rfl := List.mem_singleton.mp hc
      simp
    · cases hc

theorem posted_step (h : s.Posted) (op : ShellOp K) : (s.step op).Posted := by
  have hatspi : ∀ sourcePid handler, (∀ entry result, handler entry = some result → entry.tracker.Sends result) →
      (s.onAtspiEvent sourcePid handler).Posted := by
    intro sourcePid handler hsends
    unfold onAtspiEvent
    split_ifs
    · exact h
    · exact posted_send h (relays_dispatch sourcePid hsends _).publishes
  cases op with
  | compositor op =>
    simp only [step]
    split_ifs <;> exact h
  | deliver =>
    simp only [step]
    cases hbus : s.bus with
    | nil => exact h
    | cons c bus => exact fun c' hc' => h c' (by rw [hbus]; exact List.mem_cons_of_mem _ hc')
  | windowCreated win =>
    simp only [step, trackIfNew]
    split_ifs <;> exact h
  | windowUnmanaged win => exact posted_destroyTrackers (s := { s with layer := _ }) h _
  | retry win view => exact posted_send h (relays_wake win (fun t => t.sends_handle _) _).publishes
  | poll win view => exact posted_send h (relays_wake win (fun t => t.sends_handle _) _).publishes
  | geometryChanged win view => exact posted_send h (relays_wake win (fun t => t.sends_handle _) _).publishes
  | valueChanged source view =>
    exact hatspi _ _ fun entry result hhandled => KateWindowTracker.sends_handleValueChangedSource hhandled
  | boundsChanged source view =>
    exact hatspi _ _ fun entry result hhandled => KateWindowTracker.sends_handleBoundsChangedSource hhandled
  | disable => exact posted_destroyTrackers h _

/-- After a run that closes no window beside another one of its process, and once all
calls are delivered, the compositor holds a region for the window of every tracker that
has published one. -/
theorem holdsRegion_of_published (display : MetaDisplay) (input : AnnotationInput K) (width height : ℤ)
    (ops : List (ShellOp K)) (hallows : Along step (fun s op => s.allows op) (start display input width height) ops) :
    let s := run step (start display input width height) ops
    s.bus = [] → ∀ entry ∈ s.trackers, entry.published → s.layer.registry.holdsRegion entry.win := by
  intro s hbus entry hentry hpublished
  have hkeeps : s.Posted ∧ ∀ entry ∈ s.trackers, s.Keeps entry :=
    hallows.invariant (P := fun s => s.Posted ∧ ∀ entry ∈ s.trackers, s.Keeps entry)
      (fun s op h hop => ⟨posted_step h.1 op, keeps_step h.1 h.2 op hop⟩) ⟨by simp [Posted, start], by simp [start]⟩
  rcases (hkeeps.2 entry hentry).region hpublished with hlast | ⟨_, hholds⟩
  · rw [hbus] at hlast
    cases hlast
  · exact hholds

/-- The window `0` of process 7, and beside it the window `1` of the given process. -/
def beside (pid : ℕ) : MetaDisplay where
  windows := [1, 0]
  window win := ⟨⟨0, 0, 410, 400⟩, false, false, false, .normal, true, none, if win = 0 then 7 else pid, 0, 0⟩
  activeWorkspace := some 0

/-- The region of a window stays when the window of another process is closed. -/
theorem holdsRegion_of_published_beside :
    let view := KateWindowTracker.document 0 ⟨5, 0, 8, 0⟩
    let ops : List (ShellOp ℚ) := [.windowCreated 0, .windowCreated 1, .retry 0 view, .deliver, .windowUnmanaged 1,
      .deliver, .deliver]
    (run step (start (beside 8) .initial 500 500) ops).layer.registry.holdsRegion 0 := by
  intro view ops
  have hallows : Along step (fun s op => s.allows op) (start (beside 8) .initial 500 500) ops :=
    ⟨rfl, rfl, rfl, by decide +kernel, by decide +kernel, by decide +kernel, by decide +kernel, trivial⟩
  let s := run step (start (beside 8) .initial 500 500) ops
  have hentry : ∃ entry ∈ s.trackers, entry.win = 0 ∧ entry.published := by
    have hany : s.trackers.any (fun entry => entry.win = 0 && entry.published) = true := by decide +kernel
    simpa using hany
  obtain ⟨entry, hmem, hwin, hpublished⟩ := hentry
  have hbus : s.bus.isEmpty = true := by decide +kernel
  rw [← hwin]
  exact holdsRegion_of_published (beside 8) .initial 500 500 ops hallows (List.isEmpty_iff.mp hbus) entry hmem hpublished

/-- Closing a window clears the region of the other window of its process, and the
tracker of that one does not publish it again. -/
theorem not_holdsRegion_closed :
    let view := KateWindowTracker.document 0 ⟨5, 0, 8, 0⟩
    let ops : List (ShellOp ℚ) := [.windowCreated 0, .windowCreated 1, .retry 0 view, .retry 1 view, .deliver, .deliver,
      .deliver, .deliver, .windowUnmanaged 1, .deliver, .geometryChanged 0 view, .deliver]
    let s := run step (start (beside 7) .initial 500 500) ops
    s.bus.isEmpty ∧ s.trackers.any (fun entry => entry.win = 0 && entry.published) ∧
      s.layer.registry.holdsRegion 0 = false := by
  decide +kernel

end Shell

end Annotations
