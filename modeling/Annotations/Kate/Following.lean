import Annotations.Kate.Telling

/-! The compositor follows the trackers. The region and the scroll of a tracked window are written by its tracker,
over a bus, and what the compositor has for the window is what was published for it last once all calls have arrived.
This needs that no tracked window shares its process with another one, and that a call which arrives finds a record
to write. -/

namespace Annotations

open Atspi Runs
open Scalar (toFloat)

variable {K : Type} [Scalar K] [FloorRing K]

open KateWindowTracker

namespace Shell

variable {s : Shell K} {entry : Tracked K} {op : ShellOp K}

/-! ### What a step sends -/

/-- The calls that a step puts on the bus. -/
def sent (s : Shell K) : ShellOp K → List (Call K)
  | .deliver => []
  | op => (s.step op).bus.drop s.bus.length

theorem sent_of_ne (hop : op ≠ .deliver) : s.sent op = (s.step op).bus.drop s.bus.length := by
  cases op with
  | deliver => exact absurd rfl hop
  | _ => rfl

theorem bus_step (hop : op ≠ .deliver) : (s.step op).bus = s.bus ++ s.sent op := by
  have hprefix : s.bus <+: (s.step op).bus := by
    cases op with
    | deliver => exact absurd rfl hop
    | compositor op =>
      simp only [step]
      split_ifs <;> exact List.prefix_rfl
    | windowCreated win =>
      simp only [step, trackIfNew]
      split_ifs <;> exact List.prefix_rfl
    | valueChanged source view =>
      simp only [step, onAtspiEvent]
      split_ifs
      · exact List.prefix_rfl
      · exact List.prefix_append _ _
    | boundsChanged source view =>
      simp only [step, onAtspiEvent]
      split_ifs
      · exact List.prefix_rfl
      · exact List.prefix_append _ _
    | _ => exact List.prefix_append _ _
  obtain ⟨calls, hcalls⟩ := hprefix
  rw [sent_of_ne hop, ← hcalls, List.drop_left]

/-- The window has a tracker. -/
def tracks (s : Shell K) (win : WindowId) : Bool := s.trackers.any fun entry => entry.win = win

/-- What a step publishes for a window: the last of the calls it sends that write, or `none` if the window has no
tracker afterwards. -/
def publishes {α : Type} (write : Call K → Option α) (win : WindowId) (s : Shell K) (op : ShellOp K) :
    Option (Option α) :=
  if (s.step op).tracks win then (lastWrite write (s.sent op)).map some else some none

/-! ### The entries after a step -/

def pids (s : Shell K) : List ℕ := s.trackers.map (·.tracker.pid)

/-- Every tracked window is one of the process of its tracker, and no two trackers have one process. -/
structure InStep (s : Shell K) : Prop where
  posted : s.Posted
  pids : s.pids.Nodup
  owns : ∀ entry ∈ s.trackers, s.layer.registry.Owns entry.tracker.pid entry.win

/-- A window is not tracked beside another one of its process, and a call that arrives finds a record to write for
the tracked windows of its process, or sets one up. -/
def lossless (s : Shell K) : ShellOp K → Bool
  | .windowCreated win =>
    s.trackers.any (fun entry => entry.win = win) || decide ((s.layer.display.window win).pid ∉ s.pids)
  | .deliver =>
    match s.bus with
    | .setWindowEditorRegion pid _ _ w h :: _ => w ≤ 0 || h ≤ 0 || s.trackers.all fun entry =>
      entry.tracker.pid ≠ pid ||
        pid ≠ 0 && (recordOn (s.layer.registry.rect entry.win) (s.layer.registry.frame entry.win)).isSome
    | .setWindowScroll pid _ _ :: _ => s.trackers.all fun entry =>
      entry.tracker.pid ≠ pid || pid ≠ 0 && (s.layer.registry.frame entry.win).isSome
    | _ => true
  | _ => true

omit [FloorRing K] in
theorem lossless_region {pid : ℕ} {x y w h : ℤ} {bus : List (Call K)} (hlossless : s.lossless .deliver)
    (hbus : s.bus = .setWindowEditorRegion pid x y w h :: bus) (hw : 0 < w) (hh : 0 < h) (hentry : entry ∈ s.trackers)
    (hpid : entry.tracker.pid = pid) :
    pid ≠ 0 ∧ (recordOn (s.layer.registry.rect entry.win) (s.layer.registry.frame entry.win)).isSome := by
  simp only [lossless, hbus, Bool.or_eq_true, decide_eq_true_eq, List.all_eq_true] at hlossless
  rcases hlossless with (hw' | hh') | hall
  · omega
  · omega
  · simpa [hpid] using hall entry hentry

omit [FloorRing K] in
theorem lossless_scroll {pid : ℕ} {scrollX scrollY : ℤ} {bus : List (Call K)} (hlossless : s.lossless .deliver)
    (hbus : s.bus = .setWindowScroll pid scrollX scrollY :: bus) (hentry : entry ∈ s.trackers)
    (hpid : entry.tracker.pid = pid) : pid ≠ 0 ∧ (s.layer.registry.frame entry.win).isSome := by
  simp only [lossless, hbus, List.all_eq_true] at hlossless
  simpa [hpid] using hlossless entry hentry

/-- The entry was there before the step, and its tracker told what it remembers now; or it is new, and has not said
anything. -/
inductive Origin (s : Shell K) (op : ShellOp K) (entry' : Tracked K) : Prop
  | old (entry : Tracked K) (hentry : entry ∈ s.trackers) (hwin : entry'.win = entry.win)
    (hop : op ≠ .windowUnmanaged entry.win) (htells : Tells entry.tracker entry'.tracker (s.sent op))
  | new (huntracked : s.tracks entry'.win = false) (hsent : s.sent op = [])
    (howns : s.layer.registry.Owns entry'.tracker.pid entry'.win ∧ (s.step op).layer = s.layer)
    (hregion : entry'.tracker.lastRegionSig = none) (hscroll : entry'.tracker.lastScrollY = none)

theorem sent_eq_nil (hbus : (s.step op).bus = s.bus) : s.sent op = [] := by
  by_cases hop : op = .deliver
  · rw [hop, sent]
  · rw [sent_of_ne hop, hbus, List.drop_length]

theorem sent_eq {calls : List (Call K)} (hop : op ≠ .deliver) (hbus : (s.step op).bus = s.bus ++ calls) :
    s.sent op = calls :=
  List.append_cancel_left ((bus_step hop).symm.trans hbus)

omit [Scalar K] [FloorRing K] in
/-- What the trackers of a window say at their end is for their process alone. -/
theorem destroyed_others (hpids : s.pids.Nodup) {win : WindowId} (hentry : entry ∈ s.trackers) (hother : entry.win ≠ win) :
    ∀ c ∈ (s.trackers.filter fun other => other.win = win).flatMap (·.tracker.destroy),
      extentsOf entry.tracker.pid c = none ∧ offsetOf entry.tracker.pid c = none := by
  intro c hc
  obtain ⟨gone, hgone, hc⟩ := List.mem_flatMap.mp hc
  obtain ⟨hmem, hwin⟩ := List.mem_filter.mp hgone
  unfold KateWindowTracker.destroy at hc
  split_ifs at hc
  · obtain rfl := List.mem_singleton.mp hc
    refine ⟨if_neg fun heq => ?_, rfl⟩
    have hsame := List.inj_on_of_nodup_map hpids hmem hentry heq
    exact hother (by rw [← hsame]; simpa using hwin)
  · cases hc

theorem origin_step (hpids : s.pids.Nodup) (op : ShellOp K) : ∀ entry' ∈ (s.step op).trackers, Origin s op entry' := by
  intro entry' hentry'
  -- a step that leaves the trackers and the bus
  have hquiet : (s.step op).trackers = s.trackers → (s.step op).bus = s.bus ∨ op = .deliver →
      (∀ win, op ≠ .windowUnmanaged win) → Origin s op entry' := by
    intro htrackers hbus hop
    have hsent : s.sent op = [] := by
      rcases hbus with hbus | rfl
      · exact sent_eq_nil hbus
      · rfl
    rw [htrackers] at hentry'
    exact .old entry' hentry' rfl (hop _) (hsent ▸ tells_quiet rfl rfl (.inl rfl))
  -- a step that runs callbacks
  have hspoken : ∀ {entries : List (Tracked K)} {calls : List (Call K)}, s.step op = s.send (entries, calls) →
      Tellings s.trackers entries calls → op ≠ .deliver → (∀ win, op ≠ .windowUnmanaged win) → Origin s op entry' := by
    intro entries calls hstep htellings hdeliver hop
    rw [hstep] at hentry'
    obtain ⟨entry, hentry, hwin, htells⟩ := htellings.origin entry' hentry'
    have hsent : s.sent op = calls := sent_eq hdeliver (by rw [hstep]; rfl)
    exact .old entry hentry hwin (hop _) (hsent ▸ htells)
  cases op with
  | compositor op =>
    refine hquiet ?_ (.inl ?_) (by simp)
    · simp only [step]
      split_ifs <;> rfl
    · simp only [step]
      split_ifs <;> rfl
  | deliver =>
    refine hquiet ?_ (.inr rfl) (by simp)
    simp only [step]
    cases s.bus <;> rfl
  | windowCreated win =>
    by_cases hwin : win ∈ s.layer.display.windows
    · have hstep : s.step (.windowCreated win) = s.trackIfNew win := if_pos hwin
      unfold trackIfNew at hstep
      split_ifs at hstep with htracked
      · exact hquiet (by rw [hstep]) (.inl (by rw [hstep])) (by simp)
      · rw [hstep] at hentry'
        have hsent : s.sent (.windowCreated win) = [] := sent_eq_nil (by rw [hstep])
        rcases List.mem_append.mp hentry' with hmem | hnew
        · exact .old entry' hmem rfl (by simp) (hsent ▸ tells_quiet rfl rfl (.inl rfl))
        · obtain rfl := List.mem_singleton.mp hnew
          exact .new (by simpa [tracks] using htracked) hsent ⟨⟨hwin, rfl⟩, by rw [hstep]⟩ rfl rfl
    · have hstep : s.step (.windowCreated win) = s := if_neg hwin
      exact hquiet (by rw [hstep]) (.inl (by rw [hstep])) (by simp)
  | windowUnmanaged win =>
    obtain ⟨hmem, hother⟩ : entry' ∈ s.trackers ∧ entry'.win ≠ win := by
      simpa [step, destroyTrackers, send] using hentry'
    have hsent : s.sent (.windowUnmanaged win) =
        (s.trackers.filter fun other => other.win = win).flatMap (·.tracker.destroy) := sent_eq (by simp) rfl
    refine .old entry' hmem rfl (by simpa using hother.symm) ?_
    rw [hsent]
    exact tells_others (destroyed_others hpids hmem hother)
  | retry win view => exact hspoken rfl (tellings_wake win (fun _ => says_retryDiscovery) hpids) (by simp) (by simp)
  | poll win view => exact hspoken rfl (tellings_wake win (fun _ => says_poll) hpids) (by simp) (by simp)
  | geometryChanged win view =>
    exact hspoken rfl (tellings_wake win (fun _ => says_republishRegion view (s.minimized win)) hpids) (by simp) (by simp)
  | valueChanged source view =>
    by_cases hsource : view.pid source ≤ 0
    · have hstep : s.step (.valueChanged source view) = s := if_pos hsource
      exact hquiet (by rw [hstep]) (.inl (by rw [hstep])) (by simp)
    · refine hspoken (if_neg hsource) (tellings_dispatch _ (fun entry result hhandled => ?_) hpids) (by simp) (by simp)
      exact says_handleValueChangedSource hhandled
  | boundsChanged source view =>
    by_cases hsource : view.pid source ≤ 0
    · have hstep : s.step (.boundsChanged source view) = s := if_pos hsource
      exact hquiet (by rw [hstep]) (.inl (by rw [hstep])) (by simp)
    · refine hspoken (if_neg hsource) (tellings_dispatch _ (fun entry result hhandled => ?_) hpids) (by simp) (by simp)
      exact says_handleBoundsChangedSource hhandled
  | disable => simp [step, destroyTrackers, send] at hentry'

omit [FloorRing K] in
theorem nodup_trackIfNew {win : WindowId} (hpids : s.pids.Nodup)
    (hnew : s.trackers.any (fun entry => entry.win = win) ∨ (s.layer.display.window win).pid ∉ s.pids) :
    (s.trackIfNew win).pids.Nodup := by
  unfold trackIfNew
  split_ifs with htracked
  · exact hpids
  · unfold pids
    rw [List.map_append, List.nodup_append]
    refine ⟨hpids, List.nodup_singleton _, fun pid hpid pid' hpid' => ?_⟩
    obtain rfl := List.mem_singleton.mp hpid'
    rintro rfl
    exact hnew.resolve_left htracked hpid

omit [Scalar K] [FloorRing K] in
theorem nodup_send (hpids : s.pids.Nodup) {result : List (Tracked K) × List (Call K)}
    (htellings : Tellings s.trackers result.1 result.2) : (s.send result).pids.Nodup := by
  change (result.1.map (·.tracker.pid)).Nodup
  rw [htellings.pids]
  exact hpids

omit [Scalar K] [FloorRing K] in
theorem nodup_onAtspiEvent (hpids : s.pids.Nodup) (sourcePid : ℤ)
    {handler : Tracked K → Option (KateWindowTracker K × List (Call K))}
    (hspeech : ∀ entry result, handler entry = some result → Says entry.tracker result) :
    (s.onAtspiEvent sourcePid handler).pids.Nodup := by
  unfold onAtspiEvent
  split_ifs
  · exact hpids
  · exact nodup_send hpids (tellings_dispatch sourcePid hspeech hpids)

theorem nodup_step (hpids : s.pids.Nodup) (hlossless : s.lossless op) : (s.step op).pids.Nodup := by
  cases op with
  | compositor op =>
    simp only [step]
    split_ifs <;> exact hpids
  | deliver =>
    simp only [step]
    cases s.bus <;> exact hpids
  | windowCreated win =>
    simp only [step]
    split_ifs
    · simp only [lossless, Bool.or_eq_true, decide_eq_true_eq] at hlossless
      exact nodup_trackIfNew hpids hlossless
    · exact hpids
  | windowUnmanaged win => exact hpids.sublist (List.filter_sublist.map _)
  | retry win view => exact nodup_send hpids (tellings_wake win (fun _ => says_retryDiscovery) hpids)
  | poll win view => exact nodup_send hpids (tellings_wake win (fun _ => says_poll) hpids)
  | geometryChanged win view =>
    exact nodup_send hpids (tellings_wake win (fun _ => says_republishRegion view (s.minimized win)) hpids)
  | valueChanged source view =>
    exact nodup_onAtspiEvent hpids _ fun entry result hhandled => says_handleValueChangedSource hhandled
  | boundsChanged source view =>
    exact nodup_onAtspiEvent hpids _ fun entry result hhandled => says_handleBoundsChangedSource hhandled
  | disable => exact hpids.sublist (List.filter_sublist.map _)

/-! ### What the compositor holds -/

/-- What a step does to the records of the compositor. -/
inductive Writes (s : Shell K) (op : ShellOp K) : Prop
  | nothing (h : (s.step op).layer.registry = s.layer.registry)
  | press (canvas : Canvas) (h : (s.step op).layer.registry = s.layer.registry.press canvas)
  | call (call : Call K) (hcall : (Op.call call).local ∨ ∃ win, op = .windowUnmanaged win ∧ call = .windowUnmanaged win)
    (h : (s.step op).layer.registry = s.layer.registry.call call)
  | arrival (call : Call K) (bus : List (Call K)) (hop : op = .deliver) (hbus : s.bus = call :: bus)
    (h : (s.step op).layer.registry = s.layer.registry.call call)

theorem writes_step (s : Shell K) (op : ShellOp K) : Writes s op := by
  have hcall : ∀ call : Call K, (s.layer.opStep (.call call)).registry = s.layer.registry.call call :=
    MetaAnnotationLayer.registry_execCall
  cases op with
  | compositor op =>
    by_cases hlocal : op.local = true
    · have hstep : s.step (.compositor op) = { s with layer := s.layer.opStep op } := if_pos hlocal
      cases op with
      | route event nowUs =>
        rcases MetaAnnotationLayer.registry_route s.layer event nowUs with hsame | ⟨canvas, hpress⟩
        · exact .nothing (by rw [hstep]; exact hsame)
        · exact .press canvas (by rw [hstep]; exact hpress)
      | call call => exact .call call (.inl hlocal) (by rw [hstep]; exact hcall call)
    · have hstep : s.step (.compositor op) = s := if_neg hlocal
      exact .nothing (by rw [hstep])
  | deliver =>
    cases hbus : s.bus with
    | nil =>
      have hstep : s.step .deliver = s := by simp only [step, hbus]
      exact .nothing (by rw [hstep])
    | cons call bus =>
      have hstep : s.step .deliver = { s with layer := s.layer.opStep (.call call), bus := bus } := by
        simp only [step, hbus]
      exact .arrival call bus rfl hbus (by rw [hstep]; exact hcall call)
  | windowCreated win =>
    refine .nothing ?_
    simp only [step, trackIfNew]
    split_ifs <;> rfl
  | windowUnmanaged win => exact .call (.windowUnmanaged win) (.inr ⟨win, rfl, rfl⟩) (hcall _)
  | valueChanged source view =>
    refine .nothing ?_
    simp only [step, onAtspiEvent]
    split_ifs <;> rfl
  | boundsChanged source view =>
    refine .nothing ?_
    simp only [step, onAtspiEvent]
    split_ifs <;> rfl
  | _ => exact .nothing rfl

omit [Scalar K] [FloorRing K] in
/-- A call of the step does not end a window that is not closed. -/
theorem ne_windowUnmanaged {call : Call K} {win : WindowId}
    (hcall : (Op.call call).local ∨ ∃ win, op = .windowUnmanaged win ∧ call = .windowUnmanaged win)
    (hop : op ≠ .windowUnmanaged win) : call ≠ .windowUnmanaged win := by
  rintro rfl
  rcases hcall with hlocal | ⟨win', hop', hcall⟩
  · cases hlocal
  · exact hop (Call.windowUnmanaged.inj hcall ▸ hop')

/-- The window and its process stay while it is not closed. -/
theorem owns_step {pid : ℕ} {win : WindowId} (hposted : s.Posted) (howns : s.layer.registry.Owns pid win)
    (hop : op ≠ .windowUnmanaged win) : (s.step op).layer.registry.Owns pid win := by
  cases writes_step s op with
  | nothing h => rwa [h]
  | press canvas h =>
    rw [h]
    cases canvas <;> exact howns
  | call call hcall h =>
    rw [h]
    exact Registry.owns_call howns (ne_windowUnmanaged hcall hop)
  | arrival call bus _ hbus h =>
    rw [h]
    exact Registry.owns_call howns (hposted call (by simp [hbus]) win)

theorem inStep_step (h : s.InStep) (hlossless : s.lossless op) : (s.step op).InStep where
  posted := posted_step h.posted op
  pids := nodup_step h.pids hlossless
  owns entry' hentry' := by
    cases origin_step h.pids op entry' hentry' with
    | old entry hentry hwin hop htells =>
      rw [hwin, htells.pid]
      exact owns_step h.posted (h.owns entry hentry) hop
    | new huntracked hsent howns hregion hscroll =>
      rw [howns.2]
      exact howns.1

variable {γ : Type} {write : ℕ → Call K → Option γ} {read : Frame K → γ} {c : γ}

/-- What the record of a window holds. -/
def held (read : Frame K → γ) (s : Shell K) (win : WindowId) : Option γ := (s.layer.registry.frame win).map read

/-- Records keep the value `c` until a call of the process writes it anew, and take it over from a call that arrives. -/
structure Conveyed (write : ℕ → Call K → Option γ) (read : Frame K → γ) (c : γ) : Prop where
  silent : ∀ pid call, (Op.call call).local → write pid call = none
  ended : ∀ pid win, write pid (.windowUnmanaged win) = none
  keep : ∀ (r : Registry K) (pid : ℕ) (win : WindowId) (call : Call K), r.Owns pid win → call ≠ .windowUnmanaged win →
    write pid call = none → (r.frame win).map read = some c → ((r.call call).frame win).map read = some c
  receive : ∀ (s : Shell K) (entry : Tracked K) (call : Call K) (bus : List (Call K)), s.lossless .deliver →
    entry ∈ s.trackers → s.layer.registry.Owns entry.tracker.pid entry.win → s.bus = call :: bus →
    write entry.tracker.pid call = some c → ((s.layer.registry.call call).frame entry.win).map read = some c

omit [FloorRing K] in
theorem conveyed_area (a : Area K) :
    Conveyed (fun pid call => (extentsOf pid call).map (·.map areaOf)) Frame.area (some a) where
  silent pid call hlocal := by
    cases call with
    | setWindowEditorRegion => cases hlocal
    | _ => rfl
  ended _ _ := rfl
  keep r pid win call howns hmanaged hwrite := Registry.area_call howns hmanaged (Option.map_eq_none_iff.mp hwrite)
  receive s entry call bus hlossless hentry howns hbus hwrite := by
    cases call with
    | setWindowEditorRegion pid x y w h =>
      simp only [extentsOf] at hwrite
      split_ifs at hwrite with hpid hempty
      · cases hwrite
      · obtain ⟨hw, hh⟩ : 0 < w ∧ 0 < h := by omega
        obtain ⟨hzero, hrecord⟩ := lossless_region hlossless hbus hw hh hentry hpid.symm
        rw [Registry.area_setRegion (hpid ▸ howns) hzero hrecord x y hw hh]
        exact hwrite
      · cases hwrite
    | _ => cases hwrite

omit [FloorRing K] in
theorem conveyed_way (a : K × K) : Conveyed (fun pid call => (offsetOf pid call).map wayOf) Frame.way a where
  silent pid call hlocal := by
    cases call with
    | setWindowScroll => cases hlocal
    | _ => rfl
  ended _ _ := rfl
  keep r pid win call howns hmanaged hwrite := Registry.way_call howns hmanaged (Option.map_eq_none_iff.mp hwrite)
  receive s entry call bus hlossless hentry howns hbus hwrite := by
    cases call with
    | setWindowScroll pid scrollX scrollY =>
      simp only [offsetOf] at hwrite
      split_ifs at hwrite with hpid
      · obtain ⟨hzero, hrecord⟩ := lossless_scroll hlossless hbus hentry hpid.symm
        rw [Registry.way_setScroll (hpid ▸ howns) hzero hrecord scrollX scrollY]
        exact hwrite
      · cases hwrite
    | _ => cases hwrite

/-- What is held stays while no call arrives. -/
theorem Conveyed.held_step (h : Conveyed write read c) (hinStep : s.InStep) (hentry : entry ∈ s.trackers)
    (hop : op ≠ .windowUnmanaged entry.win) (hdeliver : op ≠ .deliver) (hheld : s.held read entry.win = some c) :
    (s.step op).held read entry.win = some c := by
  unfold held at hheld ⊢
  cases writes_step s op with
  | nothing hsame => rwa [hsame]
  | press canvas hpress =>
    obtain ⟨f, hf, rfl⟩ := Option.map_eq_some_iff.mp hheld
    rw [hpress, Registry.frame_press canvas hf, Option.map_some]
  | call call hcall hwritten =>
    have hwrite : write entry.tracker.pid call = none := by
      rcases hcall with hlocal | ⟨win, _, rfl⟩
      · exact h.silent _ call hlocal
      · exact h.ended _ win
    rw [hwritten]
    exact h.keep _ _ _ call (hinStep.owns entry hentry) (ne_windowUnmanaged hcall hop) hwrite hheld
  | arrival call bus hop' => exact absurd hop' hdeliver

/-- What is held or under way still is after a call has arrived. -/
theorem Conveyed.deliver (h : Conveyed write read c) (hinStep : s.InStep) (hlossless : s.lossless .deliver)
    (hentry : entry ∈ s.trackers) (hmirrors : Mirrors (write entry.tracker.pid) s.bus (s.held read entry.win) c) :
    Mirrors (write entry.tracker.pid) (s.step .deliver).bus ((s.step .deliver).held read entry.win) c := by
  have howns := hinStep.owns entry hentry
  cases hbus : s.bus with
  | nil =>
    have hstep : s.step .deliver = s := by simp only [Shell.step, hbus]
    rwa [hstep]
  | cons call bus =>
    have hstep : s.step .deliver = { s with layer := s.layer.opStep (.call call), bus := bus } := by
      simp only [Shell.step, hbus]
    have hcall : (s.layer.opStep (.call call)).registry = s.layer.registry.call call :=
      MetaAnnotationLayer.registry_execCall call
    have hmanaged : call ≠ .windowUnmanaged entry.win := hinStep.posted call (by simp [hbus]) entry.win
    rw [hbus] at hmirrors
    rw [hstep]
    change Mirrors _ bus (((s.layer.opStep (.call call)).registry.frame entry.win).map read) c
    rw [hcall]
    exact hmirrors.receive (h.receive s entry call bus hlossless hentry howns hbus) (h.keep _ _ _ call howns hmanaged)

/-- A value that is sent in the step, or is held or under way and not sent anew, is held or under way after it. -/
theorem Conveyed.step (h : Conveyed write read c) (hinStep : s.InStep) (hlossless : s.lossless op)
    (hentry : entry ∈ s.trackers) (hop : op ≠ .windowUnmanaged entry.win)
    (hsent : lastWrite (write entry.tracker.pid) (s.sent op) = some c ∨ lastWrite (write entry.tracker.pid) (s.sent op) = none ∧
      Mirrors (write entry.tracker.pid) s.bus (s.held read entry.win) c) :
    Mirrors (write entry.tracker.pid) (s.step op).bus ((s.step op).held read entry.win) c := by
  by_cases hdeliver : op = .deliver
  · subst hdeliver
    obtain ⟨_, hmirrors⟩ := hsent.resolve_left (by simp [sent])
    exact h.deliver hinStep hlossless hentry hmirrors
  · rw [bus_step hdeliver]
    exact (Mirrors.send hsent).keep (h.held_step hinStep hentry hop hdeliver)

/-! ### What was published last -/

section Last
variable {ι : Type} {start : Shell K} {ops : List (ShellOp K)} {k : ℕ} {win : WindowId}

theorem publishes_eq_some {write : Call K → Option ι} {i : ι} : publishes write win s op = some (some i) ↔
    (s.step op).tracks win ∧ lastWrite write (s.sent op) = some i := by
  unfold publishes
  split_ifs with htracks <;> simp [htracks]

theorem publishes_eq_none {write : Call K → Option ι} : publishes write win s op = none ↔
    (s.step op).tracks win ∧ lastWrite write (s.sent op) = none := by
  unfold publishes
  split_ifs with htracks <;> simp [htracks]

omit [Scalar K] [FloorRing K] in
theorem tracks_of_mem (hentry : entry ∈ s.trackers) : s.tracks entry.win := List.any_eq_true.mpr ⟨entry, hentry, by simp⟩

/-- What was published last for a tracked window is held for it or under way. -/
theorem mirrors_of_latest {write : ℕ → Call K → Option ι} {f : ι → γ} {i : ι} {pid : ℕ}
    (hconveyed : Conveyed (fun pid call => (write pid call).map f) read (f i))
    (hstart : start.InStep) (hlossless : Along Shell.step (fun s op => s.lossless op) start ops) (hk : k ≤ ops.length) :
    Latest Shell.step (publishes (write pid) win) start ops k (some i) →
      (stateAt Shell.step start ops k).tracks win ∧ ∀ entry ∈ (stateAt Shell.step start ops k).trackers,
        entry.win = win → entry.tracker.pid = pid → Mirrors (fun call => (write pid call).map f)
          (stateAt Shell.step start ops k).bus ((stateAt Shell.step start ops k).held read win) (f i) := by
  induction k with
  | zero => exact fun h => absurd h not_latest_zero
  | succ k ih =>
    have hget : ops[k]? = some ops[k] := List.getElem?_eq_getElem hk
    have hinStep : (stateAt Shell.step start ops k).InStep :=
      hlossless.invariant_at (fun s op h hop => inStep_step h hop) hstart k
    have hop := hlossless.get hget
    rw [latest_succ_iff hget, stateAt_succ hget]
    replace ih := ih (by omega)
    generalize stateAt Shell.step start ops k = s at ih hinStep hop
    intro hlatest
    have htracks : (s.step ops[k]).tracks win := by
      rcases hlatest with hsee | ⟨hsee, _⟩
      · exact (publishes_eq_some.mp hsee).1
      · exact (publishes_eq_none.mp hsee).1
    refine ⟨htracks, fun entry' hentry' hwin hpid => ?_⟩
    cases origin_step hinStep.pids ops[k] entry' hentry' with
    | old entry hentry hsame hmanaged htells =>
      obtain rfl : entry.win = win := hsame.symm.trans hwin
      obtain rfl : entry.tracker.pid = pid := htells.pid.symm.trans hpid
      refine hconveyed.step hinStep hop hentry hmanaged ?_
      rw [lastWrite_map]
      rcases hlatest with hsee | ⟨hsee, hbefore⟩
      · exact .inl (by rw [(publishes_eq_some.mp hsee).2, Option.map_some])
      · refine .inr ⟨by rw [(publishes_eq_none.mp hsee).2, Option.map_none], ?_⟩
        exact (ih hbefore).2 entry hentry rfl rfl
    | new huntracked hsent howns hregion hscroll =>
      -- a new tracker has not said anything
      rcases hlatest with hsee | ⟨_, hbefore⟩
      · have hwritten := (publishes_eq_some.mp hsee).2
        rw [hsent] at hwritten
        cases hwritten
      · have hbefore := (ih hbefore).1
        rw [hwin] at huntracked
        exact absurd hbefore (by simp [huntracked])

/-- What a tracker remembers is what was published for its window last. -/
theorem latest_of_remembered (hstart : start.trackers = []) (hinStep : start.InStep)
    (hlossless : Along Shell.step (fun s op => s.lossless op) start ops) (hk : k ≤ ops.length) :
    ∀ entry ∈ (stateAt Shell.step start ops k).trackers,
      (∀ ext, entry.tracker.lastRegionSig = some ext →
        Latest Shell.step (publishes (extentsOf entry.tracker.pid) entry.win) start ops k (some (some ext))) ∧
      ∀ y, entry.tracker.lastScrollY = some y →
        Latest Shell.step (publishes (offsetOf entry.tracker.pid) entry.win) start ops k (some (0, y)) := by
  induction k with
  | zero => simp [hstart]
  | succ k ih =>
    have hget : ops[k]? = some ops[k] := List.getElem?_eq_getElem hk
    have hpids : (stateAt Shell.step start ops k).pids.Nodup :=
      (hlossless.invariant_at (fun s op h hop => inStep_step h hop) hinStep k).pids
    replace ih := ih (by omega)
    rw [stateAt_succ hget]
    intro entry' hentry'
    have htracks := tracks_of_mem hentry'
    cases origin_step hpids ops[k] entry' hentry' with
    | old entry hentry hsame hmanaged htells =>
      obtain ⟨hregion, hscroll⟩ := ih entry hentry
      rw [hsame] at htracks
      rw [htells.pid, hsame]
      refine ⟨fun ext hext => (latest_succ_iff hget).mpr ?_, fun y hy => (latest_succ_iff hget).mpr ?_⟩
      · exact (htells.region ext hext).imp (fun h => publishes_eq_some.mpr ⟨htracks, h⟩) fun h =>
          ⟨publishes_eq_none.mpr ⟨htracks, h.1⟩, hregion ext h.2⟩
      · exact (htells.scroll y hy).imp (fun h => publishes_eq_some.mpr ⟨htracks, h⟩) fun h =>
          ⟨publishes_eq_none.mpr ⟨htracks, h.1⟩, hscroll y h.2⟩
    | new huntracked hsent howns hregion hscroll => simp [hregion, hscroll]

end Last

/-- Of all that was published for the window of an entry in the run, `a` was the last. -/
def PublishedLast {ι : Type} (write : ℕ → Call K → Option ι) (start : Shell K) (ops : List (ShellOp K))
    (entry : Tracked K) (a : ι) : Prop :=
  Latest step (publishes (write entry.tracker.pid) entry.win) start ops ops.length (some a)

/-- After a run in which no two tracked windows share a process and no call is lost, and once all calls are
delivered, the compositor has for every tracked window the region and the scroll that were published for it last,
rounded to `float`; these are the ones its tracker remembers. -/
theorem followed_of_delivered (display : MetaDisplay) (input : AnnotationInput K) (width height : ℤ)
    (ops : List (ShellOp K)) (hlossless : Along step (fun s op => s.lossless op) (start display input width height) ops) :
    let first := start display input width height
    let s := run step first ops
    s.bus = [] → ∀ entry ∈ s.trackers,
      (∀ ext, PublishedLast extentsOf first ops entry (some ext) → ∃ ink, s.layer.perWindow entry.win = some ink ∧
        ink.hasEditorRegion ∧ (ink.editorX, ink.editorY, ink.editorW, ink.editorH) =
          (toFloat (ext.x : K), toFloat (ext.y : K), toFloat (ext.width : K), toFloat (ext.height : K))) ∧
      (∀ x y, PublishedLast offsetOf first ops entry (x, y) → ∃ ink, s.layer.perWindow entry.win = some ink ∧
        (ink.scrollX, ink.scrollY) = (toFloat (x : K), toFloat (y : K))) ∧
      (∀ ext, entry.tracker.lastRegionSig = some ext → PublishedLast extentsOf first ops entry (some ext)) ∧
      ∀ y, entry.tracker.lastScrollY = some y → PublishedLast offsetOf first ops entry (0, y) := by
  intro first s hbus entry hentry
  have hinStep : first.InStep := ⟨by simp [first, Posted, start], by simp [first, pids, start], by simp [first, start]⟩
  have hs : stateAt step first ops ops.length = s := stateAt_length
  have hremembered := latest_of_remembered rfl hinStep hlossless le_rfl entry (hs ▸ hentry)
  refine ⟨fun ext hlatest => ?_, fun x y hlatest => ?_, hremembered⟩
  · have hmirrors := (mirrors_of_latest (f := Option.map areaOf) (conveyed_area (areaOf ext)) hinStep hlossless le_rfl
      hlatest).2
    rw [hs] at hmirrors
    have hmirrors := hmirrors entry hentry rfl rfl
    rw [hbus] at hmirrors
    obtain ⟨f, hf, harea⟩ := Option.map_eq_some_iff.mp hmirrors.settled
    obtain ⟨ink, hink, rfl⟩ := Option.map_eq_some_iff.mp hf
    rw [Option.map_some] at harea
    unfold Frame.area at harea
    split_ifs at harea with hset
    exact ⟨ink, hink, hset, Option.some.inj harea⟩
  · have hmirrors := (mirrors_of_latest (f := wayOf) (conveyed_way (wayOf (x, y))) hinStep hlossless le_rfl hlatest).2
    rw [hs] at hmirrors
    have hmirrors := hmirrors entry hentry rfl rfl
    rw [hbus] at hmirrors
    obtain ⟨f, hf, hway⟩ := Option.map_eq_some_iff.mp hmirrors.settled
    obtain ⟨ink, hink, rfl⟩ := Option.map_eq_some_iff.mp hf
    exact ⟨ink, hink, hway⟩

/-- The document of the window `0` is scrolled by two lines after the window beside it was closed. -/
theorem followed_of_delivered_scrolled :
    let ops : List (ShellOp ℚ) := [.windowCreated 0, .windowCreated 1,
      .retry 0 (KateWindowTracker.document 0 ⟨5, 0, 8, 0⟩), .deliver, .windowUnmanaged 1,
      .poll 0 (KateWindowTracker.document 2 ⟨5, -34, 8, 0⟩), .deliver, .deliver, .deliver]
    ∃ ink, (run step (start (beside 8) .initial 500 500) ops).layer.perWindow 0 = some ink ∧
      (ink.scrollX, ink.scrollY) = (0, 34) := by
  intro ops
  have hlossless : Along step (fun s op => s.lossless op) (start (beside 8) .initial 500 500) ops :=
    ⟨by decide +kernel, by decide +kernel, rfl, by decide +kernel, rfl, rfl, by decide +kernel, by decide +kernel,
      by decide +kernel, trivial⟩
  let s := run step (start (beside 8) .initial 500 500) ops
  have hentry : ∃ entry ∈ s.trackers, entry.win = 0 ∧ entry.tracker.lastScrollY = some 34 := by
    have hany : s.trackers.any (fun entry => entry.win = 0 && entry.tracker.lastScrollY = some 34) = true := by
      decide +kernel
    simpa using hany
  obtain ⟨entry, hmem, hwin, hscrolled⟩ := hentry
  have hbus : s.bus.isEmpty = true := by decide +kernel
  obtain ⟨_, hscroll, _, hremembered⟩ :=
    followed_of_delivered (beside 8) .initial 500 500 ops hlossless (List.isEmpty_iff.mp hbus) entry hmem
  have hfollowed := hscroll 0 34 (hremembered 34 hscrolled)
  rw [hwin] at hfollowed
  simpa using hfollowed

end Shell

end Annotations
