import Annotations.Extension.Desktop
import Annotations.Runs.Basic

/-! Disabling is final. Without a dock every source, signal and reply of the extension is
inert, except that a late success of `SetActive` still sends the colour of the pen. -/

namespace Annotations

open Runs

variable {K : Type}

/-- The call may follow the last ones of `disable`. -/
def BusCall.Final (call : BusCall K) : Prop :=
  call.method ≠ .setActive true ∧ call.method ≠ .setPaused true ∧ ∀ regions, call.method ≠ .setChromeRegions regions

namespace BusCall.Final

variable {call : BusCall K} (h : call.Final)
include h

theorem active : call.active = none ∨ call.active = some false := by
  unfold BusCall.active
  split
  next active hmethod =>
    cases active with
    | true => exact absurd hmethod h.1
    | false => exact .inr rfl
  · exact .inl rfl

theorem paused : call.paused = none ∨ call.paused = some false := by
  unfold BusCall.paused
  split
  next paused hmethod =>
    cases paused with
    | true => exact absurd hmethod h.2.1
    | false => exact .inr rfl
  · exact .inl rfl

theorem regions : call.regions = none ∨ call.regions = some [] := by
  unfold BusCall.regions
  split
  next regions hmethod => exact absurd hmethod (h.2.2 regions)
  · exact .inr rfl
  · exact .inl rfl

end BusCall.Final

namespace AnnotationExtension

variable {ext : AnnotationExtension K}

/-- The extension is disabled, and does not watch the bus. -/
structure Off (ext : AnnotationExtension K) : Prop where
  dock : ext.dock = none
  watch : ext.annotationBusWatchId = false

theorem off_disable : Off ext.disable := ⟨rfl, rfl⟩

theorem final_disable : Sends BusCall.Final ext ext.disable := by
  refine ⟨_, calls_disable, fun call hcall => ?_⟩
  simp only [List.mem_cons, List.not_mem_nil, or_false] at hcall
  rcases hcall with rfl | rfl | rfl
  · exact ⟨nofun, nofun, nofun⟩
  · exact ⟨nofun, nofun, nofun⟩
  · exact ⟨nofun, nofun, nofun⟩

/-- Nothing happens but to fields that do not matter. -/
theorem off_of_same {ext' : AnnotationExtension K} (h : Off ext) (hdock : ext'.dock = ext.dock)
    (hwatch : ext'.annotationBusWatchId = ext.annotationBusWatchId) (hcalls : ext'.calls = ext.calls) :
    Off ext' ∧ Sends BusCall.Final ext ext' :=
  ⟨⟨hdock.trans h.dock, hwatch.trans h.watch⟩, sends_of_same hcalls⟩

variable [Scalar K] [FloorRing K]

theorem publishChromeRegions_off (h : Off ext) : ext.publishChromeRegions = ext := by
  rw [publishChromeRegions, h.dock]

theorem positionDock_off (h : Off ext) : ext.positionDock = ext := by
  rw [positionDock, h.dock]
  rfl

theorem schedulePositionRetries_off (h : Off ext) : ext.schedulePositionRetries = ext := by
  rw [schedulePositionRetries, h.dock]
  rfl

theorem off_handle (h : Off ext) {event : ExtensionEvent K} (hevent : event ≠ .enable) :
    Off (ext.handle event) ∧ Sends BusCall.Final ext (ext.handle event) := by
  have hnone : ext.dock.isNone = true := by rw [h.dock]; rfl
  have hgone : ∀ connected, (!connected || ext.dock.isNone) = true := fun connected => by rw [hnone, Bool.or_true]
  cases event with
  | enable => exact absurd rfl hevent
  | disable => exact ⟨off_disable, final_disable⟩
  | scene scene => exact off_of_same h rfl rfl rfl
  | overviewShowing =>
    have hsame : ext.onOverviewShowing = ext.setOverviewVisible true := if_pos (hgone _)
    change Off ext.onOverviewShowing ∧ Sends _ ext ext.onOverviewShowing
    rw [hsame]
    exact off_of_same h rfl rfl rfl
  | overviewHidden =>
    have hsame : ext.onOverviewHidden = ext.setOverviewVisible false := if_pos (hgone _)
    change Off ext.onOverviewHidden ∧ Sends _ ext ext.onOverviewHidden
    rw [hsame]
    exact off_of_same h rfl rfl rfl
  | monitorsChanged =>
    change Off ext.onMonitorsChanged ∧ Sends _ ext ext.onMonitorsChanged
    rw [onMonitorsChanged, positionDock_off h, ite_self]
    exact off_of_same h rfl rfl rfl
  | allocation =>
    change Off ext.onAllocation ∧ Sends _ ext ext.onAllocation
    unfold onAllocation
    split_ifs
    · exact off_of_same h rfl rfl rfl
    · exact off_of_same h rfl rfl rfl
  | allocDebounce =>
    change Off ext.onAllocDebounce ∧ Sends _ ext ext.onAllocDebounce
    have hdebounced : Off { ext with allocDebounceId := false } := ⟨h.dock, h.watch⟩
    rw [onAllocDebounce, positionDock_off hdebounced]
    split_ifs
    · exact off_of_same h rfl rfl rfl
    · exact off_of_same h rfl rfl rfl
  | idlePos =>
    change Off ext.onIdlePos ∧ Sends _ ext ext.onIdlePos
    rw [onIdlePos, schedulePositionRetries_off h]
    split_ifs
    · exact off_of_same h rfl rfl rfl
    · exact off_of_same h rfl rfl rfl
  | dockPositionTimeout =>
    change Off ext.onDockPositionTimeout ∧ Sends _ ext ext.onDockPositionTimeout
    have hfired : Off { ext with dockPositionTimeout := false } := ⟨h.dock, h.watch⟩
    rw [onDockPositionTimeout, schedulePositionRetries_off hfired]
    split_ifs
    · exact off_of_same h rfl rfl rfl
    · exact off_of_same h rfl rfl rfl
  | nameAppeared =>
    change Off ext.onNameAppeared ∧ Sends _ ext ext.onNameAppeared
    rw [onNameAppeared, h.watch, if_neg Bool.false_ne_true]
    exact off_of_same h rfl rfl rfl
  | setActiveRetry =>
    change Off ext.onSetActiveRetry ∧ Sends _ ext ext.onSetActiveRetry
    rw [onSetActiveRetry, if_pos hnone]
    split_ifs
    · exact off_of_same h rfl rfl rfl
    · exact off_of_same h rfl rfl rfl
  | setPausedRetry =>
    change Off ext.onSetPausedRetry ∧ Sends _ ext ext.onSetPausedRetry
    unfold onSetPausedRetry
    split
    · exact off_of_same h rfl rfl rfl
    · dsimp only
      rw [if_pos hnone]
      exact off_of_same h rfl rfl rfl
  | clicked id =>
    change Off (ext.onClicked id) ∧ Sends _ ext (ext.onClicked id)
    rw [onClicked, if_pos hnone]
    exact off_of_same h rfl rfl rfl
  | regionActivated id kind =>
    change Off (ext.onRegionActivated id kind) ∧ Sends _ ext (ext.onRegionActivated id kind)
    rw [onRegionActivated, if_pos (hgone _)]
    exact off_of_same h rfl rfl rfl

omit [FloorRing K] in
theorem off_publishActiveColor (h : Off ext) :
    Off ext.publishActiveColor ∧ Sends BusCall.Final ext ext.publishActiveColor := by
  unfold publishActiveColor
  split
  · exact off_of_same h rfl rfl rfl
  · exact ⟨⟨h.dock, h.watch⟩, sends_dbusCall ⟨nofun, nofun, nofun⟩⟩

theorem off_onReply (h : Off ext) (handler : ReplyHandler) (ok : Bool) :
    Off (ext.onReply handler ok) ∧ Sends BusCall.Final ext (ext.onReply handler ok) := by
  have hnone : ext.dock.isNone = true := by rw [h.dock]; rfl
  cases handler with
  | null => exact off_of_same h rfl rfl rfl
  | warn => exact off_of_same h rfl rfl rfl
  | setChromeRegions => exact off_of_same h rfl rfl rfl
  | setPaused epoch paused =>
    unfold onReply
    dsimp only
    rw [if_pos hnone, ite_self]
    exact off_of_same h rfl rfl rfl
  | setActive =>
    have hmarked : Off { ext with annotationSessionActiveOk := true, regionsPublished := false } := ⟨h.dock, h.watch⟩
    cases ok with
    | false => exact off_of_same h rfl rfl rfl
    | true =>
      unfold onReply
      dsimp only
      rw [publishChromeRegions_off hmarked, ite_self, Bool.not_true, if_neg Bool.false_ne_true]
      exact off_publishActiveColor hmarked

end AnnotationExtension

namespace Desktop

open AnnotationExtension

variable {d : Desktop K} [Scalar K] [FloorRing K]

theorem off_step (h : Off d.extension) {op : DesktopOp K} (hop : op ≠ .extension .enable) :
    Off (d.step op).extension ∧ Sends BusCall.Final d.extension (d.step op).extension := by
  have hsame : Off d.extension ∧ Sends BusCall.Final d.extension d.extension := off_of_same h rfl rfl rfl
  cases op with
  | extension event =>
    refine off_handle h fun hevent => hop ?_
    rw [hevent]
  | acquire => exact hsame
  | reply i ok =>
    change Off (d.reply i ok).extension ∧ Sends _ d.extension (d.reply i ok).extension
    unfold reply
    split
    · exact hsame
    · split_ifs
      · exact hsame
      · exact off_onReply h _ _
  | deliver =>
    change Off d.deliver.extension ∧ Sends _ d.extension d.deliver.extension
    unfold deliver
    split <;> exact hsame
  | layer op =>
    unfold step
    dsimp only
    split_ifs <;> exact hsame

theorem off_run (h : Off d.extension) {ops : List (DesktopOp K)} (hops : ∀ op ∈ ops, op ≠ .extension .enable) :
    Sends BusCall.Final d.extension (run step d ops).extension := by
  induction ops generalizing d with
  | nil => exact sends_of_same rfl
  | cons op ops ih =>
    obtain ⟨hoff, hsends⟩ := off_step h (hops op List.mem_cons_self)
    exact hsends.trans (ih hoff fun op' hop' => hops op' (List.mem_cons_of_mem op hop'))

omit [Scalar K] [FloorRing K] in
/-- What `disable` says last is what remains. -/
theorem after_disable {calls post : List (BusCall K)} (hpost : ∀ call ∈ post, call.Final) (refused : ℕ) :
    Remote.after ((calls ++ [BusCall.mk .clearChromeRegions .null, BusCall.mk (.setPaused false) .null,
      BusCall.mk (.setActive false) .null] ++ post).drop refused) = ⟨false, false, []⟩ := by
  have hone : calls ++ [BusCall.mk .clearChromeRegions .null, BusCall.mk (.setPaused false) .null,
      BusCall.mk (.setActive false) .null] = calls ++ [BusCall.mk .clearChromeRegions .null] ++
      [BusCall.mk (.setPaused false) .null] ++ [BusCall.mk (.setActive false) .null] := by
    rw [List.append_assoc, List.append_assoc]
    rfl
  rw [hone]
  unfold Remote.after
  rw [register_drop (register_append_init _ fun call hcall => (hpost call hcall).active),
    register_drop (register_append_init _ fun call hcall => (hpost call hcall).paused),
    register_drop (register_append_init _ fun call hcall => (hpost call hcall).regions)]
  · rw [register_concat, register_concat, register_concat]
    rfl
  · rw [register_concat, register_concat]
    rfl
  · rw [register_concat]
    rfl

/-- Whatever happens after `disable`, short of `enable`: the extension sends nothing that
activates, pauses or sets regions, and once all calls are delivered the compositor is
inactive, not paused, and without regions. -/
theorem disable_final (scene : Scene K) (display : MetaDisplay) (input : AnnotationInput K) (width height : ℤ)
    (ops later : List (DesktopOp K)) (hlater : ∀ op ∈ later, op ≠ .extension .enable) :
    let off := (run step (new scene display input width height) ops).step (.extension .disable)
    let final := run step off later
    (∃ post, final.calls = off.calls ++ post ∧ ∀ call ∈ post, call.method ≠ .setActive true ∧
      call.method ≠ .setPaused true ∧ ∀ regions, call.method ≠ .setChromeRegions regions) ∧
    (final.Settled → final.layer.active = false ∧ final.layer.paused = false ∧ final.layer.chromeRegions = []) := by
  intro off final
  obtain ⟨post, hcalls, hpost⟩ := off_run (d := off) off_disable hlater
  refine ⟨⟨post, hcalls, hpost⟩, fun hsettled => ?_⟩
  have hobeys : Obeys final := by
    have hstart : Obeys (run step (new scene display input width height) (ops ++ .extension .disable :: later)) :=
      run_invariant (P := Obeys) (fun _ op h => obeys_step h op) (obeys_new scene display input width height)
    rwa [run_append] at hstart
  have hremote : final.layer.remote = .after ((run step off later).extension.calls.drop final.reader.refused) :=
    hobeys.settled hsettled
  have hoff : off.extension.calls = (run step (new scene display input width height) ops).calls ++
      [⟨.clearChromeRegions, .null⟩, ⟨.setPaused false, .null⟩, ⟨.setActive false, .null⟩] := calls_disable
  rw [hcalls, hoff, after_disable hpost] at hremote
  obtain ⟨hactive, hpaused, hregions⟩ := Remote.mk.inj hremote
  exact ⟨hactive, hpaused, hregions⟩

/-- A reply of `SetActive`, and the failure of `SetPaused`, arrive after `disable`. -/
theorem disable_final_late :
    let off := (run step (new .bare .bare .initial 100 100) [.extension .enable, .acquire, .deliver, .deliver]).step
      (.extension .disable)
    let final := run step off [.reply 0 false, .reply 1 true, .extension .setPausedRetry, .extension .nameAppeared,
      .deliver, .deliver, .deliver, .deliver]
    (∃ post, final.calls = off.calls ++ post ∧ ∀ call ∈ post, call.method ≠ .setActive true ∧
      call.method ≠ .setPaused true ∧ ∀ regions, call.method ≠ .setChromeRegions regions) ∧
    (final.Settled → final.layer.active = false ∧ final.layer.paused = false ∧ final.layer.chromeRegions = []) :=
  disable_final .bare .bare .initial 100 100 _ _ (by simp)

end Desktop

end Annotations
