import Annotations.Extension.Methods

/-! What the methods of the extension send, and what they leave alone. -/

namespace Annotations

variable {K : Type}

/-- The events that neither pause nor show or hide the dock. -/
def ExtensionEvent.minor : ExtensionEvent K → Bool
  | .enable => false
  | .disable => false
  | .overviewShowing => false
  | .overviewHidden => false
  | .setPausedRetry => false
  | _ => true

/-! ### What calls write -/

namespace BusCall

variable (call : BusCall K)

def active : Option Bool :=
  match call.method with
  | .setActive active => some active
  | _ => none

def paused : Option Bool :=
  match call.method with
  | .setPaused paused => some paused
  | _ => none

def regions : Option (List ChromeRegion) :=
  match call.method with
  | .setChromeRegions regions => some (regions.filterMap MetaAnnotationLayer.chromeRegionOf)
  | .clearChromeRegions => some []
  | _ => none

/-- The call has nothing to do with pausing. -/
def Unpaused : Prop := call.paused = none ∧ ∀ epoch paused, call.handler ≠ .setPaused epoch paused

/-- The call sets no regions. -/
def Regionless : Prop := call.regions = none ∨ call.regions = some []

end BusCall

namespace AnnotationExtension

variable {ext ext' ext'' : AnnotationExtension K} {P : BusCall K → Prop}

/-- All calls that are added are of a kind. -/
def Sends (P : BusCall K → Prop) (ext ext' : AnnotationExtension K) : Prop :=
  ∃ post, ext'.calls = ext.calls ++ post ∧ ∀ call ∈ post, P call

theorem sends_of_same (h : ext'.calls = ext.calls) : Sends P ext ext' :=
  ⟨[], by rw [h, List.append_nil], fun _ hcall => absurd hcall List.not_mem_nil⟩

theorem sends_dbusCall {method : Call K} {handler : ReplyHandler} (h : P ⟨method, handler⟩) :
    Sends P ext (ext.dbusCall method handler) :=
  ⟨[⟨method, handler⟩], rfl, fun _ hcall => List.mem_singleton.mp hcall ▸ h⟩

theorem Sends.trans (h : Sends P ext ext') (h' : Sends P ext' ext'') : Sends P ext ext'' := by
  obtain ⟨post, hcalls, hpost⟩ := h
  obtain ⟨post', hcalls', hpost'⟩ := h'
  refine ⟨post ++ post', by rw [hcalls', hcalls, List.append_assoc], fun call hcall => ?_⟩
  rcases List.mem_append.mp hcall with hcall | hcall
  · exact hpost call hcall
  · exact hpost' call hcall

theorem Sends.mono {Q : BusCall K → Prop} (hPQ : ∀ call, P call → Q call) (h : Sends P ext ext') : Sends Q ext ext' := by
  obtain ⟨post, hcalls, hpost⟩ := h
  exact ⟨post, hcalls, fun call hcall => hPQ call (hpost call hcall)⟩

/-! ### Methods that only tidy up -/

/-- The method has nothing to do with pausing, leaves the dock as it is, and publishes no
regions unless the dock is visible. -/
structure Minor (ext ext' : AnnotationExtension K) : Prop where
  epoch : ext'.setPausedEpoch = ext.setPausedEpoch
  retry : ext'.setPausedRetryId = ext.setPausedRetryId
  dock : ext'.dock = ext.dock
  sends : Sends BusCall.Unpaused ext ext'
  hidden : ext.dock ≠ some ⟨true⟩ → Sends BusCall.Regionless ext ext'

theorem Minor.trans (h : Minor ext ext') (h' : Minor ext' ext'') : Minor ext ext'' where
  epoch := h'.epoch.trans h.epoch
  retry := h'.retry.trans h.retry
  dock := h'.dock.trans h.dock
  sends := h.sends.trans h'.sends
  hidden hdock := (h.hidden hdock).trans (h'.hidden (h.dock ▸ hdock))

theorem minor_of_same (hepoch : ext'.setPausedEpoch = ext.setPausedEpoch)
    (hretry : ext'.setPausedRetryId = ext.setPausedRetryId) (hdock : ext'.dock = ext.dock)
    (hcalls : ext'.calls = ext.calls) : Minor ext ext' :=
  ⟨hepoch, hretry, hdock, sends_of_same hcalls, fun _ => sends_of_same hcalls⟩

theorem Minor.refl : Minor ext ext := minor_of_same rfl rfl rfl rfl

theorem minor_dbusCall {method : Call K} {handler : ReplyHandler} (h : BusCall.Unpaused ⟨method, handler⟩)
    (hregions : BusCall.Regionless ⟨method, handler⟩) : Minor ext (ext.dbusCall method handler) :=
  ⟨rfl, rfl, rfl, sends_dbusCall h, fun _ => sends_dbusCall hregions⟩

theorem minor_clearChromeRegions : Minor ext ext.clearChromeRegions := by
  unfold clearChromeRegions
  split_ifs
  · exact .refl
  · refine Minor.trans ?_ (minor_dbusCall ⟨rfl, nofun⟩ (.inr rfl))
    exact minor_of_same rfl rfl rfl rfl

theorem minor_trySetAnnotationActive : Minor ext ext.trySetAnnotationActive :=
  minor_dbusCall ⟨rfl, nofun⟩ (.inl rfl)

theorem minor_startAnnotationActivation : Minor ext ext.startAnnotationActivation :=
  ⟨rfl, rfl, rfl, sends_dbusCall ⟨rfl, nofun⟩, fun _ => sends_dbusCall (.inl rfl)⟩

theorem minor_onSetActiveRetry : Minor ext ext.onSetActiveRetry := by
  unfold onSetActiveRetry
  split_ifs
  · exact .refl
  · exact minor_of_same rfl rfl rfl rfl
  · exact minor_of_same rfl rfl rfl rfl
  · exact minor_of_same rfl rfl rfl rfl
  · refine Minor.trans ?_ minor_trySetAnnotationActive
    exact minor_of_same rfl rfl rfl rfl

variable [Scalar K]

theorem minor_activateRegion (id : RegionId) : Minor ext (ext.activateRegion id) := by
  cases id with
  | clear => exact minor_dbusCall ⟨rfl, nofun⟩ (.inl rfl)
  | undo => exact minor_dbusCall ⟨rfl, nofun⟩ (.inl rfl)
  | dockBody => exact .refl
  | color i =>
    unfold activateRegion
    dsimp only
    split
    · exact .refl
    next c _ =>
      have hcolor : Minor ext (ext.dbusCall (.setColor c) .warn) := minor_dbusCall ⟨rfl, nofun⟩ (.inl rfl)
      exact hcolor.trans (minor_of_same rfl rfl rfl rfl)

theorem minor_publishActiveColor : Minor ext ext.publishActiveColor := by
  unfold publishActiveColor
  split
  · exact .refl
  · exact minor_dbusCall ⟨rfl, nofun⟩ (.inl rfl)

variable [FloorRing K]

theorem minor_publishChromeRegions : Minor ext ext.publishChromeRegions := by
  unfold publishChromeRegions
  cases hdock : ext.dock with
  | none => exact .refl
  | some dock =>
    dsimp only
    split_ifs with hbuttons hinvisible hempty
    · exact .refl
    · exact minor_clearChromeRegions
    · exact minor_clearChromeRegions
    · refine ⟨rfl, rfl, rfl, sends_dbusCall ⟨rfl, nofun⟩, fun hhidden => absurd ?_ hhidden⟩
      have hvisible : dock.visible = true := by simpa using hinvisible
      rw [hdock, ← hvisible]

theorem minor_positionDock : Minor ext ext.positionDock := by
  unfold positionDock
  split_ifs
  · exact .refl
  · split
    · exact .refl
    · split_ifs
      · exact .refl
      · exact minor_publishChromeRegions

theorem minor_schedulePositionRetries : Minor ext ext.schedulePositionRetries := by
  unfold schedulePositionRetries
  dsimp only
  split_ifs
  · exact .refl
  · exact minor_positionDock.trans (minor_of_same rfl rfl rfl rfl)
  · exact minor_positionDock

theorem minor_handle {event : ExtensionEvent K} (h : event.minor) : Minor ext (ext.handle event) := by
  cases event with
  | enable => cases h
  | disable => cases h
  | overviewShowing => cases h
  | overviewHidden => cases h
  | setPausedRetry => cases h
  | scene scene => exact minor_of_same rfl rfl rfl rfl
  | setActiveRetry => exact minor_onSetActiveRetry
  | monitorsChanged =>
    change Minor ext ext.onMonitorsChanged
    unfold onMonitorsChanged
    split_ifs
    · exact minor_positionDock
    · exact .refl
  | allocation =>
    change Minor ext ext.onAllocation
    unfold onAllocation
    split_ifs
    · exact minor_of_same rfl rfl rfl rfl
    · exact .refl
  | allocDebounce =>
    change Minor ext ext.onAllocDebounce
    unfold onAllocDebounce
    split_ifs
    · refine Minor.trans ?_ minor_positionDock
      exact minor_of_same rfl rfl rfl rfl
    · exact .refl
  | idlePos =>
    change Minor ext ext.onIdlePos
    unfold onIdlePos
    split_ifs
    · exact minor_schedulePositionRetries.trans (minor_of_same rfl rfl rfl rfl)
    · exact .refl
  | dockPositionTimeout =>
    change Minor ext ext.onDockPositionTimeout
    unfold onDockPositionTimeout
    split_ifs
    · refine Minor.trans ?_ minor_schedulePositionRetries
      exact minor_of_same rfl rfl rfl rfl
    · exact .refl
  | nameAppeared =>
    change Minor ext ext.onNameAppeared
    unfold onNameAppeared
    split_ifs
    · exact minor_trySetAnnotationActive
    · exact .refl
  | clicked id =>
    change Minor ext (ext.onClicked id)
    unfold onClicked
    split_ifs
    · exact .refl
    · exact minor_activateRegion id
  | regionActivated id kind =>
    change Minor ext (ext.onRegionActivated id kind)
    unfold onRegionActivated
    split_ifs
    · exact .refl
    · exact .refl
    · exact minor_activateRegion id

/-- A reply that is no failure of a request. -/
theorem minor_onReply {handler : ReplyHandler} {ok : Bool}
    (h : ∀ epoch paused, handler = .setPaused epoch paused → ok = true) : Minor ext (ext.onReply handler ok) := by
  cases handler with
  | null => exact .refl
  | warn => exact .refl
  | setChromeRegions => exact minor_of_same rfl rfl rfl rfl
  | setPaused epoch paused =>
    obtain rfl := h epoch paused rfl
    exact .refl
  | setActive =>
    unfold onReply
    dsimp only
    split_ifs
    · exact .refl
    · refine Minor.trans (Minor.trans ?_ minor_publishChromeRegions) minor_publishActiveColor
      exact minor_of_same rfl rfl rfl rfl
    · refine Minor.trans ?_ minor_publishActiveColor
      exact minor_of_same rfl rfl rfl rfl

/-! ### The other methods -/

omit [FloorRing K] in
theorem calls_enable (h : ext.dock.isSome = false) : ext.enable.calls = ext.calls ++
    [⟨.setPaused ext.scene.overviewVisible, .setPaused 1 ext.scene.overviewVisible⟩, ⟨.setActive true, .setActive⟩] := by
  unfold enable
  rw [h, if_neg Bool.false_ne_true]
  exact List.append_assoc ..

omit [Scalar K] [FloorRing K] in
theorem calls_disable : ext.disable.calls = ext.calls ++
    [⟨.clearChromeRegions, .null⟩, ⟨.setPaused false, .null⟩, ⟨.setActive false, .null⟩] := by
  refine (List.append_assoc ..).trans (List.append_assoc ..)

omit [Scalar K] [FloorRing K] in
theorem sends_onSetPausedRetry : Sends BusCall.Regionless ext ext.onSetPausedRetry := by
  unfold onSetPausedRetry
  split
  · exact sends_of_same rfl
  · dsimp only
    split_ifs
    · exact sends_of_same rfl
    · exact sends_of_same rfl
    · exact sends_dbusCall (.inl rfl)

omit [Scalar K] [FloorRing K] in
theorem sends_setPaused {paused : Bool} : Sends BusCall.Regionless ext (ext.setPaused paused) :=
  sends_dbusCall (.inl rfl)

/-- Calls are only added. -/
theorem sends_handle (event : ExtensionEvent K) : Sends (fun _ => True) ext (ext.handle event) := by
  cases event with
  | enable =>
    cases hdock : ext.dock.isSome with
    | false => exact ⟨_, calls_enable hdock, fun _ _ => trivial⟩
    | true => exact sends_of_same (by rw [handle, enable, if_pos hdock])
  | disable => exact ⟨_, calls_disable, fun _ _ => trivial⟩
  | overviewShowing =>
    change Sends _ ext ext.onOverviewShowing
    unfold onOverviewShowing
    dsimp only
    split_ifs
    · exact sends_of_same rfl
    · have hcleared : Minor ((ext.setOverviewVisible true).showDock false) _ := minor_clearChromeRegions
      exact (hcleared.sends.mono fun _ _ => trivial).trans (sends_setPaused.mono fun _ _ => trivial)
  | overviewHidden =>
    change Sends _ ext ext.onOverviewHidden
    unfold onOverviewHidden
    dsimp only
    split_ifs
    · exact sends_of_same rfl
    · have hpositioned : Minor ((ext.setOverviewVisible false).showDock true) _ := minor_positionDock
      exact (hpositioned.sends.mono fun _ _ => trivial).trans (sends_setPaused.mono fun _ _ => trivial)
  | setPausedRetry => exact sends_onSetPausedRetry.mono fun _ _ => trivial
  | _ =>
    refine Sends.mono (fun _ _ => trivial) (Minor.sends ?_)
    exact minor_handle rfl

/-- A reply leaves the dock as it is, and publishes no regions unless it is visible. -/
theorem hidden_onReply (ext : AnnotationExtension K) (handler : ReplyHandler) (ok : Bool) :
    (ext.onReply handler ok).dock = ext.dock ∧
    (ext.dock ≠ some ⟨true⟩ → Sends BusCall.Regionless ext (ext.onReply handler ok)) ∧
    Sends (fun _ => True) ext (ext.onReply handler ok) := by
  by_cases hfail : ∃ epoch paused, handler = .setPaused epoch paused ∧ ok = false
  · obtain ⟨epoch, paused, rfl, rfl⟩ := hfail
    unfold onReply
    dsimp only
    rw [if_neg Bool.false_ne_true]
    split_ifs
    · exact ⟨rfl, fun _ => sends_of_same rfl, sends_of_same rfl⟩
    · exact ⟨rfl, fun _ => sends_of_same rfl, sends_of_same rfl⟩
    · exact ⟨rfl, fun _ => sends_of_same rfl, sends_of_same rfl⟩
  · have hminor : Minor ext (ext.onReply handler ok) := by
      refine minor_onReply fun epoch paused hhandler => ?_
      by_contra hok
      exact hfail ⟨epoch, paused, hhandler, by simpa using hok⟩
    exact ⟨hminor.dock, hminor.hidden, hminor.sends.mono fun _ _ => trivial⟩

end AnnotationExtension

end Annotations
