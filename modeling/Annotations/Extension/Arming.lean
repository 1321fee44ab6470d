import Annotations.Extension.Desktop
import Annotations.Runs.Basic
import Annotations.Tracing.Permits

/-! The colour that the dock shows as armed, and the session that it believes to be active. What
the extension has sent says so too, and with it the compositor, once all calls are delivered. -/

namespace Annotations

open Runs

variable {K : Type}

/-! ### What calls write -/

namespace BusCall

variable (call : BusCall K)

def colour : Option (Rgba K) :=
  match call.method with
  | .setColor rgba => some rgba
  | _ => none

/-- The extension makes only these calls, and its regions are the dock and buttons of it. -/
def Made (buttons : List RegionId) : Prop :=
  match call.method with
  | .setChromeRegions regions => ∀ region ∈ regions, ∃ id ∈ RegionId.dockBody :: buttons, region.1 = id.text
  | .setActive _ | .setPaused _ | .setColor _ | .clear | .undoLast | .clearChromeRegions => True
  | _ => False

/-- The call sets no colour, and at most activates. -/
structure Plain (buttons : List RegionId) : Prop where
  made : call.Made buttons
  colour : call.colour = none
  active : call.active ≠ some false
  handler : call.handler = .setActive → call.active = some true

end BusCall

namespace AnnotationExtension

variable {ext ext' ext'' : AnnotationExtension K}

/-! ### Methods that arm nothing -/

/-- The method leaves the armed colour and the dock as they are, and sends plain calls. -/
structure Unarming (ext ext' : AnnotationExtension K) : Prop where
  index : ext'.activeColorIndex = ext.activeColorIndex
  ok : ext'.annotationSessionActiveOk = true → ext.annotationSessionActiveOk = true
  dock : ext'.dock.isSome = ext.dock.isSome
  buttons : ext'.regionButtons = ext.regionButtons
  sends : Sends (fun call => call.Plain ext.regionButtons) ext ext'

theorem Unarming.trans (h : Unarming ext ext') (h' : Unarming ext' ext'') : Unarming ext ext'' where
  index := h'.index.trans h.index
  ok hok := h.ok (h'.ok hok)
  dock := h'.dock.trans h.dock
  buttons := h'.buttons.trans h.buttons
  sends := by
    have hsends := h'.sends
    rw [h.buttons] at hsends
    exact h.sends.trans hsends

theorem unarming_of_same (hindex : ext'.activeColorIndex = ext.activeColorIndex)
    (hok : ext'.annotationSessionActiveOk = true → ext.annotationSessionActiveOk = true)
    (hdock : ext'.dock.isSome = ext.dock.isSome) (hbuttons : ext'.regionButtons = ext.regionButtons)
    (hcalls : ext'.calls = ext.calls) : Unarming ext ext' :=
  ⟨hindex, hok, hdock, hbuttons, sends_of_same hcalls⟩

theorem Unarming.refl : Unarming ext ext := unarming_of_same rfl id rfl rfl rfl

theorem unarming_dbusCall {method : Call K} {handler : ReplyHandler}
    (h : BusCall.Plain ⟨method, handler⟩ ext.regionButtons) : Unarming ext (ext.dbusCall method handler) :=
  ⟨rfl, id, rfl, rfl, sends_dbusCall h⟩

theorem unarming_clearChromeRegions : Unarming ext ext.clearChromeRegions := by
  unfold clearChromeRegions
  split_ifs
  · exact .refl
  · refine Unarming.trans ?_ (unarming_dbusCall ⟨trivial, rfl, nofun, nofun⟩)
    exact unarming_of_same rfl id rfl rfl rfl

theorem unarming_trySetAnnotationActive : Unarming ext ext.trySetAnnotationActive :=
  unarming_dbusCall ⟨trivial, rfl, nofun, fun _ => rfl⟩

theorem unarming_onSetActiveRetry : Unarming ext ext.onSetActiveRetry := by
  unfold onSetActiveRetry
  split_ifs
  · exact .refl
  · exact unarming_of_same rfl id rfl rfl rfl
  · exact unarming_of_same rfl id rfl rfl rfl
  · exact unarming_of_same rfl id rfl rfl rfl
  · refine Unarming.trans ?_ unarming_trySetAnnotationActive
    exact unarming_of_same rfl id rfl rfl rfl

theorem unarming_setPaused (paused : Bool) : Unarming ext (ext.setPaused paused) := by
  unfold setPaused
  refine Unarming.trans ?_ (unarming_dbusCall ⟨trivial, rfl, nofun, nofun⟩)
  exact unarming_of_same rfl id rfl rfl rfl

theorem unarming_onSetPausedRetry : Unarming ext ext.onSetPausedRetry := by
  unfold onSetPausedRetry
  split
  · exact .refl
  · dsimp only
    split_ifs
    · exact unarming_of_same rfl id rfl rfl rfl
    · exact unarming_of_same rfl id rfl rfl rfl
    · refine Unarming.trans ?_ (unarming_dbusCall ⟨trivial, rfl, nofun, nofun⟩)
      exact unarming_of_same rfl id rfl rfl rfl

theorem unarming_showDock (visible : Bool) : Unarming ext (ext.showDock visible) :=
  unarming_of_same rfl id Option.isSome_map rfl rfl

theorem unarming_setOverviewVisible (visible : Bool) : Unarming ext (ext.setOverviewVisible visible) :=
  unarming_of_same rfl id rfl rfl rfl

theorem unarming_onOverviewShowing : Unarming ext ext.onOverviewShowing := by
  have hshown : Unarming ext (ext.setOverviewVisible true) := unarming_setOverviewVisible true
  unfold onOverviewShowing
  dsimp only
  split_ifs
  · exact hshown
  · exact ((hshown.trans (unarming_showDock false)).trans unarming_clearChromeRegions).trans (unarming_setPaused true)

variable [Scalar K] [FloorRing K]

theorem named_regionList : ∀ region ∈ ext.regionList, ∃ id ∈ RegionId.dockBody :: ext.regionButtons, region.1 = id.text := by
  have hnamed : ∀ (actor : StActor K) (id : RegionId), ∀ region ∈ actor.region id, region.1 = id.text := by
    intro actor id region hregion
    unfold StActor.region at hregion
    split_ifs at hregion with hshown
    · rw [← Option.some.inj hregion]
    · cases hregion
  intro region hregion
  rcases List.mem_append.mp hregion with hdock | hbutton
  · exact ⟨.dockBody, List.mem_cons_self .., hnamed _ _ region (Option.mem_toList.mp hdock)⟩
  · obtain ⟨id, hid, hregion⟩ := List.mem_filterMap.mp hbutton
    exact ⟨id, List.mem_cons_of_mem _ hid, hnamed _ _ region hregion⟩

theorem unarming_publishChromeRegions : Unarming ext ext.publishChromeRegions := by
  unfold publishChromeRegions
  split
  · exact .refl
  · split_ifs
    · exact .refl
    · exact unarming_clearChromeRegions
    · exact unarming_clearChromeRegions
    · exact unarming_dbusCall ⟨named_regionList, rfl, nofun, nofun⟩

theorem unarming_positionDock : Unarming ext ext.positionDock := by
  unfold positionDock
  split_ifs
  · exact .refl
  · split
    · exact .refl
    · split_ifs
      · exact .refl
      · exact unarming_publishChromeRegions

theorem unarming_schedulePositionRetries : Unarming ext ext.schedulePositionRetries := by
  unfold schedulePositionRetries
  dsimp only
  split_ifs
  · exact .refl
  · exact unarming_positionDock.trans (unarming_of_same rfl id rfl rfl rfl)
  · exact unarming_positionDock

theorem unarming_onOverviewHidden : Unarming ext ext.onOverviewHidden := by
  have hhidden : Unarming ext (ext.setOverviewVisible false) := unarming_setOverviewVisible false
  unfold onOverviewHidden
  dsimp only
  split_ifs
  · exact hhidden
  · exact ((hhidden.trans (unarming_showDock true)).trans unarming_positionDock).trans (unarming_setPaused false)

/-! ### Arming -/

/-- The buttons that `enable` puts on the dock. -/
def dockButtons : List RegionId := (List.range 6).map .color ++ [.undo, .clear]

/-- The armed colour is one of the colours. -/
def Known (ext : AnnotationExtension K) : Prop := ∃ c : Rgba K, colors[ext.activeColorIndex]? = some c

/-- What a method sends to keep the compositor in step: the colour that it arms, or the one that is
armed once the session is found active; and an activation whenever it brings up the dock. -/
structure Arms (ext ext' : AnnotationExtension K) (post : List (BusCall K)) : Prop where
  calls : ext'.calls = ext.calls ++ post
  known : Known ext → Known ext'
  colour : ext'.annotationSessionActiveOk = true →
    lastWrite BusCall.colour post = colors[ext'.activeColorIndex]? ∧ Known ext' ∨
      ext.annotationSessionActiveOk = true ∧ ext'.activeColorIndex = ext.activeColorIndex ∧
        lastWrite BusCall.colour post = none
  active : ext'.dock.isSome = true →
    lastWrite BusCall.active post = some true ∨ ext.dock.isSome = true ∧ lastWrite BusCall.active post = none
  handler : ∀ call ∈ post, call.handler = .setActive → call.active = some true
  buttons : ext.regionButtons ⊆ dockButtons → ext'.regionButtons ⊆ dockButtons
  made : ext.regionButtons ⊆ dockButtons → ∀ call ∈ post, call.Made dockButtons

omit [Scalar K] [FloorRing K] in
theorem made_mono {call : BusCall K} {buttons buttons' : List RegionId} (h : call.Made buttons) (hsub : buttons ⊆ buttons') :
    call.Made buttons' := by
  unfold BusCall.Made at h ⊢
  cases hmethod : call.method with
  | setChromeRegions regions =>
    rw [hmethod] at h
    intro region hregion
    obtain ⟨id, hid, htext⟩ := h region hregion
    exact ⟨id, List.cons_subset_cons _ hsub hid, htext⟩
  | _ =>
    rw [hmethod] at h
    exact h

omit [FloorRing K] in
theorem Unarming.arms (h : Unarming ext ext') : ∃ post, Arms ext ext' post := by
  obtain ⟨post, hcalls, hplain⟩ := h.sends
  refine ⟨post, hcalls, fun hknown => ?_, fun hok => .inr ⟨h.ok hok, h.index, ?_⟩, fun hdock => ?_,
    fun call hcall => (hplain call hcall).handler, fun hsub => h.buttons.symm ▸ hsub,
    fun hsub call hcall => made_mono (hplain call hcall).made hsub⟩
  · rwa [Known, h.index]
  · exact lastWrite_eq_none.mpr fun call hcall => (hplain call hcall).colour
  · cases hactive : lastWrite BusCall.active post with
    | none => exact .inr ⟨h.dock.symm.trans hdock, rfl⟩
    | some active =>
      obtain ⟨call, hcall, hwrite⟩ := List.mem_filterMap.mp (List.mem_of_getLast? hactive)
      cases active with
      | true => exact .inl rfl
      | false => exact absurd hwrite (hplain call hcall).active

omit [FloorRing K] in
/-- A call for the colour that is armed now. -/
theorem arms_setColor {c : Rgba K} (hcalls : ext'.calls = ext.calls ++ [⟨.setColor c, .warn⟩])
    (hcolor : colors[ext'.activeColorIndex]? = some c) (hdock : ext'.dock.isSome = ext.dock.isSome)
    (hbuttons : ext'.regionButtons = ext.regionButtons) : Arms ext ext' [⟨.setColor c, .warn⟩] where
  calls := hcalls
  known _ := ⟨c, hcolor⟩
  colour _ := .inl ⟨hcolor.symm, c, hcolor⟩
  active hsome := .inr ⟨hdock.symm.trans hsome, rfl⟩
  handler call hcall hhandler := by
    obtain rfl := List.mem_singleton.mp hcall
    cases hhandler
  buttons hsub := hbuttons.symm ▸ hsub
  made _ call hcall := by
    obtain rfl := List.mem_singleton.mp hcall
    exact trivial

omit [FloorRing K] in
theorem arms_activateRegion (id : RegionId) : ∃ post, Arms ext (ext.activateRegion id) post := by
  cases id with
  | clear =>
    have hsent : Unarming ext (ext.dbusCall .clear .warn) := unarming_dbusCall ⟨trivial, rfl, nofun, nofun⟩
    exact hsent.arms
  | undo =>
    have hsent : Unarming ext (ext.dbusCall .undoLast .warn) := unarming_dbusCall ⟨trivial, rfl, nofun, nofun⟩
    exact hsent.arms
  | dockBody => exact Unarming.refl.arms
  | color i =>
    cases hcolor : (colors[i]? : Option (Rgba K)) with
    | none =>
      have hsame : ext.activateRegion (.color i) = ext := by rw [activateRegion, hcolor]
      rw [hsame]
      exact Unarming.refl.arms
    | some c =>
      have harmed : ext.activateRegion (.color i) = (ext.dbusCall (.setColor c) .warn).setActiveColor i := by
        rw [activateRegion, hcolor]
      rw [harmed]
      exact ⟨_, arms_setColor rfl hcolor rfl rfl⟩

omit [FloorRing K] in
theorem arms_enable : ∃ post, Arms ext ext.enable post := by
  cases hdock : ext.dock.isSome with
  | true =>
    have hsame : ext.enable = ext := if_pos hdock
    rw [hsame]
    exact Unarming.refl.arms
  | false =>
    have hstarted : ext.enable =
        ((ext.resetFields.setPaused ext.scene.overviewVisible).connect).startAnnotationActivation := by
      rw [enable, if_neg (by simp [hdock])]
    refine ⟨_, calls_enable hdock, fun _ => ?_, fun hok => ?_, fun _ => .inl rfl, fun call hcall hhandler => ?_,
      fun _ => ?_, fun _ call hcall => ?_⟩
    · exact ⟨⟨0.15, 0.15, 0.15, 1⟩, by rw [hstarted]; rfl⟩
    · rw [hstarted] at hok
      cases hok
    · simp only [List.mem_cons, List.not_mem_nil, or_false] at hcall
      rcases hcall with rfl | rfl
      · cases hhandler
      · rfl
    · rw [hstarted]
      exact List.Subset.refl _
    · simp only [List.mem_cons, List.not_mem_nil, or_false] at hcall
      rcases hcall with rfl | rfl <;> exact trivial

omit [FloorRing K] in
theorem arms_disable : ∃ post, Arms ext ext.disable post := by
  refine ⟨_, calls_disable, id, fun hok => .inr ⟨hok, rfl, rfl⟩, nofun, fun call hcall hhandler => ?_,
    fun _ => List.nil_subset _, fun _ call hcall => ?_⟩
  · simp only [List.mem_cons, List.not_mem_nil, or_false] at hcall
    rcases hcall with rfl | rfl | rfl <;> cases hhandler
  · simp only [List.mem_cons, List.not_mem_nil, or_false] at hcall
    rcases hcall with rfl | rfl | rfl <;> exact trivial

/-- The events that neither bring the dock up or down nor press its buttons. -/
theorem unarming_handle {event : ExtensionEvent K} (henable : event ≠ .enable) (hdisable : event ≠ .disable)
    (hclicked : ∀ id, event ≠ .clicked id) (hactivated : ∀ id kind, event ≠ .regionActivated id kind) :
    Unarming ext (ext.handle event) := by
  cases event with
  | enable => exact absurd rfl henable
  | disable => exact absurd rfl hdisable
  | clicked id => exact absurd rfl (hclicked id)
  | regionActivated id kind => exact absurd rfl (hactivated id kind)
  | scene scene => exact unarming_of_same rfl id rfl rfl rfl
  | overviewShowing => exact unarming_onOverviewShowing
  | overviewHidden => exact unarming_onOverviewHidden
  | setActiveRetry => exact unarming_onSetActiveRetry
  | setPausedRetry => exact unarming_onSetPausedRetry
  | monitorsChanged =>
    change Unarming ext ext.onMonitorsChanged
    unfold onMonitorsChanged
    split_ifs
    · exact unarming_positionDock
    · exact .refl
  | allocation =>
    change Unarming ext ext.onAllocation
    unfold onAllocation
    split_ifs
    · exact unarming_of_same rfl id rfl rfl rfl
    · exact .refl
  | allocDebounce =>
    change Unarming ext ext.onAllocDebounce
    unfold onAllocDebounce
    split_ifs
    · refine Unarming.trans ?_ unarming_positionDock
      exact unarming_of_same rfl id rfl rfl rfl
    · exact .refl
  | idlePos =>
    change Unarming ext ext.onIdlePos
    unfold onIdlePos
    split_ifs
    · exact unarming_schedulePositionRetries.trans (unarming_of_same rfl id rfl rfl rfl)
    · exact .refl
  | dockPositionTimeout =>
    change Unarming ext ext.onDockPositionTimeout
    unfold onDockPositionTimeout
    split_ifs
    · refine Unarming.trans ?_ unarming_schedulePositionRetries
      exact unarming_of_same rfl id rfl rfl rfl
    · exact .refl
  | nameAppeared =>
    change Unarming ext ext.onNameAppeared
    unfold onNameAppeared
    split_ifs
    · exact unarming_trySetAnnotationActive
    · exact .refl

theorem arms_handle (ext : AnnotationExtension K) (event : ExtensionEvent K) :
    ∃ post, Arms ext (ext.handle event) post := by
  cases event with
  | enable => exact arms_enable
  | disable => exact arms_disable
  | clicked id =>
    change ∃ post, Arms ext (ext.onClicked id) post
    unfold onClicked
    split_ifs
    · exact Unarming.refl.arms
    · exact arms_activateRegion id
  | regionActivated id kind =>
    change ∃ post, Arms ext (ext.onRegionActivated id kind) post
    unfold onRegionActivated
    split_ifs
    · exact Unarming.refl.arms
    · exact Unarming.refl.arms
    · exact arms_activateRegion id
  | _ =>
    refine Unarming.arms ?_
    exact unarming_handle (by simp) (by simp) (by simp) (by simp)

/-- Only a reply finds the session active. -/
theorem ok_handle {event : ExtensionEvent K} (hok : (ext.handle event).annotationSessionActiveOk = true) :
    ext.annotationSessionActiveOk = true := by
  have hactivate : ∀ id, (ext.activateRegion id).annotationSessionActiveOk = ext.annotationSessionActiveOk := fun id => by
    cases id with
    | color i =>
      unfold activateRegion
      dsimp only
      split <;> rfl
    | _ => rfl
  cases event with
  | disable => exact hok
  | enable =>
    change ext.enable.annotationSessionActiveOk = true at hok
    unfold enable at hok
    split_ifs at hok
    · exact hok
    · cases hok
  | clicked id =>
    change (ext.onClicked id).annotationSessionActiveOk = true at hok
    unfold onClicked at hok
    split_ifs at hok
    · exact hok
    · exact (hactivate id).symm.trans hok
  | regionActivated id kind =>
    change (ext.onRegionActivated id kind).annotationSessionActiveOk = true at hok
    unfold onRegionActivated at hok
    split_ifs at hok
    · exact hok
    · exact hok
    · exact (hactivate id).symm.trans hok
  | _ =>
    refine Unarming.ok ?_ hok
    exact unarming_handle (by simp) (by simp) (by simp) (by simp)

/-- A reply arms what is armed again, if it finds the session active. -/
theorem arms_onReply (hknown : Known ext) (handler : ReplyHandler) (ok : Bool) :
    ∃ post, Arms ext (ext.onReply handler ok) post := by
  cases handler with
  | null => exact Unarming.refl.arms
  | warn => exact Unarming.refl.arms
  | setChromeRegions =>
    refine Unarming.arms ?_
    exact unarming_of_same rfl id rfl rfl rfl
  | setPaused epoch paused =>
    refine Unarming.arms ?_
    unfold onReply
    dsimp only
    split_ifs
    · exact .refl
    · exact .refl
    · exact .refl
    · exact unarming_of_same rfl id rfl rfl rfl
  | setActive =>
    cases ok with
    | false => exact Unarming.refl.arms
    | true =>
      obtain ⟨c, hcolor⟩ := hknown
      generalize hfound : { ext with annotationSessionActiveOk := true, regionsPublished := false } = found
      generalize hpublished : (if found.closures then found.publishChromeRegions else found) = published
      have hunarming : Unarming found published := by
        rw [← hpublished]
        split_ifs
        · exact unarming_publishChromeRegions
        · exact .refl
      have hindex : published.activeColorIndex = ext.activeColorIndex := by rw [hunarming.index, ← hfound]
      have hdock : published.dock.isSome = ext.dock.isSome := by rw [hunarming.dock, ← hfound]
      have hbuttons : found.regionButtons = ext.regionButtons := by rw [← hfound]
      have hreply : ext.onReply .setActive true = published.dbusCall (.setColor c) .warn := by
        have hpublish : ext.onReply .setActive true = published.publishActiveColor := by
          rw [← hpublished, ← hfound]
          rfl
        rw [hpublish, publishActiveColor, hindex, hcolor]
      rw [hreply]
      obtain ⟨post, hpost⟩ := hunarming.arms
      have hcalls : published.calls = ext.calls ++ post := by rw [hpost.calls, ← hfound]
      have hcolor' : colors[published.activeColorIndex]? = some c := hindex ▸ hcolor
      refine ⟨post ++ [⟨.setColor c, .warn⟩], ?_, fun _ => ⟨c, hcolor'⟩, fun _ => .inl ⟨?_, c, hcolor'⟩,
        fun hsome => ?_, fun call hcall hhandler => ?_, fun hsub => ?_, fun hsub call hcall => ?_⟩
      · rw [dbusCall, hcalls, List.append_assoc]
      · rw [lastWrite_append]
        exact hcolor'.symm
      · rw [lastWrite_append]
        rcases hpost.active hsome with hactive | ⟨hold, hactive⟩
        · exact .inl hactive
        · exact .inr ⟨hdock.symm.trans hsome, hactive⟩
      · rcases List.mem_append.mp hcall with hcall | hcall
        · exact hpost.handler call hcall hhandler
        · obtain rfl := List.mem_singleton.mp hcall
          cases hhandler
      · exact hpost.buttons (hbuttons.symm ▸ hsub)
      · rcases List.mem_append.mp hcall with hcall | hcall
        · exact hpost.made (hbuttons.symm ▸ hsub) call hcall
        · obtain rfl := List.mem_singleton.mp hcall
          exact trivial

end AnnotationExtension

end Annotations
