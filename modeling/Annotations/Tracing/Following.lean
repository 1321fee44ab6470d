import Annotations.Tracing.Permits

/-! Which strokes follow the scroll: those of a press inside the editor region, unless
the press was made in erase mode. -/

namespace Annotations

open Runs

variable {K : Type} [Scalar K]

namespace MetaAnnotationLayer

variable {layer : MetaAnnotationLayer K} {event : ClutterEvent K} {op : LayerOp K}

/-- The event is inside the editor region of the window it picks. -/
def pressInRegion (layer : MetaAnnotationLayer K) (event : ClutterEvent K) : Bool :=
  match layer.pickAnchorWindow event.x event.y with
  | none => false
  | some win =>
    match layer.perWindow win with
    | none => false
    | some ink =>
      let here := (layer.frameRect win).toLocal event.x event.y
      hasRegion (some ink) && ink.editorContains here.1 here.2

/-- Step `k` of the run creates the strokes with the addresses from `nextStroke` on, and
step `j` is the press they belong to. `m` is any later moment. -/
structure Created (start : MetaAnnotationLayer K) (ops : List (LayerOp K)) (j k m : ℕ)
    (event : ClutterEvent K) (s : Stroke K) : Prop where
  handled : ∃ nowUs, ops[j]? = some (.handleEvent event nowUs)
  begins : (stateAt step start ops j).begins event
  latest : ∀ i, j < i → i ≤ k → ∀ event' nowUs, ops[i]? = some (.handleEvent event' nowUs) →
    (stateAt step start ops i).begins event' = false
  order : j ≤ k ∧ k < m ∧ m ≤ ops.length
  fresh : (stateAt step start ops k).nextStroke ≤ s.addr
  old : s.addr < (stateAt step start ops (k + 1)).nextStroke
  stored : ∃ c strokes, (stateAt step start ops m).canvasStrokes c = some strokes ∧ s ∈ strokes

/-- The decision of a press, read off the state before it. -/
theorem pressFollows_eq (erase : Bool) :
    layer.pressFollows event.x event.y event.getPressure event.getTiltFactor erase =
      (!erase && layer.pressInRegion event) := by
  unfold pressFollows pressFollowsScroll pressInRegion
  rw [placeStroke_strokeAnchor]
  cases hpick : layer.pickAnchorWindow event.x event.y with
  | none => simp [anchorInk]
  | some win =>
    obtain ⟨hrecords, hx, hy⟩ := placeStroke_picked hpick event.getPressure event.getTiltFactor
    simp only [anchorInk, Option.bind_some, hrecords, hx, hy]
    unfold ensureWindowInk
    cases hink : layer.perWindow win with
    | some ink => simp [hink, Bool.and_assoc]
    | none =>
      dsimp only
      split_ifs
      · simp [hink]
      · simp [hasRegion]

/-! ### One press -/

omit [Scalar K] in
theorem setCanvasStrokes_followScroll {c : Canvas} (strokes : List (Stroke K)) :
    (layer.setCanvasStrokes c strokes).strokeFollowScroll = layer.strokeFollowScroll := by
  cases c <;> rfl

theorem appendInkPoint_followScroll {c : Canvas} (pt : InkPoint K) (followScroll : Bool) :
    (layer.appendInkPoint c pt followScroll).strokeFollowScroll = layer.strokeFollowScroll := by
  unfold appendInkPoint
  split
  · rfl
  next strokes _ =>
    dsimp only
    split_ifs
    · exact setCanvasStrokes_followScroll _
    · split <;> rfl

theorem beginStroke_followScroll (x y : K) (pressure tiltFactor : Option K) (erase : Bool) :
    (layer.beginStroke x y pressure tiltFactor erase).strokeFollowScroll =
      layer.pressFollows x y pressure tiltFactor erase := by
  unfold beginStroke
  dsimp only
  split_ifs
  · rfl
  · exact appendInkPoint_followScroll ..

/-- An event that begins a stroke does nothing else to the pen. -/
theorem handleEvent_of_begins (nowUs : ℤ) (hbegins : layer.begins event) :
    (layer.handleEvent event nowUs).1 = layer.pressAt event nowUs ∨
      (layer.handleEvent event nowUs).1 = (layer.beginStroke event.x event.y event.getPressure
        event.getTiltFactor (layer.eraseIsActive event)).cancelTapPending := by
  have htakes := takesEvents_of_begins hbegins
  unfold begins at hbegins
  unfold handleEvent
  simp only [htakes, Bool.not_true, Bool.false_eq_true, if_false, Bool.true_and] at hbegins ⊢
  cases htype : event.type with
  | buttonPress =>
    simp only [htype, Bool.and_eq_true, Bool.not_eq_true', Option.isNone_iff_eq_none] at hbegins
    left
    have hbutton : ¬ (event.getButton ≠ clutterButtonPrimary ∧ event.getDeviceTool.isNone) := by
      rintro ⟨hprimary, htool⟩
      simp [hprimary, htool] at hbegins
    simp only [handleButtonPress, if_neg hbutton, hbegins.2]
  | touchBegin => exact .inl rfl
  | motion =>
    simp only [htype, Bool.and_eq_true, Bool.not_eq_true'] at hbegins
    right
    simp [handleMotion, hbegins.1, hbegins.2]
  | _ => simp [htype] at hbegins

theorem strokeFollowScroll_step_of_begins {nowUs : ℤ} (hbegins : layer.begins event) :
    (layer.step (.handleEvent event nowUs)).strokeFollowScroll =
      (!layer.eraseIsActive event && layer.pressInRegion event) := by
  have hexec : (layer.step (.handleEvent event nowUs)).strokeFollowScroll =
      (layer.handleEvent event nowUs).1.strokeFollowScroll := rfl
  rw [hexec, ← pressFollows_eq, ← beginStroke_followScroll]
  rcases handleEvent_of_begins nowUs hbegins with h | h
  · rw [h]
    rfl
  · rw [h]
    rfl

/-- Beginning and continuing a stroke exclude each other. -/
theorem not_continues_of_begins (hbegins : layer.begins event) : layer.continues event = false := by
  unfold begins at hbegins
  unfold continues
  cases htype : event.type <;> simp_all

/-- A step that is not a press keeps the coordinate space of a pen that is down. -/
theorem strokeFollowScroll_step (hkept : Kept layer)
    (hop : ∀ event nowUs, op = .handleEvent event nowUs → layer.begins event = false)
    (hdown : (layer.step op).strokeActive) :
    layer.strokeActive ∧ (layer.step op).strokeFollowScroll = layer.strokeFollowScroll := by
  have htraces := traces_exec hkept.wellFormed hkept.sound hkept.surfaced op
  refine htraces.follow_eq (fun c follow tip hL => ?_) hdown
  cases op with
  | handleEvent event nowUs =>
    have hbegins := hop event nowUs rfl
    have hpress : layer.begins event := hL.1
    simp [hbegins] at hpress
  | call call => exact hL
  | setChromePressActive id => exact hL
  | clearChromePress => exact hL

/-- A step that is the press `F` decides, or comes after it, creates strokes of that
coordinate space. -/
theorem follows_step {F : Bool} (hkept : Kept layer)
    (hpress : ∀ event nowUs, op = .handleEvent event nowUs → layer.begins event →
      (!layer.eraseIsActive event && layer.pressInRegion event) = F)
    (hafter : (∀ event nowUs, op = .handleEvent event nowUs → layer.begins event = false) →
      layer.strokeActive → layer.strokeFollowScroll = F) :
    Follows (Set.Ici layer.nextStroke) F (layer.step op).drawing := by
  have htraces := traces_exec hkept.wellFormed hkept.sound hkept.surfaced op
  have hold : Follows (Set.Ici layer.nextStroke) F layer.drawing := by
    intro c strokes hstrokes s hs haddr
    have hfresh := hkept.wellFormed.distinct.fresh c s.addr
    rw [addrs_sheets hstrokes] at hfresh
    exact absurd (hfresh (List.mem_map_of_mem hs)) (not_lt.mpr haddr)
  refine htraces.follows (fun c follow tip hL => ?_) (fun hL => ⟨fun c follow tip hL' => ?_, fun hdown => ?_⟩) hold
  · cases op with
    | handleEvent event nowUs =>
      obtain ⟨hbegins, _, rfl, _⟩ := hL
      rw [pressFollows_eq]
      exact hpress event nowUs rfl hbegins
    | call call => exact absurd hL id
    | setChromePressActive id => exact absurd hL fun h => h
    | clearChromePress => exact absurd hL fun h => h
  · cases op with
    | handleEvent event nowUs =>
      have hcontinues : layer.continues event := hL.1
      simp [not_continues_of_begins hL'.1] at hcontinues
    | call call => exact hL
    | setChromePressActive id => exact hL
    | clearChromePress => exact hL
  · refine hafter (fun event nowUs hop => ?_) hdown
    subst hop
    by_contra hbegins
    have hcontinues : layer.continues event := hL.1
    simp [not_continues_of_begins (Bool.of_not_eq_false hbegins)] at hcontinues

/-! ### Runs -/

variable {start : MetaAnnotationLayer K} {ops : List (LayerOp K)} {j k m : ℕ} {s : Stroke K}

/-- What the press decided stands until the stroke is created. -/
theorem Created.strokeFollowScroll_eq (h : Created start ops j k m event s) (hstart : Kept start) {i : ℕ}
    (hji : j < i) (hik : i ≤ k) (hdown : (stateAt step start ops i).strokeActive) :
    (stateAt step start ops i).strokeFollowScroll = (!(stateAt step start ops j).eraseIsActive event &&
      (stateAt step start ops j).pressInRegion event) := by
  obtain ⟨nowUs, hget⟩ := h.handled
  induction i with
  | zero => exact absurd hji (Nat.not_lt_zero j)
  | succ i ih =>
    have hlt : i < ops.length := by
      have horder := h.order
      omega
    have hop : ops[i]? = some ops[i] := List.getElem?_eq_getElem hlt
    rw [stateAt_succ hop] at hdown ⊢
    rcases Nat.lt_succ_iff_lt_or_eq.mp hji with hji' | rfl
    · obtain ⟨hdown', hsame⟩ := strokeFollowScroll_step (kept_stateAt hstart i)
        (fun event' nowUs' heq => h.latest i hji' (by omega) event' nowUs' (heq ▸ hop)) hdown
      rw [hsame]
      exact ih hji' (by omega) hdown'
    · obtain heq : ops[j] = .handleEvent event nowUs := Option.some.inj (hop.symm.trans hget)
      rw [heq]
      exact strokeFollowScroll_step_of_begins h.begins

theorem Created.follows (h : Created start ops j k m event s) (hstart : Kept start) :
    Follows (Set.Ici (stateAt step start ops k).nextStroke)
      (!(stateAt step start ops j).eraseIsActive event && (stateAt step start ops j).pressInRegion event)
      (stateAt step start ops (k + 1)).drawing := by
  obtain ⟨nowUs, hget⟩ := h.handled
  have hlt : k < ops.length := by
    have horder := h.order
    omega
  have hop : ops[k]? = some ops[k] := List.getElem?_eq_getElem hlt
  have hjk : j = k ∨ j < k := Nat.eq_or_lt_of_le h.order.1
  rw [stateAt_succ hop]
  refine follows_step (kept_stateAt hstart k) (fun event' nowUs' heq hbegins => ?_) fun hbegins hdown => ?_
  · rcases hjk with rfl | hlt
    · have hsame : LayerOp.handleEvent event' nowUs' = .handleEvent event nowUs :=
        Option.some.inj (((heq ▸ hop).symm).trans hget)
      obtain ⟨rfl, _⟩ := LayerOp.handleEvent.inj hsame
      rfl
    · simp [h.latest k hlt le_rfl event' nowUs' (heq ▸ hop)] at hbegins
  · rcases hjk with rfl | hlt
    · have heq : ops[j] = .handleEvent event nowUs := Option.some.inj (hop.symm.trans hget)
      have hpress := h.begins
      simp [hbegins event nowUs heq] at hpress
    · exact h.strokeFollowScroll_eq hstart hlt le_rfl hdown

/-- A stroke keeps the coordinate space it was created in. -/
theorem follows_stateAt {n : ℕ} {F : Bool} (hstart : Kept start) (hkm : k ≤ m) (hm : m ≤ ops.length)
    (h : Follows (Set.Ico n (stateAt step start ops k).nextStroke) F (stateAt step start ops k).drawing) :
    Follows (Set.Ico n (stateAt step start ops k).nextStroke) F (stateAt step start ops m).drawing ∧
      (stateAt step start ops k).nextStroke ≤ (stateAt step start ops m).nextStroke := by
  induction m with
  | zero =>
    obtain rfl : k = 0 := Nat.le_zero.mp hkm
    exact ⟨h, le_rfl⟩
  | succ m ih =>
    rcases Nat.eq_or_lt_of_le hkm with rfl | hlt
    · exact ⟨h, le_rfl⟩
    · obtain ⟨hfollows, hnext⟩ := ih (by omega) (by omega)
      have hop : ops[m]? = some ops[m] := List.getElem?_eq_getElem hm
      have hkept : Kept (stateAt step start ops m) := kept_stateAt hstart m
      have htraces := traces_exec hkept.wellFormed hkept.sound hkept.surfaced ops[m]
      rw [stateAt_succ hop]
      exact ⟨htraces.follows_old (fun a ha => ha.2.trans_le hnext) hfollows, hnext.trans htraces.next_le⟩

/-- A stroke follows the scroll if its press was inside the editor region, exactly when
that press was not made in erase mode. -/
theorem followScroll_iff (display : MetaDisplay) (input : AnnotationInput K) (width height : ℤ)
    (ops : List (LayerOp K)) (j k m : ℕ) (event : ClutterEvent K) (s : Stroke K)
    (h : Created (metaAnnotationLayerNew display input width height) ops j k m event s) :
    let press := stateAt step (metaAnnotationLayerNew display input width height) ops j
    s.followScroll = press.pressInRegion event ↔
      ¬ (press.eraseIsActive event ∧ press.pressInRegion event) := by
  intro press
  obtain ⟨c, strokes, hstrokes, hs⟩ := h.stored
  have hcreated := h.follows kept_new
  have hrange : Follows (Set.Ico (stateAt step (metaAnnotationLayerNew display input width height) ops k).nextStroke
      (stateAt step (metaAnnotationLayerNew display input width height) ops (k + 1)).nextStroke) _
      (stateAt step (metaAnnotationLayerNew display input width height) ops (k + 1)).drawing :=
    fun c strokes hstrokes s hs hA => hcreated c strokes hstrokes s hs hA.1
  have hlater := (follows_stateAt kept_new h.order.2.1 h.order.2.2 hrange).1
  have hfollow := hlater c strokes hstrokes s hs ⟨h.fresh, h.old⟩
  rw [hfollow]
  cases press.eraseIsActive event <;> cases press.pressInRegion event <;> decide

/-- A press in ink mode inside the region. -/
theorem followScroll_iff_inside :
    let ops : List (LayerOp ℚ) := [.call (.setActive true), .call (.setWindowEditorRegion 1 0 0 5 5),
      .handleEvent (.pen .buttonPress 1 1 1 true) 0]
    ∃ s, Created (metaAnnotationLayerNew .oneWindow .initial 10 10) ops 2 2 3 (.pen .buttonPress 1 1 1 true) s ∧
      let press := stateAt step (metaAnnotationLayerNew .oneWindow .initial 10 10) ops 2
      (s.followScroll = press.pressInRegion (.pen .buttonPress 1 1 1 true) ↔
        ¬ (press.eraseIsActive (.pen .buttonPress 1 1 1 true) ∧
          press.pressInRegion (.pen .buttonPress 1 1 1 true))) := by
  intro ops
  generalize hlayer : stateAt step (metaAnnotationLayerNew .oneWindow .initial 10 10) ops 3 = layer
  have hone : (layer.canvasStrokes (some 0)).map (·.map (·.addr)) = some [0] := by
    rw [← hlayer]
    decide +kernel
  obtain ⟨strokes, hstrokes, haddrs⟩ := Option.map_eq_some_iff.mp hone
  obtain ⟨s, rfl, haddr⟩ := List.map_eq_singleton_iff.mp haddrs
  have hcreated : Created (metaAnnotationLayerNew .oneWindow .initial 10 10) ops 2 2 3
      (.pen .buttonPress 1 1 1 true) s :=
    { handled := ⟨0, rfl⟩
      begins := by decide +kernel
      latest := fun i hlt hle => by omega
      order := ⟨le_rfl, by decide, le_rfl⟩
      fresh := by
        rw [haddr]
        decide +kernel
      old := by
        rw [haddr]
        decide +kernel
      stored := ⟨some 0, [s], by rw [hlayer, hstrokes], List.mem_singleton_self s⟩ }
  exact ⟨s, hcreated, followScroll_iff _ _ _ _ _ _ _ _ _ _ hcreated⟩

/-- A press inside the region with a barrel button down, which is released before the
pen moves: the stroke that the motion seeds does not follow the scroll. -/
theorem not_followScroll_flipped :
    let ops : List (LayerOp ℚ) := [.call (.setActive true), .call (.setWindowEditorRegion 1 0 0 5 5),
      .handleEvent (.pen .buttonPress 1 1 2 false) 0, .handleEvent (.pen .buttonPress 1 1 1 true) 1,
      .handleEvent (.pen .buttonRelease 1 1 2 true) 2, .handleEvent (.pen .motion 2 2 0 true) 3]
    ∃ s, Created (metaAnnotationLayerNew .oneWindow .initial 10 10) ops 3 5 6 (.pen .buttonPress 1 1 1 true) s ∧
      (stateAt step (metaAnnotationLayerNew .oneWindow .initial 10 10) ops 3).pressInRegion
        (.pen .buttonPress 1 1 1 true) ∧
      s.followScroll = false := by
  intro ops
  generalize hlayer : stateAt step (metaAnnotationLayerNew .oneWindow .initial 10 10) ops 6 = layer
  have hone : (layer.canvasStrokes (some 0)).map (·.map fun s => (s.addr, s.followScroll)) =
      some [(0, false)] := by
    rw [← hlayer]
    decide +kernel
  obtain ⟨strokes, hstrokes, hdata⟩ := Option.map_eq_some_iff.mp hone
  obtain ⟨s, rfl, hs⟩ := List.map_eq_singleton_iff.mp hdata
  obtain ⟨haddr, hfollow⟩ := Prod.mk.inj hs
  refine ⟨s, ?_, by decide +kernel, hfollow⟩
  exact
    { handled := ⟨1, rfl⟩
      begins := by decide +kernel
      latest := fun i hlt hle event' nowUs hget => by
        obtain rfl | rfl : i = 4 ∨ i = 5 := by omega
        · obtain ⟨rfl, _⟩ := LayerOp.handleEvent.inj (Option.some.inj hget)
          decide +kernel
        · obtain ⟨rfl, _⟩ := LayerOp.handleEvent.inj (Option.some.inj hget)
          decide +kernel
      order := by decide
      fresh := by
        rw [haddr]
        decide +kernel
      old := by
        rw [haddr]
        decide +kernel
      stored := ⟨some 0, [s], by rw [hlayer, hstrokes], List.mem_singleton_self s⟩ }

end MetaAnnotationLayer

end Annotations
