import Annotations.Publishing.Registry

/-! What has been published for a process reaches the records of its windows. A record
that is set up after the publication starts blank, which is where a scroll or a region
gets lost, and a record holds what is published rounded to `float`. -/

namespace Annotations

open Runs Sheets
open Scalar (toFloat)

variable {K : Type} [Scalar K]

namespace Frame

variable (f : Frame K)

/-- The region as it is published. -/
def publishRegion (x y w h : ℤ) : Frame K :=
  if w ≤ 0 ∨ h ≤ 0 then
    { f with hasEditorRegion := false, editorX := 0, editorY := 0, editorW := 0, editorH := 0 }
  else { f with hasEditorRegion := true, editorX := x, editorY := y, editorW := w, editorH := h }

def publishScroll (scrollX scrollY : ℤ) : Frame K := { f with scrollX := scrollX, scrollY := scrollY }

end Frame

/-- The region and the scroll last published for every process. -/
def publish (pub : ℕ → Frame K) : LayerOp K → ℕ → Frame K
  | .call (.setWindowEditorRegion pid x y w h) => Function.update pub pid ((pub pid).publishRegion x y w h)
  | .call (.setWindowScroll pid scrollX scrollY) =>
    Function.update pub pid ((pub pid).publishScroll scrollX scrollY)
  | _ => pub

def published (ops : List (LayerOp K)) : ℕ → Frame K := ops.foldl publish fun _ => .blank

theorem published_concat (ops : List (LayerOp K)) (op : LayerOp K) :
    published (ops ++ [op]) = publish (published ops) op := List.foldl_concat ..

/-- The number is a `float`. -/
def IsFloat (K : Type) [Scalar K] (n : ℤ) : Prop := toFloat (n : K) = n

/-- The region is empty, or its coordinates are floats. -/
def RegionIsFloat (K : Type) [Scalar K] (x y w h : ℤ) : Prop :=
  w ≤ 0 ∨ h ≤ 0 ∨ IsFloat K x ∧ IsFloat K y ∧ IsFloat K w ∧ IsFloat K h

namespace Frame

variable {f f' : Frame K}

/-- A region hides what the one before was, but not the scroll. -/
theorem withRegion_eq_publishRegion_iff (x y w h : ℤ) : f.withRegion x y w h = f'.publishRegion x y w h ↔
    RegionIsFloat K x y w h ∧ f.scrollX = f'.scrollX ∧ f.scrollY = f'.scrollY := by
  unfold withRegion publishRegion RegionIsFloat IsFloat
  rw [← or_assoc]
  split_ifs with hempty
  · simp [Frame.ext_iff, hempty]
  · simp [Frame.ext_iff, hempty, and_assoc]

theorem withRegion_blank_iff (x y w h : ℤ) :
    (blank : Frame K).withRegion x y w h = f.withRegion x y w h ↔ f.scrollX = 0 ∧ f.scrollY = 0 := by
  unfold withRegion blank
  split_ifs <;> simp [Frame.ext_iff, eq_comm]

theorem withScroll_eq_publishScroll_iff (scrollX scrollY : ℤ) :
    f.withScroll scrollX scrollY = f.publishScroll scrollX scrollY ↔ IsFloat K scrollX ∧ IsFloat K scrollY := by
  simp [withScroll, publishScroll, Frame.ext_iff, IsFloat]

end Frame

namespace Registry

variable {r : Registry K} {pub : ℕ → Frame K} {win : WindowId} {f : Frame K}

/-- Every record is up to date. -/
def Carries (pub : ℕ → Frame K) (r : Registry K) : Prop := ∀ win f, r.frame win = some f → f = pub (r.pid win)

def Roomy (r : Registry K) : Prop := ∀ win f, r.frame win = some f → win ∈ r.display.windows

omit [Scalar K] in
theorem mem_collectWindowsForPid {pid : ℕ} : win ∈ r.display.collectWindowsForPid pid ↔
    pid ≠ 0 ∧ win ∈ r.display.windows ∧ r.pid win = pid := by
  unfold MetaDisplay.collectWindowsForPid
  split_ifs with hzero <;> simp [hzero, Registry.pid]

/-- A press keeps the records up to date if the record it sets up has nothing to catch
up with. -/
theorem carries_press (h : r.Carries pub) (hsize : 1 ≤ (r.rect win).width ∧ 1 ≤ (r.rect win).height) :
    (r.press (some win)).Carries pub ↔ (r.frame win = none → pub (r.pid win) = .blank) := by
  have hrecord : recordOn (r.rect win) (none : Option (Frame K)) = some .blank := by
    rw [recordOn, if_neg]
    omega
  constructor
  · intro hafter hnone
    exact (hafter win .blank (by simp [press, write, hnone, hrecord])).symm
  · intro hblank win' f hf
    by_cases hwin : win' = win
    · subst hwin
      cases hframe : r.frame win' with
      | none =>
        obtain rfl : .blank = f := by simpa [press, write, hframe, hrecord] using hf
        exact (hblank hframe).symm
      | some f' =>
        obtain rfl : f' = f := by simpa [press, write, hframe, recordOn] using hf
        exact h win' f' hframe
    · exact h win' f (by simpa [press, write, hwin] using hf)

omit [Scalar K] in
/-- A publication that writes the records of a process, and sets up new ones with `new`,
keeps all records up to date if it writes what it publishes, into the new ones too, and if
it reaches the windows of that process or says nothing new. -/
theorem carries_write {pid : ℕ} {g p : Frame K → Frame K} {new : MtkRectangle → Option (Frame K)}
    (h : r.Carries pub) (hroomy : r.Roomy) :
    (r.write (r.display.collectWindowsForPid pid) fun rect f => (f.orElse fun _ => new rect).map g).Carries
        (Function.update pub pid (p (pub pid))) ↔
      (∀ win ∈ r.display.collectWindowsForPid pid, ∀ f, ((r.frame win).orElse fun _ => new (r.rect win)) = some f →
        g f = p (pub pid)) ∧
      ((∃ win f, r.frame win = some f ∧ r.pid win = 0) → pid = 0 → p (pub 0) = pub 0) := by
  constructor
  · intro hafter
    refine ⟨fun win hwin f hwritten => ?_, ?_⟩
    · obtain ⟨_, _, hpid⟩ := mem_collectWindowsForPid.mp hwin
      have hg := hafter win (g f) (by simp only [write, if_pos hwin, hwritten, Option.map_some])
      rw [hg]
      exact (congrArg _ hpid).trans (Function.update_self ..)
    · rintro ⟨win, f, hf, hunknown⟩ rfl
      have hnot : win ∉ r.display.collectWindowsForPid 0 := fun hwin => (mem_collectWindowsForPid.mp hwin).1 rfl
      have hp := hafter win f (by simpa [write, hnot] using hf)
      rw [show (r.write _ _).pid win = 0 from hunknown, Function.update_self] at hp
      rw [← hp, h win f hf, hunknown]
  · rintro ⟨hwritten, hunknown⟩ win f hf
    by_cases hwin : win ∈ r.display.collectWindowsForPid pid
    · obtain ⟨_, _, hpid⟩ := mem_collectWindowsForPid.mp hwin
      have hpub : Function.update pub pid (p (pub pid)) ((r.write (r.display.collectWindowsForPid pid)
          fun rect f => (f.orElse fun _ => new rect).map g).pid win) = p (pub pid) :=
        (congrArg _ hpid).trans (Function.update_self ..)
      rw [hpub]
      simp only [write, if_pos hwin] at hf
      obtain ⟨f', hf', rfl⟩ := Option.map_eq_some_iff.mp hf
      exact hwritten win hwin f' hf'
    · simp only [write, if_neg hwin] at hf
      have hold := h win f hf
      change f = Function.update pub pid (p (pub pid)) (r.pid win)
      by_cases hpid : r.pid win = pid
      · obtain rfl : pid = 0 := by
          by_contra hpos
          exact hwin (mem_collectWindowsForPid.mpr ⟨hpos, hroomy win f hf, hpid⟩)
        rw [hpid, Function.update_self, hunknown ⟨win, f, hf, hpid⟩ rfl, hold, hpid]
      · rw [Function.update_of_ne hpid]
        exact hold

end Registry

namespace MetaAnnotationLayer

variable {layer : MetaAnnotationLayer K} {pub : ℕ → Frame K}

/-- Every record has the region and the scroll published for the process of its window. -/
def Carries (pub : ℕ → Frame K) (layer : MetaAnnotationLayer K) : Prop :=
  ∀ win ink, layer.perWindow win = some ink → ink.frame = pub (layer.display.window win).pid

/-- There is a record of a window whose process is not known. -/
def TracksUnknown (layer : MetaAnnotationLayer K) : Prop :=
  ∃ win ink, layer.perWindow win = some ink ∧ (layer.display.window win).pid = 0

/-- The operation sets up no record that lacks something published before, writes nothing
that is rounded, and does not publish news for processes that are not known. -/
def LosesNothing (pub : ℕ → Frame K) (layer : MetaAnnotationLayer K) : LayerOp K → Prop
  | .handleEvent event _ => ∀ win, layer.begins event → layer.pickAnchorWindow event.x event.y = some win →
    layer.perWindow win = none → pub (layer.display.window win).pid = .blank
  | .call (.setWindowEditorRegion pid x y w h) =>
    (∀ win ∈ layer.display.collectWindowsForPid pid, (layer.perWindow win).isSome → RegionIsFloat K x y w h) ∧
    (∀ win ∈ layer.display.collectWindowsForPid pid, layer.perWindow win = none →
      1 ≤ (layer.frameRect win).width → 1 ≤ (layer.frameRect win).height →
        RegionIsFloat K x y w h ∧ (pub pid).scrollX = 0 ∧ (pub pid).scrollY = 0) ∧
    (layer.TracksUnknown → pid = 0 → (pub 0).publishRegion x y w h = pub 0)
  | .call (.setWindowScroll pid scrollX scrollY) =>
    (∀ win ∈ layer.display.collectWindowsForPid pid, (layer.perWindow win).isSome →
      IsFloat K scrollX ∧ IsFloat K scrollY) ∧
    (layer.TracksUnknown → pid = 0 → (pub 0).publishScroll scrollX scrollY = pub 0)
  | _ => True

omit [Scalar K] in
theorem carries_iff_registry : layer.Carries pub ↔ layer.registry.Carries pub := by
  constructor
  · intro h win f hf
    obtain ⟨ink, hink, rfl⟩ := Option.map_eq_some_iff.mp hf
    exact h win ink hink
  · intro h win ink hink
    exact h win ink.frame (by simp [registry, hink])

omit [Scalar K] in
theorem tracksUnknown_iff : layer.TracksUnknown ↔
    ∃ win f, layer.registry.frame win = some f ∧ layer.registry.pid win = 0 := by
  constructor
  · rintro ⟨win, ink, hink, hpid⟩
    exact ⟨win, ink.frame, by simp [registry, hink], hpid⟩
  · rintro ⟨win, f, hf, hpid⟩
    obtain ⟨ink, hink, rfl⟩ := Option.map_eq_some_iff.mp hf
    exact ⟨win, ink, hink, hpid⟩

omit [Scalar K] in
theorem roomy_registry (hwf : WellFormed layer.sheets) : layer.registry.Roomy := by
  intro win f hf
  obtain ⟨ink, hink, rfl⟩ := Option.map_eq_some_iff.mp hf
  exact hwf.roomy (some win) (by simp [sheets, canvasStrokes, hink]) win rfl

omit [Scalar K] in
/-- The process of a window does not change. -/
theorem carries_modifyWindow {r : Registry K} (h : r.Carries pub) (win : WindowId) (g : MetaWindow → MetaWindow)
    (hg : ∀ w, (g w).pid = w.pid) :
    Registry.Carries pub { r with display := r.display.modifyWindow win g } := by
  intro win' f hf
  have hpid : Registry.pid { r with display := r.display.modifyWindow win g } win' = r.pid win' := by
    unfold Registry.pid MetaDisplay.modifyWindow
    by_cases hwin : win' = win
    · subst hwin
      simp [hg]
    · simp [hwin]
  rw [hpid]
  exact h win' f hf

/-- Calls other than publications keep records up to date. -/
theorem carries_call {r : Registry K} (hroomy : r.Roomy) (h : r.Carries pub) {call : Call K}
    (hregion : ∀ pid x y w h, call ≠ .setWindowEditorRegion pid x y w h)
    (hscroll : ∀ pid scrollX scrollY, call ≠ .setWindowScroll pid scrollX scrollY) :
    (r.call call).Carries pub := by
  cases call with
  | setWindowEditorRegion pid x y w h => exact absurd rfl (hregion pid x y w h)
  | setWindowScroll pid scrollX scrollY => exact absurd rfl (hscroll pid scrollX scrollY)
  | windowFrameChanged win frame => exact carries_modifyWindow h win _ fun _ => rfl
  | windowMinimized win minimized => exact carries_modifyWindow h win _ fun _ => rfl
  | windowWorkspaceChanged win workspace onAllWorkspaces => exact carries_modifyWindow h win _ fun _ => rfl
  | windowHidden win hidden restacked => exact carries_modifyWindow h win _ fun _ => rfl
  | windowManaged win data =>
    change Registry.Carries pub (if win ∈ r.display.windows then r else _)
    split_ifs with hmanaged
    · exact h
    · intro win' f hf
      -- a window that is not managed has no record
      have hne : win' ≠ win := fun hwin => hmanaged (hwin ▸ hroomy win' f hf)
      have hpid : Registry.pid { r with display := r.display.insertWindow win data } win' = r.pid win' := by
        simp [Registry.pid, MetaDisplay.insertWindow, hne]
      rw [hpid]
      exact h win' f hf
  | windowUnmanaged win =>
    intro win' f hf
    by_cases hwin : win' = win
    · subst hwin
      simp [Registry.call] at hf
    · exact h win' f (by simpa [Registry.call, hwin] using hf)
  | _ => exact h

/-- One operation keeps the records up to date exactly when it loses nothing. -/
theorem carries_step (hkept : Kept layer) (hcarries : layer.Carries pub) (op : LayerOp K) :
    (layer.step op).Carries (publish pub op) ↔ layer.LosesNothing pub op := by
  have hroomy := roomy_registry hkept.wellFormed
  rw [carries_iff_registry] at hcarries ⊢
  cases op with
  | handleEvent event nowUs =>
    have hregistry : (layer.step (.handleEvent event nowUs)).registry = _ := registry_handleEvent event nowUs
    rw [hregistry]
    change Registry.Carries pub _ ↔ _
    cases hbegins : layer.begins event with
    | false => exact iff_of_true hcarries fun win hbegins' => absurd hbegins' (by simp [hbegins])
    | true =>
      rw [if_pos rfl]
      cases hpick : layer.pickAnchorWindow event.x event.y with
      | none => exact iff_of_true hcarries fun win _ hpick' => absurd (hpick.symm.trans hpick') (by simp)
      | some win =>
        have hnone : layer.registry.frame win = none ↔ layer.perWindow win = none := Option.map_eq_none_iff
        rw [Registry.carries_press hcarries (pickAnchorWindow_eq_some hpick).2, hnone]
        constructor
        · rintro hblank win' _ hpick'
          obtain rfl : win = win' := Option.some.inj (hpick.symm.trans hpick')
          exact hblank
        · exact fun hblank => hblank win hbegins hpick
  | call call =>
    have hregistry : (layer.step (.call call)).registry = layer.registry.call call := registry_execCall call
    rw [hregistry]
    cases call with
    | setWindowEditorRegion pid x y w h =>
      have hwritten : layer.registry.call (.setWindowEditorRegion pid x y w h) =
          layer.registry.write (layer.registry.display.collectWindowsForPid pid) fun rect f =>
            (f.orElse fun _ => recordOn rect none).map (·.withRegion x y w h) := by
        refine Registry.ext rfl rfl (funext fun win => ?_)
        cases hf : layer.registry.frame win <;> simp [Registry.call, Registry.write, hf, recordOn]
      rw [hwritten]
      refine (Registry.carries_write (p := (·.publishRegion x y w h)) hcarries hroomy).trans ?_
      rw [← tracksUnknown_iff, LosesNothing, ← and_assoc]
      refine and_congr_left' ((forall₂_congr fun win hwin => ?_).trans forall₂_and)
      obtain ⟨_, _, hpid⟩ := Registry.mem_collectWindowsForPid.mp hwin
      cases hink : layer.perWindow win with
      | some ink =>
        have hframe : layer.registry.frame win = some ink.frame := by simp [registry, hink]
        have hcarried : ink.frame = pub pid := hpid ▸ hcarries win ink.frame hframe
        simp [hframe, hcarried, Frame.withRegion_eq_publishRegion_iff]
      | none =>
        have hframe : layer.registry.frame win = none := by simp [registry, hink]
        have hrect : layer.registry.rect win = layer.frameRect win := rfl
        have hzero : (Frame.blank : Frame K).scrollX = 0 ∧ (Frame.blank : Frame K).scrollY = 0 := ⟨rfl, rfl⟩
        by_cases hsize : (layer.frameRect win).width < 1 ∨ (layer.frameRect win).height < 1
        · have hsmall : 1 ≤ (layer.frameRect win).width → ¬ 1 ≤ (layer.frameRect win).height := by omega
          simp only [hframe, hrect, recordOn, if_pos hsize]
          simpa using fun hwidth hheight => absurd hheight (hsmall hwidth)
        · have hlarge : 1 ≤ (layer.frameRect win).width ∧ 1 ≤ (layer.frameRect win).height := by omega
          simp [hframe, hrect, recordOn, if_neg hsize, hlarge, hzero, Frame.withRegion_eq_publishRegion_iff,
            eq_comm (a := (0 : K))]
    | setWindowScroll pid scrollX scrollY =>
      have hwritten : layer.registry.call (.setWindowScroll pid scrollX scrollY) =
          layer.registry.write (layer.registry.display.collectWindowsForPid pid) fun _ f =>
            (f.orElse fun _ => none).map (·.withScroll scrollX scrollY) := by
        refine Registry.ext rfl rfl (funext fun win => ?_)
        cases hf : layer.registry.frame win <;> simp [Registry.call, Registry.write, hf]
      rw [hwritten]
      have hwrite : (layer.registry.write (layer.registry.display.collectWindowsForPid pid) fun _ f =>
          (f.orElse fun _ => none).map (·.withScroll scrollX scrollY)).Carries
            (Function.update pub pid ((pub pid).publishScroll scrollX scrollY)) ↔ _ :=
        Registry.carries_write (p := (·.publishScroll scrollX scrollY)) hcarries hroomy
      refine hwrite.trans ?_
      rw [← tracksUnknown_iff]
      refine and_congr_left' (forall₂_congr fun win hwin => ?_)
      obtain ⟨_, _, hpid⟩ := Registry.mem_collectWindowsForPid.mp hwin
      cases hink : layer.perWindow win with
      | some ink =>
        have hframe : layer.registry.frame win = some ink.frame := by simp [registry, hink]
        have hcarried : ink.frame = pub pid := hpid ▸ hcarries win ink.frame hframe
        simp [hframe, hcarried, Frame.withScroll_eq_publishScroll_iff]
      | none =>
        have hframe : layer.registry.frame win = none := by simp [registry, hink]
        simp [hframe]
    | _ => exact iff_of_true (carries_call hroomy hcarries (by simp) (by simp)) trivial
  | setChromePressActive id => exact iff_of_true hcarries trivial
  | clearChromePress => exact iff_of_true hcarries trivial

/-! ### Runs -/

/-- A scroll and a region leave the same record in either order, but for a new one. -/
theorem recordOn_comm_iff {x y w h scrollX scrollY : ℤ} (rect : MtkRectangle) (f : Option (Frame K)) :
    (recordOn rect (f.map (·.withScroll scrollX scrollY))).map (·.withRegion x y w h) =
        ((recordOn rect f).map (·.withRegion x y w h)).map (·.withScroll scrollX scrollY) ↔
      (1 ≤ rect.width → 1 ≤ rect.height → f = none → scrollX = 0 ∧ scrollY = 0) := by
  cases f with
  | some f => simp [recordOn, Frame.withRegion_withScroll]
  | none =>
    by_cases hsize : rect.width < 1 ∨ rect.height < 1
    · have hsmall : 1 ≤ rect.width → ¬ 1 ≤ rect.height := by omega
      simp only [Option.map_none, recordOn, if_pos hsize, true_iff]
      exact fun hwidth hheight => absurd hheight (hsmall hwidth)
    · have hlarge : 1 ≤ rect.width ∧ 1 ≤ rect.height := by omega
      have hstill : (Frame.blank : Frame K).withRegion x y w h =
          ((Frame.blank : Frame K).withRegion x y w h).withScroll scrollX scrollY ↔ scrollX = 0 ∧ scrollY = 0 := by
        rw [← Frame.withRegion_withScroll, Frame.withRegion_blank_iff]
        simp [Frame.withScroll]
      simp only [Option.map_none, recordOn, if_neg hsize, Option.map_some, Option.some.injEq, hstill, hlarge,
        true_implies]

/-- The two calls commute exactly when no window of the process is left for the region to
set up, or there is nothing to scroll by. -/
theorem frames_comm_iff (pid : ℕ) (x y w h scrollX scrollY : ℤ) :
    (∀ win, (((layer.setWindowScroll pid scrollX scrollY).setWindowEditorRegion pid x y w h).perWindow win).map
        WindowInk.frame = (((layer.setWindowEditorRegion pid x y w h).setWindowScroll pid scrollX
          scrollY).perWindow win).map WindowInk.frame) ↔
      ∀ win ∈ layer.display.collectWindowsForPid pid, 1 ≤ (layer.frameRect win).width →
        1 ≤ (layer.frameRect win).height → layer.perWindow win = none → scrollX = 0 ∧ scrollY = 0 := by
  have hscroll : (layer.setWindowScroll pid scrollX scrollY).registry = _ := registry_setWindowScroll ..
  have hregion : (layer.setWindowEditorRegion pid x y w h).registry = _ := registry_setWindowEditorRegion ..
  have hscrolled : ((layer.setWindowScroll pid scrollX scrollY).setWindowEditorRegion pid x y w h).registry = _ :=
    registry_setWindowEditorRegion ..
  have hregioned : ((layer.setWindowEditorRegion pid x y w h).setWindowScroll pid scrollX scrollY).registry = _ :=
    registry_setWindowScroll ..
  have hdisplay : (layer.setWindowScroll pid scrollX scrollY).display = layer.display :=
    congrArg Registry.display hscroll
  have hdisplay' : (layer.setWindowEditorRegion pid x y w h).display = layer.display :=
    congrArg Registry.display hregion
  rw [hscroll, hdisplay] at hscrolled
  rw [hregion, hdisplay'] at hregioned
  refine forall_congr' fun win => ?_
  have hleft := congrFun (congrArg Registry.frame hscrolled) win
  have hright := congrFun (congrArg Registry.frame hregioned) win
  simp only [registry] at hleft hright
  rw [hleft, hright]
  by_cases hwin : win ∈ layer.display.collectWindowsForPid pid
  · simp only [Registry.write, hwin, true_implies, ← Option.map_eq_none_iff (f := WindowInk.frame)]
    exact recordOn_comm_iff _ _
  · simp [Registry.write, hwin]

theorem perWindow_new {display : MetaDisplay} {input : AnnotationInput K} {width height : ℤ} (win : WindowId) :
    (metaAnnotationLayerNew display input width height).perWindow win = none := by
  have hregistry : (metaAnnotationLayerNew display input width height).registry =
      (metaAnnotationLayerZero display input).registry :=
    registry_execCall (.stageSizeChanged width height)
  exact Option.map_eq_none_iff.mp (congrFun (congrArg Registry.frame hregistry) win)

/-- In every run, all records have what was last published for their processes at all
moments exactly when no operation loses anything. -/
theorem carries_iff (display : MetaDisplay) (input : AnnotationInput K) (width height : ℤ)
    (ops : List (LayerOp K)) :
    ((∀ k ≤ ops.length, (stateAt step (metaAnnotationLayerNew display input width height) ops k).Carries
        (published (ops.take k))) ↔
      ∀ k op, ops[k]? = some op → (stateAt step (metaAnnotationLayerNew display input width height) ops
        k).LosesNothing (published (ops.take k)) op) ∧
    ∀ pid x y w h scrollX scrollY, let layer := after display input width height ops
      (∀ win, (((layer.setWindowScroll pid scrollX scrollY).setWindowEditorRegion pid x y w h).perWindow
          win).map WindowInk.frame = (((layer.setWindowEditorRegion pid x y w h).setWindowScroll pid scrollX
            scrollY).perWindow win).map WindowInk.frame) ↔
        ∀ win ∈ layer.display.collectWindowsForPid pid, 1 ≤ (layer.frameRect win).width →
          1 ≤ (layer.frameRect win).height → layer.perWindow win = none → scrollX = 0 ∧ scrollY = 0 := by
  refine ⟨⟨fun hall k op hget => ?_, fun hall k hk => ?_⟩, fun pid x y w h scrollX scrollY => frames_comm_iff ..⟩
  · have hlt : k < ops.length := (List.getElem?_eq_some_iff.mp hget).1
    have hnext := hall (k + 1) hlt
    rw [stateAt_succ hget, List.take_add_one, hget, Option.toList_some, published_concat] at hnext
    exact (carries_step (kept_stateAt kept_new k) (hall k hlt.le) op).mp hnext
  · refine stateAt_invariant
      (P := fun k (layer : MetaAnnotationLayer K) => layer.Carries (published (ops.take k)))
      (fun win ink hink => ?_) (fun k op hget hcarries => ?_) hk
    · simp [perWindow_new] at hink
    · rw [List.take_add_one, hget, Option.toList_some, published_concat]
      exact (carries_step (kept_stateAt kept_new k) hcarries op).mpr (hall k op hget)

/-- A scroll that is published before the region of its window is lost. -/
theorem not_carries_scrolled_first :
    let ops : List (LayerOp ℚ) := [.call (.setWindowScroll 1 0 30), .call (.setWindowEditorRegion 1 0 0 5 5)]
    ¬ (after .oneWindow .initial 10 10 ops).Carries (published ops) := by
  intro ops hcarries
  generalize hlayer : after .oneWindow .initial 10 10 ops = layer at hcarries
  have hlost : (layer.perWindow 0).map (·.scrollY) = some 0 := by
    rw [← hlayer]
    decide +kernel
  have hpid : (layer.display.window 0).pid = 1 := by
    rw [← hlayer]
    decide +kernel
  obtain ⟨ink, hink, hscroll⟩ := Option.map_eq_some_iff.mp hlost
  have hframe := congrArg Frame.scrollY (hcarries 0 ink hink)
  have hpublished : (published ops 1).scrollY = 30 := by decide +kernel
  have hscroll' : ink.frame.scrollY = 0 := hscroll
  rw [hpid, hpublished, hscroll'] at hframe
  exact absurd hframe (by decide +kernel)

end MetaAnnotationLayer

end Annotations
