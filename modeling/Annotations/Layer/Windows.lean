import Annotations.Layer.Surfaces

/-! Windows as anchors: which windows take ink, which one a press picks, and the
per-window record (`pick_anchor_window`, `ensure_window_ink`). -/

namespace Annotations

variable {K : Type} [Scalar K]

/-- `mtk_rectangle_contains_pointf`. -/
def MtkRectangle.containsPointf (rect : MtkRectangle) (x y : K) : Bool :=
  (rect.x : K) ≤ x && x < ((rect.x + rect.width : ℤ) : K) &&
    (rect.y : K) ≤ y && y < ((rect.y + rect.height : ℤ) : K)

def MetaWindow.locatedOnWorkspace (win : MetaWindow) (ws : ℕ) : Bool :=
  win.onAllWorkspaces || win.workspace = some ws

/-- `window_is_eligible_anchor`. -/
def windowIsEligibleAnchor (win : MetaWindow) (activeWs : Option ℕ) : Bool :=
  if win.overrideRedirect then false
  else if win.hidden then false
  else if win.windowType = .desktop ∨ win.windowType = .dock then false
  else match activeWs with
    | some ws => win.onAllWorkspaces || win.locatedOnWorkspace ws
    | none => true

/-- `meta_window_stack_position_compare`: by layer, then by stack position. -/
def MetaWindow.stackPositionCompare (a b : MetaWindow) : ℤ :=
  if a.layer < b.layer then -1
  else if a.layer > b.layer then 1
  else if a.stackPosition < b.stackPosition then -1
  else if a.stackPosition > b.stackPosition then 1
  else 0

namespace MetaDisplay

variable (display : MetaDisplay)

/-- `meta_display_sort_windows_by_stacking`: a stable sort, bottom to top. -/
def sortWindowsByStacking (wins : List WindowId) : List WindowId :=
  wins.insertionSort fun a b => (display.window a).stackPositionCompare (display.window b) ≤ 0

/-- The sorted list that picking and recomposing both build. The loop over
`meta_display_list_all_windows` prepends, which reverses the list. -/
def sortedWindows : List WindowId := display.sortWindowsByStacking display.windows.reverse

/-- `collect_windows_for_pid`; prepending reverses here too. -/
def collectWindowsForPid (pid : ℕ) : List WindowId :=
  if pid = 0 then []
  else (display.windows.filter fun win => (display.window win).pid = pid).reverse

end MetaDisplay

namespace MetaAnnotationLayer

variable (layer : MetaAnnotationLayer K)

def frameRect (win : WindowId) : MtkRectangle := (layer.display.window win).frameRect

/-- `pick_anchor_window`: the topmost eligible window under the point. -/
def pickAnchorWindow (x y : K) : Canvas :=
  layer.display.sortedWindows.reverse.find? fun win =>
    windowIsEligibleAnchor (layer.display.window win) layer.display.activeWorkspace &&
      (layer.frameRect win).containsPointf x y

theorem mem_sortedWindows {display : MetaDisplay} {win : WindowId} :
    win ∈ display.sortedWindows ↔ win ∈ display.windows := by
  simp [MetaDisplay.sortedWindows, MetaDisplay.sortWindowsByStacking]

/-- A rectangle that contains a point has a positive size. -/
theorem one_le_size_of_containsPointf {rect : MtkRectangle} {x y : K}
    (h : rect.containsPointf x y) : 1 ≤ rect.width ∧ 1 ≤ rect.height := by
  simp only [MtkRectangle.containsPointf, Bool.and_eq_true, decide_eq_true_eq] at h
  obtain ⟨⟨⟨hx, hx'⟩, hy⟩, hy'⟩ := h
  have hwidth := Int.cast_lt.mp (hx.trans_lt hx')
  have hheight := Int.cast_lt.mp (hy.trans_lt hy')
  omega

/-- A press picks a managed window with a frame to draw on. -/
theorem pickAnchorWindow_eq_some {layer : MetaAnnotationLayer K} {x y : K} {win : WindowId}
    (h : layer.pickAnchorWindow x y = some win) :
    win ∈ layer.display.windows ∧ 1 ≤ (layer.frameRect win).width ∧
      1 ≤ (layer.frameRect win).height := by
  have hmem := List.mem_of_find?_eq_some h
  have hpick := List.find?_some h
  rw [Bool.and_eq_true] at hpick
  refine ⟨?_, one_le_size_of_containsPointf hpick.2⟩
  rwa [List.mem_reverse, mem_sortedWindows] at hmem

/-- `ensure_window_ink`; the record it returns is the one found under `win` afterwards. -/
def ensureWindowInk (win : WindowId) : MetaAnnotationLayer K :=
  match layer.perWindow win with
  | some _ => layer
  | none =>
    let fr := layer.frameRect win
    if fr.width < 1 ∨ fr.height < 1 then layer
    else { layer with
      perWindow := Function.update layer.perWindow win (some
        { surface := cairoSurfaceNewCleared fr.width fr.height
          strokes := []
          width := fr.width
          height := fr.height
          hasEditorRegion := false
          editorX := 0, editorY := 0, editorW := 0, editorH := 0
          scrollX := 0, scrollY := 0 }) }

/-- Nothing but the window records changes, and those by the records and the windows
alone. -/
theorem ensureWindowInk_eq {layer layer' : MetaAnnotationLayer K} {win : WindowId}
    (hperWindow : layer'.perWindow = layer.perWindow) (hdisplay : layer'.display = layer.display) :
    layer'.ensureWindowInk win =
      { layer' with perWindow := (layer.ensureWindowInk win).perWindow } := by
  cases layer'
  subst hperWindow hdisplay
  simp only [ensureWindowInk, frameRect]
  cases layer.perWindow win with
  | some ink => rfl
  | none =>
    by_cases hframe : (layer.display.window win).frameRect.width < 1 ∨
        (layer.display.window win).frameRect.height < 1
    · simp only [hframe, if_true]
    · simp only [hframe, if_false]

theorem ensureWindowInk_perWindow_congr {layer layer' : MetaAnnotationLayer K} {win : WindowId}
    (hperWindow : layer'.perWindow = layer.perWindow) (hdisplay : layer'.display = layer.display) :
    (layer'.ensureWindowInk win).perWindow = (layer.ensureWindowInk win).perWindow := by
  rw [ensureWindowInk_eq hperWindow hdisplay]

/-- A window with a frame has a record afterwards. -/
theorem ensureWindowInk_perWindow_isSome {win : WindowId} (hwidth : 1 ≤ (layer.frameRect win).width)
    (hheight : 1 ≤ (layer.frameRect win).height) :
    ((layer.ensureWindowInk win).perWindow win).isSome := by
  unfold ensureWindowInk
  cases hink : layer.perWindow win with
  | some ink => simp [hink]
  | none =>
    have hframe : ¬ ((layer.frameRect win).width < 1 ∨ (layer.frameRect win).height < 1) := by omega
    simp [hframe]

/-- `window_ink_resize_to_frame`, on the record of `win`. -/
def windowInkResizeToFrame (win : WindowId) : MetaAnnotationLayer K :=
  let fr := layer.frameRect win
  if fr.width < 1 ∨ fr.height < 1 then layer
  else layer.modifyInk win fun ink =>
    if ink.width = fr.width ∧ ink.height = fr.height then ink
    else { ink with
      surface := rasterizeAllStrokesWithInk (cairoSurfaceNewCleared fr.width fr.height) ink.strokes
        (some ink)
      width := fr.width
      height := fr.height }

end MetaAnnotationLayer

end Annotations
