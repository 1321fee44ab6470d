import Annotations.Kate.Discovery
import Annotations.Trees.Walks

/-! The editor that the walk of the tracker ends with. Outside terminals `_walk` is a fold over
the nodes in depth-first order, and its editor is the first of the largest candidates. Qt keeps
the sides of a widget below `2 ^ 24`, so that the area of one is exact. -/

namespace Annotations

open Atspi Trees

namespace Atspi.View

variable {K : Type} (view : View K)

/-- The children that are there and not terminals. -/
def openChildren (node : Accessible) : List Accessible :=
  (view.children node).filterMap fun child => child.filter fun child => view.role child ≠ .terminal

/-- The nodes that are not in a terminal, down to the depth limit, in depth-first order. -/
def openNodes (root : Accessible) : List Accessible :=
  if view.role root = .terminal then [] else preorder view.openChildren (maxTreeDepth + 1) root

/-- `node` is within the depth limit, and neither it nor a node above it is a terminal. -/
def Open (root node : Accessible) : Prop :=
  view.role root ≠ .terminal ∧ ∃ depth ≤ maxTreeDepth, Descends view.openChildren root depth node

/-- A text of the size of an editor. -/
def EditorSized (node : Accessible) : Prop :=
  view.role node = .text ∧
    ∃ ext, view.extents node = some ext ∧ ext.width ≥ minEditorWidth ∧ ext.height ≥ minEditorHeight

def area (node : Accessible) : ℤ := ((view.extents node).map fun ext => ext.width * ext.height).getD 0

/-- A vertical scrollbar next to the editor. -/
def ScrollbarOf (editor node : Accessible) : Prop :=
  view.role node = .scrollBar ∧
    ∃ ext, view.extents node = some ext ∧ ext.height > ext.width ∧ ext.height ≥ 30 ∧
      view.scrollbarAdjacent ext editor = true

/-- `_walk` from the root. -/
def walkFrom (root : Accessible) : Found := view.walk (maxTreeDepth + 1) (some root) false ⟨none, 0, none⟩

/-- What `_walk` does at a node outside terminals. -/
def visit (found : Found) (node : Accessible) : Found :=
  let found := if view.role node = .text then view.walkText node found else found
  if view.role node = .scrollBar then view.walkScrollBar node found else found

variable {view} {root node editor : Accessible} {found : Found} {levels : ℕ}

theorem mem_openNodes_iff : node ∈ view.openNodes root ↔ view.Open root node := by
  rw [openNodes, Open]
  split
  next h => simp [h]
  next h => simp [h, mem_preorder_iff]

theorem EditorSized.area_pos (h : view.EditorSized node) : 0 < view.area node := by
  obtain ⟨-, ext, hext, hw, hh⟩ := h
  rw [area, hext]
  exact mul_pos (lt_of_lt_of_le (by decide) hw) (lt_of_lt_of_le (by decide) hh)

/-- Nothing is taken below a terminal. -/
theorem walk_in_terminal (node : Option Accessible) : view.walk levels node true found = found := by
  induction levels generalizing node found with
  | zero => rfl
  | succ levels ih =>
    cases node with
    | none => rfl
    | some node => simp [walk, ih]

theorem walk_of_terminal (h : view.role node = .terminal) : view.walk levels (some node) false found = found := by
  cases levels with
  | zero => rfl
  | succ levels => simp [walk, h, walk_in_terminal]

theorem walk_none (inTerminal : Bool) : view.walk levels none inTerminal found = found := by cases levels <;> rfl

theorem walk_of_not_terminal (h : view.role node ≠ .terminal) :
    view.walk levels (some node) false found = (preorder view.openChildren levels node).foldl view.visit found := by
  induction levels generalizing node found with
  | zero => rfl
  | succ levels ih =>
    rw [foldl_preorder_succ, openChildren, List.foldl_filterMap]
    have hvisit : view.walk (levels + 1) (some node) false found =
        (view.children node).foldl (fun found child => view.walk levels child false found) (view.visit found node) := by
      simp [walk, visit, h]
    rw [hvisit]
    congr 1
    funext found child
    cases child with
    | none => exact walk_none false
    | some child =>
      by_cases hchild : view.role child = .terminal
      · simp [walk_of_terminal, Option.filter, hchild]
      · simp [Option.filter, hchild, ih]

theorem walkFrom_eq : view.walkFrom root = (view.openNodes root).foldl view.visit ⟨none, 0, none⟩ := by
  rw [walkFrom, openNodes]
  split
  next h => exact walk_of_terminal h
  next h => exact walk_of_not_terminal h

/-- What the walk knows when it has passed `nodes`. -/
inductive Standing (view : View K) (nodes : List Accessible) : Found → Prop
  | noEditor (scrollbar : Option Accessible) (h : ∀ node ∈ nodes, ¬ view.EditorSized node) :
      Standing view nodes ⟨none, 0, scrollbar⟩
  | withEditor {before after : List Accessible} {editor : Accessible} {scrollbar : Option Accessible}
      (h : FirstLargest view.EditorSized view.area nodes before editor after)
      (hnone : scrollbar = none → ∀ node ∈ after, ¬ view.ScrollbarOf editor node)
      (hsome : ∀ bar, scrollbar = some bar → bar ∈ after ∧ view.ScrollbarOf editor bar) :
      Standing view nodes ⟨editor, view.area editor, scrollbar⟩

theorem walkText_of_larger (hnode : view.EditorSized node) (harea : found.editorArea < view.area node) :
    view.walkText node found = ⟨some node, view.area node, none⟩ := by
  obtain ⟨-, ext, hext, hw, hh⟩ := hnode
  simp only [area, hext, Option.map_some, Option.getD_some] at harea ⊢
  simp [walkText, hext, hw, hh, harea]

theorem walkText_of_not_larger (hrole : view.role node = .text)
    (h : view.EditorSized node → view.area node ≤ found.editorArea) : view.walkText node found = found := by
  unfold walkText
  split
  · rfl
  next ext hext =>
    refine if_neg fun hlarger => ?_
    have hle := h ⟨hrole, ext, hext, hlarger.1, hlarger.2.1⟩
    simp only [area, hext, Option.map_some, Option.getD_some] at hle
    exact hlarger.2.2.not_ge hle

theorem visit_of_larger (hnode : view.EditorSized node) (harea : found.editorArea < view.area node) :
    view.visit found node = ⟨some node, view.area node, none⟩ := by
  simp [visit, hnode.1, walkText_of_larger hnode harea]

/-- Where the text is no larger, only the scrollbar can change. -/
theorem visit_of_not_larger (h : view.EditorSized node → view.area node ≤ found.editorArea) :
    view.visit found node = if view.role node = .scrollBar then view.walkScrollBar node found else found := by
  have htext : (if view.role node = .text then view.walkText node found else found) = found := by
    split
    next hrole => exact walkText_of_not_larger hrole h
    next => rfl
  simp only [visit, htext]

theorem walkScrollBar_without_editor (editorArea : ℤ) (scrollbar : Option Accessible) :
    ∃ scrollbar', view.walkScrollBar node ⟨none, editorArea, scrollbar⟩ = ⟨none, editorArea, scrollbar'⟩ := by
  unfold walkScrollBar
  split
  · exact ⟨_, rfl⟩
  · split
    · exact ⟨_, rfl⟩
    · exact ⟨_, rfl⟩

theorem walkScrollBar_of_scrollbar (editorArea : ℤ) (bar : Accessible) :
    view.walkScrollBar node ⟨some editor, editorArea, some bar⟩ = ⟨some editor, editorArea, some bar⟩ := by
  unfold walkScrollBar
  split
  · rfl
  · exact ite_self _

theorem walkScrollBar_of_adjacent (editorArea : ℤ) (hnode : view.ScrollbarOf editor node) :
    view.walkScrollBar node ⟨some editor, editorArea, none⟩ = ⟨some editor, editorArea, some node⟩ := by
  obtain ⟨-, ext, hext, hvertical, hheight, hadjacent⟩ := hnode
  simp [walkScrollBar, hext, hvertical, hheight, hadjacent]

theorem walkScrollBar_of_not_adjacent (editorArea : ℤ) (hrole : view.role node = .scrollBar)
    (hnode : ¬ view.ScrollbarOf editor node) :
    view.walkScrollBar node ⟨some editor, editorArea, none⟩ = ⟨some editor, editorArea, none⟩ := by
  unfold walkScrollBar
  split
  · rfl
  next ext hext =>
    refine ite_eq_right_iff.mpr fun hsize => ite_eq_right_iff.mpr fun hadjacent => ?_
    exact absurd ⟨hrole, ext, hext, hsize.1, hsize.2, hadjacent⟩ hnode

/-- With an editor that stays, the first scrollbar next to it is taken. -/
theorem standing_of_not_larger {nodes before after : List Accessible} {scrollbar : Option Accessible}
    (h : FirstLargest view.EditorSized view.area nodes before editor after)
    (hnone : scrollbar = none → ∀ node ∈ after, ¬ view.ScrollbarOf editor node)
    (hsome : ∀ bar, scrollbar = some bar → bar ∈ after ∧ view.ScrollbarOf editor bar)
    (hle : view.EditorSized node → view.area node ≤ view.area editor) :
    Standing view (nodes ++ [node]) (view.visit ⟨editor, view.area editor, scrollbar⟩ node) := by
  have hkept : ∀ bar, scrollbar = some bar → bar ∈ after ++ [node] ∧ view.ScrollbarOf editor bar := fun bar hbar =>
    ⟨List.mem_append_left _ (hsome bar hbar).1, (hsome bar hbar).2⟩
  have hstill (hnode : ¬ view.ScrollbarOf editor node) (hbar : scrollbar = none) :
      ∀ c ∈ after ++ [node], ¬ view.ScrollbarOf editor c := by
    simpa [or_imp, forall_and] using ⟨hnone hbar, hnode⟩
  rw [visit_of_not_larger hle]
  split
  next hrole =>
    cases scrollbar with
    | some bar =>
      rw [walkScrollBar_of_scrollbar]
      exact .withEditor (h.concat hle) (by simp) hkept
    | none =>
      by_cases hnode : view.ScrollbarOf editor node
      · rw [walkScrollBar_of_adjacent _ hnode]
        refine .withEditor (h.concat hle) (by simp) fun bar hbar => ?_
        obtain rfl := Option.some.inj hbar
        exact ⟨by simp, hnode⟩
      · rw [walkScrollBar_of_not_adjacent _ hrole hnode]
        exact .withEditor (h.concat hle) (hstill hnode) hkept
  next hrole => exact .withEditor (h.concat hle) (hstill fun hnode => hrole hnode.1) hkept

/-- One more node. -/
theorem Standing.visit {nodes : List Accessible} (h : Standing view nodes found) (node : Accessible) :
    Standing view (nodes ++ [node]) (view.visit found node) := by
  cases h with
  | noEditor scrollbar h =>
    by_cases hnode : view.EditorSized node
    · rw [visit_of_larger hnode hnode.area_pos]
      refine .withEditor (firstLargest_concat hnode fun c hc hsized => absurd hsized (h c hc)) (by simp) (by simp)
    · rw [visit_of_not_larger fun hsized => absurd hsized hnode]
      have hnodes : ∀ c ∈ nodes ++ [node], ¬ view.EditorSized c := by
        simpa [or_imp, forall_and] using ⟨h, hnode⟩
      split
      · obtain ⟨bar, hbar⟩ : ∃ bar, view.walkScrollBar node ⟨none, 0, scrollbar⟩ = ⟨none, 0, bar⟩ :=
          walkScrollBar_without_editor 0 scrollbar
        rw [hbar]
        exact .noEditor bar hnodes
      · exact .noEditor scrollbar hnodes
  | @withEditor before after editor scrollbar h hnone hsome =>
    by_cases hlarger : view.EditorSized node ∧ view.area editor < view.area node
    · rw [visit_of_larger hlarger.1 hlarger.2]
      refine .withEditor (firstLargest_concat hlarger.1 fun c hc hsized => ?_) (by simp) (by simp)
      exact (h.le_of_mem hc hsized).trans_lt hlarger.2
    · exact standing_of_not_larger h hnone hsome fun hsized => not_lt.mp fun hlt => hlarger ⟨hsized, hlt⟩

theorem standing_foldl (nodes : List Accessible) : Standing view nodes (nodes.foldl view.visit ⟨none, 0, none⟩) := by
  induction nodes using List.reverseRecOn with
  | nil => exact .noEditor none (by simp)
  | append_singleton nodes node ih =>
    rw [List.foldl_append]
    exact ih.visit node

theorem standing_walkFrom : Standing view (view.openNodes root) (view.walkFrom root) := by
  rw [walkFrom_eq]
  exact standing_foldl _

/-- The editor is the first of the largest texts of its size outside terminals, and there is none
only where there is no such text. -/
theorem editor_of_walkFrom (view : View K) (root : Accessible) :
    ((view.walkFrom root).editor = none ↔ ∀ node, view.Open root node → ¬ view.EditorSized node) ∧
    ∀ editor, (view.walkFrom root).editor = some editor →
      (view.Open root editor ∧ view.EditorSized editor) ∧
      (∀ node, view.Open root node → view.EditorSized node → view.area node ≤ view.area editor) ∧
      ∃ before after, view.openNodes root = before ++ editor :: after ∧
        ∀ node ∈ before, view.EditorSized node → view.area node < view.area editor := by
  have hstanding : Standing view (view.openNodes root) (view.walkFrom root) := standing_walkFrom
  generalize view.walkFrom root = found at hstanding
  cases hstanding with
  | noEditor scrollbar h => simpa [mem_openNodes_iff] using h
  | withEditor h hnone hsome =>
    refine ⟨⟨fun heq => by simp at heq, fun hno => ?_⟩, fun editor heq => ?_⟩
    · exact absurd h.holds (hno _ (mem_openNodes_iff.mp h.mem))
    · obtain rfl := Option.some.inj heq
      refine ⟨⟨mem_openNodes_iff.mp h.mem, h.holds⟩, fun node hopen hsized => ?_, _, _, h.split, h.lt⟩
      exact h.le_of_mem (mem_openNodes_iff.mpr hopen) hsized

end Atspi.View

end Annotations
