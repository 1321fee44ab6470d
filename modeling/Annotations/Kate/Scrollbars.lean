import Annotations.Kate.Walk

/-! The scrollbar that the walk of the tracker ends with. The comments of `_walk` promise a later
pass that matches the scrollbars of the tree to the editor, and there is none: a scrollbar counts
only when the walk comes to it after the editor. -/

namespace Annotations

open Atspi Trees

namespace Atspi.View

variable {K : Type} (view : View K) (root : Accessible)

/-- An editor that has scrollbars next to it is found with one of them. -/
def FindsScrollbar : Prop :=
  ∀ editor, (view.walkFrom root).editor = some editor → (∃ bar, view.Open root bar ∧ view.ScrollbarOf editor bar) →
    ∃ bar, (view.walkFrom root).scrollbar = some bar ∧ view.ScrollbarOf editor bar

/-- Of the scrollbars next to the first of the largest texts, one follows it in depth-first order. -/
def ScrollbarFollows : Prop :=
  ∀ before editor after, FirstLargest view.EditorSized view.area (view.openNodes root) before editor after →
    (∃ bar, view.Open root bar ∧ view.ScrollbarOf editor bar) → ∃ bar ∈ after, view.ScrollbarOf editor bar

variable {view root}

theorem findsScrollbar_iff : view.FindsScrollbar root ↔ view.ScrollbarFollows root := by
  have hstanding : Standing view (view.openNodes root) (view.walkFrom root) := standing_walkFrom
  rw [FindsScrollbar, ScrollbarFollows]
  generalize view.walkFrom root = found at hstanding
  cases hstanding with
  | noEditor scrollbar h =>
    refine iff_of_true (fun editor heq => by simp at heq) fun before editor after hfirst => ?_
    exact absurd hfirst.holds (h editor hfirst.mem)
  | @withEditor before after editor scrollbar h hnone hsome =>
    constructor
    · intro hfinds before' editor' after' hfirst hbar
      obtain ⟨rfl, rfl, rfl⟩ := h.unique hfirst
      obtain ⟨bar, hscrollbar, hadjacent⟩ := hfinds editor rfl hbar
      exact ⟨bar, (hsome bar hscrollbar).1, hadjacent⟩
    · intro hfollows editor' heq hbar
      obtain rfl := Option.some.inj heq
      obtain ⟨bar, hmem, hadjacent⟩ := hfollows before editor after h hbar
      cases scrollbar with
      | none => exact absurd hadjacent (hnone rfl bar hmem)
      | some bar => exact ⟨bar, rfl, (hsome bar rfl).2⟩

/-- A window whose scrollbar comes before its text. -/
def barFirst : View ℕ where
  desktop := some [some 0]
  children node := if node = 0 then [some 1, some 2] else []
  role node := if node = 1 then .scrollBar else if node = 2 then .text else .other
  pid _ := 1
  extents node := if node = 1 then some ⟨400, 0, 16, 400⟩ else some ⟨0, 0, 400, 400⟩
  characterExtents _ := none
  currentValue _ := none

/-- The walk stashes the scrollbar and drops it at the text. -/
theorem not_findsScrollbar_barFirst : ¬ barFirst.FindsScrollbar 0 := by
  intro hfinds
  have hopen : barFirst.Open 0 1 := mem_openNodes_iff.mp (by decide)
  have hbar : barFirst.ScrollbarOf 2 1 := ⟨rfl, ⟨400, 0, 16, 400⟩, rfl, by decide, by decide, by decide⟩
  obtain ⟨bar, hscrollbar, -⟩ := hfinds 2 (by decide) ⟨1, hopen, hbar⟩
  have hnone : (barFirst.walkFrom 0).scrollbar = none := by decide
  simp [hnone] at hscrollbar

end Atspi.View

end Annotations
