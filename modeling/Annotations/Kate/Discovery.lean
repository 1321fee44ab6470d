import Annotations.Layer.State

/-! What the tracker of a Kate window sees over AT-SPI, and how it finds the editor and
the scrollbar there. A call that throws or gives `null` is `none`, and all the calls that
one callback makes are answered from one view. -/

namespace Annotations

namespace Atspi

/-- The roles that the tracker asks for. -/
inductive Role where
  | text | terminal | scrollBar | other
  deriving DecidableEq

structure Rect where
  x : ℤ
  y : ℤ
  width : ℤ
  height : ℤ
  deriving DecidableEq

/-- The rectangle that Qt hands back for a character it has no layout of. -/
def Rect.degenerate (rect : Rect) : Bool := rect.x = 0 && rect.y = 0 && rect.width = 0 && rect.height = 0

abbrev Accessible := ℕ

/-- The answers of the accessibility bus, in coordinates of the window. A child that
cannot be had is `none` in the list of its parent. -/
structure View (K : Type) where
  desktop : Option (List (Option Accessible))
  children : Accessible → List (Option Accessible)
  role : Accessible → Role
  pid : Accessible → ℤ
  extents : Accessible → Option Rect
  characterExtents : Accessible → Option Rect
  currentValue : Accessible → Option K

end Atspi

open Atspi

def minEditorWidth : ℤ := 200

def minEditorHeight : ℤ := 200

def maxTreeDepth : ℕ := 40

/-- What `_walk` has found so far. -/
structure Found where
  editor : Option Accessible
  editorArea : ℤ
  scrollbar : Option Accessible
  deriving DecidableEq

namespace Atspi.View

variable {K : Type} (view : View K)

/-- `_scrollbarAdjacent`. -/
def scrollbarAdjacent (sbExt : Rect) (editorAcc : Accessible) : Bool :=
  match view.extents editorAcc with
  | none => false
  | some ed =>
    let nearRight := |sbExt.x - (ed.x + ed.width)| < 60 || (sbExt.x ≥ ed.x && sbExt.x ≤ ed.x + ed.width + 60)
    let yOverlap := sbExt.y + sbExt.height > ed.y && sbExt.y < ed.y + ed.height
    nearRight && yOverlap

/-- A text that is large enough, and larger than the ones before, becomes the editor. -/
def walkText (node : Accessible) (found : Found) : Found :=
  match view.extents node with
  | none => found
  | some ext =>
    if ext.width ≥ minEditorWidth ∧ ext.height ≥ minEditorHeight ∧ ext.width * ext.height > found.editorArea then
      ⟨some node, ext.width * ext.height, none⟩
    else found

/-- A vertical scrollbar is taken when it is next to the editor, or there is no editor yet. -/
def walkScrollBar (node : Accessible) (found : Found) : Found :=
  match view.extents node with
  | none => found
  | some ext =>
    if ext.height > ext.width ∧ ext.height ≥ 30 then
      match found.editor, found.scrollbar with
      | some editor, none => if view.scrollbarAdjacent ext editor then { found with scrollbar := some node } else found
      | some _, some _ => found
      | none, _ => { found with scrollbar := some node }
    else found

/-- `_walk`, with the levels that are left below the depth limit. -/
def walk : ℕ → Option Accessible → Bool → Found → Found
  | 0, _, _, found => found
  | _ + 1, none, _, found => found
  | levels + 1, some node, inTerminal, found =>
    let role := view.role node
    let insideTerminal := inTerminal || role = .terminal
    let found := if !insideTerminal && role = .text then view.walkText node found else found
    let found := if !insideTerminal && role = .scrollBar then view.walkScrollBar node found else found
    (view.children node).foldl (fun found child => walk levels child insideTerminal found) found

/-- The entry of the process with the most children, the first of them. -/
def application (pid : ℕ) (entries : List (Option Accessible)) : Option Accessible :=
  (entries.foldl
    (fun best entry =>
      match entry with
      | none => best
      | some a =>
        if view.pid a ≠ pid then best
        else if ((view.children a).length : ℤ) > best.2 then (some a, ((view.children a).length : ℤ)) else best)
    ((none, -1) : Option Accessible × ℤ)).1

/-- The walk of `_tryDiscover`, from the entry of the process. -/
def discover (pid : ℕ) : Option Found :=
  view.desktop.bind fun entries =>
    (view.application pid entries).map fun app => view.walk (maxTreeDepth + 1) (some app) false ⟨none, 0, none⟩

end Atspi.View

end Annotations
