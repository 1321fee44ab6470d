import Annotations.Extension.Methods
import Annotations.Js.ParseInt

/-! The ids of the chrome regions as the strings that they are on the bus. The extension acts on a
string as on the region that it stands for, and every region stands for itself. -/

namespace Annotations

/-- The region that a string stands for. The body of the dock is one that does nothing, as is
everything unknown. -/
def RegionId.ofText (id : String) : RegionId :=
  if id = "clear" then .clear
  else if id = "undo" then .undo
  else if "color-".toList.isPrefixOf id.toList then
    match Js.parseInt (id.toList.drop "color-".length) with
    | some (.ofNat i) => .color i
    | _ => .dockBody
  else .dockBody

/-- `_activateRegion`, of a string. -/
def AnnotationExtension.activateRegionText {K : Type} [Scalar K] (ext : AnnotationExtension K) (id : String) :
    AnnotationExtension K :=
  if id = "clear" then ext.dbusCall .clear .warn
  else if id = "undo" then ext.dbusCall .undoLast .warn
  else if "color-".toList.isPrefixOf id.toList then
    let i := Js.parseInt (id.toList.drop "color-".length)
    match Js.itemAt colors i, i with
    | some c, some i => (ext.dbusCall (.setColor c) .warn).setActiveColor i.toNat
    | _, _ => ext
  else ext

theorem AnnotationExtension.activateRegionText_eq {K : Type} [Scalar K] (ext : AnnotationExtension K) (id : String) :
    ext.activateRegionText id = ext.activateRegion (.ofText id) := by
  unfold activateRegionText RegionId.ofText
  split_ifs
  · rfl
  · rfl
  · dsimp only
    cases Js.parseInt (id.toList.drop "color-".length) with
    | none => rfl
    | some i =>
      cases i with
      | ofNat n =>
        unfold activateRegion Js.itemAt
        dsimp only
        cases (colors[n]? : Option (Rgba K)) <;> rfl
      | negSucc n => rfl
  · rfl

theorem RegionId.toList_text_color (i : ℕ) :
    (RegionId.text (.color i)).toList = "color-".toList ++ Nat.toDigits 10 i := by
  change ("color-" ++ toString i).toList = _
  rw [String.toList_append]
  exact congrArg _ Nat.toList_repr

/-- What goes over the bus comes back. -/
theorem RegionId.ofText_text (id : RegionId) : RegionId.ofText id.text = id := by
  cases id with
  | color i =>
    have hlist := toList_text_color i
    have hclear : RegionId.text (.color i) ≠ "clear" := fun h => by simp [h] at hlist
    have hundo : RegionId.text (.color i) ≠ "undo" := fun h => by simp [h] at hlist
    have hparse : Js.parseInt (Nat.toDigits 10 i) = some (i : ℤ) := by
      have hread : Js.parseInt (Nat.toDigits 10 i ++ []) = some (i : ℤ) := Js.parseInt_toDigits (by simp)
      rwa [List.append_nil] at hread
    unfold ofText
    rw [if_neg hclear, if_neg hundo, hlist, if_pos (by simp)]
    rw [List.drop_left' (by decide), hparse]
  | clear => decide
  | undo => decide
  | dockBody => decide

end Annotations
