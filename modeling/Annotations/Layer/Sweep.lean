import Annotations.Glib.PtrArray
import Annotations.Layer.Erase

/-! The erase loop over the pointer array of the strokes. It walks the array from its end by index and
removes what the eraser segment hits: a stable filter, so that erasing twice is erasing once and two
segments erase the same in either order. -/

namespace Annotations

open Glib

variable {K : Type} [Scalar K]

/-- `erase_strokes_hit_by_segment`, on the array as the source has it. -/
def eraseStrokesBySweep (strokes : PtrArray (Stroke K)) (aX aY bX bY eraserRadius : K) (ink : Option (WindowInk K)) :
    Option (PtrArray (Stroke K) × UInt32) :=
  strokes.sweep (strokeHitBySegment ink aX aY bX bY eraserRadius) strokes.len 0

/-- The eraser segment hits the stroke in the space of its points: that of the window, or for a stroke
that follows the scroll that of the content, where there is an editor region with an end of the segment
in it. -/
def HitInOwnSpace (ink : Option (WindowInk K)) (aX aY bX bY r : K) (s : Stroke K) : Prop :=
  s.followScroll = false ∧ strokeHitByEraser s aX aY bX bY r ∨
    s.followScroll = true ∧ ∃ i, ink = some i ∧ (i.hasEditorRegion ∧ 0 < i.editorW ∧ 0 < i.editorH) ∧
      (i.editorContains aX aY ∨ i.editorContains bX bY) ∧
      strokeHitByEraser s (i.toContent aX aY).1 (i.toContent aX aY).2 (i.toContent bX bY).1 (i.toContent bX bY).2 r

variable {ink : Option (WindowInk K)} {aX aY bX bY r : K} {s : Stroke K}

theorem strokeHitBySegment_iff : strokeHitBySegment ink aX aY bX bY r s ↔ HitInOwnSpace ink aX aY bX bY r s := by
  unfold strokeHitBySegment HitInOwnSpace
  cases hfollow : s.followScroll with
  | false => simp
  | true =>
    cases ink with
    | none => simp
    | some i =>
      have hregion : hasRegion (some i) = true ↔ i.hasEditorRegion ∧ 0 < i.editorW ∧ 0 < i.editorH := by
        simp [hasRegion, and_assoc]
      simp only [Option.some.injEq, exists_eq_left', ← hregion]
      cases hasRegion (some i) <;> cases i.editorContains aX aY <;> cases i.editorContains bX bY <;> simp

/-- The loop leaves the list that the layer goes on with. -/
theorem eraseStrokesBySweep_eq (strokes : List (Stroke K)) (hlength : (strokes.map some).length < 2 ^ 32)
    (aX aY bX bY r : K) (ink : Option (WindowInk K)) :
    ∃ left removed, eraseStrokesBySweep ⟨strokes.map some, hlength⟩ aX aY bX bY r ink = some (left, removed) ∧
      left.pdata = (eraseStrokesHitBySegment strokes aX aY bX bY r ink).1.map some ∧
      removed.toNat = (eraseStrokesHitBySegment strokes aX aY bX bY r ink).2 := by
  refine ⟨_, _, PtrArray.sweep_len _ _, ?_, ?_⟩
  · rw [eraseStrokesHitBySegment_fst, PtrArray.spared_pdata, List.filter_map]
    rfl
  · rw [UInt32.toNat_ofNat_of_lt' (PtrArray.hits_lt _ _), PtrArray.hits, List.countP_map]
    induction strokes with
    | nil => rfl
    | cons s rest ih =>
      have hrest := ih (by simp at hlength ⊢; omega)
      have hhead : ((fun o : Option (Stroke K) => o.any (strokeHitBySegment ink aX aY bX bY r)) ∘ some) s =
          strokeHitBySegment ink aX aY bX bY r s := rfl
      rw [List.countP_cons, hrest, eraseStrokesHitBySegment, hhead]
      split_ifs <;> rfl

/-- The loop leaves what is not hit, in order, and returns how many it removed. The same segment removes
nothing more, and two segments leave the same in either order. -/
theorem eraseStrokesBySweep_stable (strokes : PtrArray (Stroke K)) (aX aY bX bY r : K) (ink : Option (WindowInk K)) :
    let hit := strokeHitBySegment ink aX aY bX bY r
    (∀ s, hit s ↔ HitInOwnSpace ink aX aY bX bY r s) ∧
      ∃ left removed, eraseStrokesBySweep strokes aX aY bX bY r ink = some (left, removed) ∧
        left.pdata = (strokes.pdata.filter fun s => !s.any hit) ∧
        left.pdata.length + removed.toNat = strokes.pdata.length ∧
        eraseStrokesBySweep left aX aY bX bY r ink = some (left, 0) ∧
        ∀ aX' aY' bX' bY' r', ∃ left' both n n' n'', eraseStrokesBySweep left aX' aY' bX' bY' r' ink = some (both, n) ∧
          eraseStrokesBySweep strokes aX' aY' bX' bY' r' ink = some (left', n') ∧
          eraseStrokesBySweep left' aX aY bX bY r ink = some (both, n'') := by
  intro hit
  refine ⟨fun s => strokeHitBySegment_iff, strokes.spared hit, .ofNat (strokes.hits hit), PtrArray.sweep_len _ _, rfl,
    ?_, ?_, fun aX' aY' bX' bY' r' => ?_⟩
  · rw [UInt32.toNat_ofNat_of_lt' (PtrArray.hits_lt _ _)]
    exact PtrArray.length_spared_add_hits hit strokes
  · obtain ⟨hsame, hnone⟩ := PtrArray.spared_spared hit strokes
    have hagain := PtrArray.sweep_len hit (strokes.spared hit)
    rw [hsame, hnone] at hagain
    exact hagain
  · let hit' := strokeHitBySegment ink aX' aY' bX' bY' r'
    refine ⟨strokes.spared hit', (strokes.spared hit).spared hit', .ofNat ((strokes.spared hit).hits hit'),
      .ofNat (strokes.hits hit'), .ofNat ((strokes.spared hit').hits hit), PtrArray.sweep_len _ _,
      PtrArray.sweep_len _ _, ?_⟩
    rw [PtrArray.spared_comm]
    exact PtrArray.sweep_len _ _

end Annotations
