import Annotations.History.StrokeModel

/-! Ink that follows content, and undo. A translation reaches the strokes, the stroke in
progress and the eraser path, but not the snapshots of the undo stack, so undo puts all
the ink back to where it was when the snapshot was taken. -/

namespace Annotations.History.StrokeModel

open Runs

variable {K : Type} [Scalar K] {m : StrokeModel K} {dx dy dx' dy' : K}

/-! ### Translations -/

theorem translatePts_translatePts (pts : List (Pt K)) :
    translatePts dx' dy' (translatePts dx dy pts) = translatePts (dx + dx') (dy + dy') pts := by
  simp [translatePts, add_assoc]

theorem translateStroke_translateStroke (s : Stroke K) :
    translateStroke dx' dy' (translateStroke dx dy s) = translateStroke (dx + dx') (dy + dy') s := by
  rw [translateStroke, translateStroke, translateStroke, translatePts_translatePts]

/-- A translation leaves some points where they are only if it is none, or there are none. -/
theorem translatePts_eq_self_iff {pts : List (Pt K)} :
    translatePts dx dy pts = pts ↔ (dx = 0 ∧ dy = 0) ∨ pts = [] := by
  constructor
  · intro h
    cases pts with
    | nil => exact .inr rfl
    | cons q pts =>
      have hq := List.head_eq_of_cons_eq h
      rw [Pt.mk.injEq] at hq
      exact .inl ⟨by simpa using hq.1, by simpa using hq.2.1⟩
  · rintro (⟨rfl, rfl⟩ | rfl)
    · simp [translatePts]
    · rfl

theorem translateStroke_eq_self_iff {s : Stroke K} :
    translateStroke dx dy s = s ↔ (dx = 0 ∧ dy = 0) ∨ s.pts = [] := by
  rw [← translatePts_eq_self_iff, translateStroke]
  cases s
  simp

theorem map_translateStroke_eq_self_iff {strokes : List (Stroke K)} :
    strokes.map (translateStroke dx dy) = strokes ↔ (dx = 0 ∧ dy = 0) ∨ ∀ s ∈ strokes, s.pts = [] := by
  have hmap : strokes.map (translateStroke dx dy) = strokes ↔ ∀ s ∈ strokes, translateStroke dx dy s = s := by
    conv_lhs => rhs; rw [← List.map_id strokes]
    exact List.map_inj_left
  simp only [hmap, translateStroke_eq_self_iff]
  by_cases hzero : dx = 0 ∧ dy = 0
  · simp [hzero]
  · simp only [hzero, false_or]

theorem translateAll_translateAll :
    (m.translateAll dx dy).translateAll dx' dy' = m.translateAll (dx + dx') (dy + dy') := by
  simp only [translateAll, List.map_map, Option.map_map, Function.comp_def, translateStroke_translateStroke,
    translatePts_translatePts]

/-! ### Undo -/

/-- Two translations are one by the sum. Undo after a translation gives the strokes of
undo before it only if there is nothing to undo, no translation, or no ink to bring back. -/
theorem undoOne_translateAll_strokes (m : StrokeModel K) (dx dy : K) :
    (((m.translateAll dx dy).undoOne.strokes = (m.undoOne.translateAll dx dy).strokes) ↔
        ∀ strokes, m.undoStack.getLast? = some strokes → (dx = 0 ∧ dy = 0) ∨ ∀ s ∈ strokes, s.pts = []) ∧
      ∀ dx' dy', (m.translateAll dx dy).translateAll dx' dy' = m.translateAll (dx + dx') (dy + dy') := by
  refine ⟨?_, fun _ _ => translateAll_translateAll⟩
  cases htop : m.undoStack.getLast? with
  | none => simp [undoOne, translateAll, htop]
  | some strokes =>
    have hafter : (m.translateAll dx dy).undoOne.strokes = strokes := by
      simp only [undoOne, translateAll, htop]
    have hbefore : (m.undoOne.translateAll dx dy).strokes = strokes.map (translateStroke dx dy) := by
      simp only [undoOne, translateAll, htop]
    rw [hafter, hbefore, eq_comm, map_translateStroke_eq_self_iff]
    constructor
    · rintro h _ ⟨⟩
      exact h
    · exact fun h => h _ rfl

/-- Two strokes. -/
def twoDots : StrokeModel ℚ :=
  run call empty
    [.beginStroke 0 0 1 (-1), .commitCurrent, .beginStroke 5 0 1 (-1), .commitCurrent]

/-- After a scroll, undo takes back the second stroke and the scroll of the first. -/
theorem undoOne_forgets_translateAll :
    (twoDots.translateAll 0 10).undoOne.strokes ≠ (twoDots.undoOne.translateAll 0 10).strokes ∧
      (twoDots.translateAll 0 10).undoOne.strokes = [⟨[0.1, 0.1, 0.1, 1], [⟨0, 0, 1⟩], -1⟩] := by
  constructor <;> decide +kernel

end Annotations.History.StrokeModel
