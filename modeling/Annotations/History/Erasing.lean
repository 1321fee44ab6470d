import Annotations.History.Undo

/-! An eraser gesture as one erasure. The model filters the strokes again with every point that is
added to the path; what is left at the end is what one filter with the complete path leaves, and
the strokes of other windows are never touched. -/

namespace Annotations.History.StrokeModel

open Runs

variable {K : Type} [Scalar K] {m : StrokeModel K} {x y : K} {seq : ℤ} {points : List (K × K)} {strokes : List (Stroke K)}

/-- The strokes that are not of the window. -/
def otherWindows (seq : ℤ) (strokes : List (Stroke K)) : List (Stroke K) := strokes.filter fun s => s.windowSeq ≠ seq

theorem otherWindows_spared (hseq : 0 ≤ seq) (path : List (Pt K)) :
    otherWindows seq (spared seq path strokes) = otherWindows seq strokes := by
  unfold otherWindows spared
  rw [List.filter_filter]
  congr 1
  funext s
  by_cases hs : s.windowSeq = seq
  · simp [hs]
  · simp [erases, hseq, hs]

theorem eraserPath_beginErase : (m.beginErase x y seq).eraserPath = some [⟨x, y, 0⟩] := rfl

/-- The strokes while an eraser path of `points` is drawn. -/
theorem strokes_run_appendErase :
    (run call (m.beginErase x y seq) (points.map fun q => .appendErase q.1 q.2)).strokes =
      if points = [] then m.commitCurrent.strokes else spared seq (erasePath x y points) m.commitCurrent.strokes := by
  by_cases hpoints : points = []
  · subst hpoints
    rfl
  · rw [run_appendErase eraserPath_beginErase (by simp) hpoints, if_neg hpoints]
    rfl

/-- The strokes after the gesture. -/
theorem strokes_perform_erase :
    (perform m (.erase x y seq points)).strokes = spared seq (erasePath x y points) m.commitCurrent.strokes := by
  rw [perform, Gesture.calls, run_concat, run_cons, call, call]
  by_cases hpoints : points = []
  · subst hpoints
    rw [List.map_nil, run_nil, finishErase_of_path eraserPath_beginErase (by simp)]
    rfl
  · have hlong : 2 ≤ (erasePath x y points).length := by
      have hpos := List.length_pos_of_ne_nil hpoints
      simp only [erasePath, List.length_cons, List.length_map]
      omega
    rw [run_appendErase eraserPath_beginErase (by simp) hpoints, finishErase_of_path rfl (by simp)]
    -- the last filter is one more with the same path
    have hagain : spared seq (erasePath x y points ++ []) (spared seq (erasePath x y points) m.commitCurrent.strokes) =
        spared seq (erasePath x y points ++ []) m.commitCurrent.strokes := spared_append hlong
    rw [List.append_nil] at hagain
    exact hagain

/-- At no moment of the gesture is a stroke of another window gone. -/
theorem otherWindows_stateAt (hseq : 0 ≤ seq) (k : ℕ) :
    otherWindows seq (stateAt call m (Gesture.erase x y seq points).calls (k + 1)).strokes =
      otherWindows seq m.commitCurrent.strokes := by
  rcases Nat.lt_or_ge points.length k with hlate | hearly
  · -- the gesture is over
    have htake : (Gesture.erase x y seq points).calls.take (k + 1) = (Gesture.erase x y seq points).calls := by
      refine List.take_of_length_le ?_
      simp only [Gesture.calls, List.length_append, List.length_cons, List.length_map, List.length_nil]
      omega
    rw [stateAt, htake]
    change otherWindows seq (perform m (.erase x y seq points)).strokes = _
    rw [strokes_perform_erase, otherWindows_spared hseq]
  · have htake : (Gesture.erase x y seq points).calls.take (k + 1) =
        .beginErase x y seq :: (points.take k).map fun q => .appendErase q.1 q.2 := by
      rw [Gesture.calls, List.cons_append, List.take_succ_cons,
        List.take_append_of_le_length (by rwa [List.length_map]), List.map_take]
    rw [stateAt, htake, run_cons, call, strokes_run_appendErase]
    split_ifs
    · rfl
    · exact otherWindows_spared hseq _

/-- An eraser gesture leaves what one filter with its complete path leaves, in the same order, and a
gesture in a window never removes a stroke of another. -/
theorem erase_eq_spared (m : StrokeModel K) (x y : K) (seq : ℤ) (points : List (K × K)) :
    (perform m (.erase x y seq points)).strokes = spared seq (erasePath x y points) m.commitCurrent.strokes ∧
      (0 ≤ seq → ∀ k, otherWindows seq (stateAt call m (Gesture.erase x y seq points).calls (k + 1)).strokes =
        otherWindows seq m.commitCurrent.strokes) :=
  ⟨strokes_perform_erase, otherWindows_stateAt⟩

/-- The stroke that the second move hits is gone after the gesture, the one of another window is not. -/
example :
    let strokes : List (Stroke ℚ) := [⟨[], [⟨0, 0, 1⟩], 7⟩, ⟨[], [⟨40, 0, 1⟩], 7⟩, ⟨[], [⟨40, 0, 1⟩], 8⟩]
    (perform { empty with strokes := strokes } (.erase 100 0 7 [(60, 0), (35, 0)])).strokes =
      [⟨[], [⟨0, 0, 1⟩], 7⟩, ⟨[], [⟨40, 0, 1⟩], 8⟩] := by
  decide +kernel

end Annotations.History.StrokeModel
