import Annotations.History.StrokeModel

/-! What undo brings back. Every completed operation pushes one snapshot, and undo takes
the snapshots off again, the newest first. A stroke and a clear push the strokes as they
were before; an erase gesture pushes them when it is finished, and what the eraser has
touched until then is gone from the snapshot too. -/

namespace Annotations.History

open Runs

variable {K : Type} [Scalar K]

/-! ### The eraser path only grows -/

section Path

variable {px py : K} {path more : List (Pt K)} {r : K}

/-- A fold that keeps the least is small if something is. -/
theorem foldl_least_le_iff {α : Type} (d : α → WithTop K) (l : List α) (best r : WithTop K) :
    l.foldl (fun best a => if d a < best then d a else best) best ≤ r ↔ best ≤ r ∨ ∃ a ∈ l, d a ≤ r := by
  induction l generalizing best with
  | nil => simp
  | cons a l ih =>
    rw [List.foldl_cons, ih]
    split_ifs with hlt
    · constructor
      · rintro (h | ⟨b, hb, h⟩)
        · exact .inr ⟨a, List.mem_cons_self, h⟩
        · exact .inr ⟨b, List.mem_cons_of_mem _ hb, h⟩
      · rintro (h | ⟨b, hb, h⟩)
        · exact .inl (hlt.le.trans h)
        · rcases List.mem_cons.mp hb with rfl | hmem
          · exact .inl h
          · exact .inr ⟨b, hmem, h⟩
    · constructor
      · rintro (h | ⟨b, hb, h⟩)
        · exact .inl h
        · exact .inr ⟨b, List.mem_cons_of_mem _ hb, h⟩
      · rintro (h | ⟨b, hb, h⟩)
        · exact .inl h
        · rcases List.mem_cons.mp hb with rfl | hmem
          · exact .inl ((not_lt.mp hlt).trans h)
          · exact .inr ⟨b, hmem, h⟩

/-- A path of two points or more is near if one of its segments is. -/
theorem pointToPolylineDistSq_le_iff (h : 2 ≤ path.length) :
    pointToPolylineDistSq px py path ≤ (r : WithTop K) ↔
      ∃ seg ∈ path.zip path.tail, pointSegmentDistSq px py seg.1.x seg.1.y seg.2.x seg.2.y ≤ r := by
  match path with
  | a :: b :: rest =>
    unfold pointToPolylineDistSq
    rw [foldl_least_le_iff (fun seg : Pt K × Pt K =>
      ((pointSegmentDistSq px py seg.1.x seg.1.y seg.2.x seg.2.y : K) : WithTop K))]
    simp only [top_le_iff, WithTop.coe_ne_top, false_or, WithTop.coe_le_coe]

omit [Scalar K] in
theorem mem_segments_append {seg : Pt K × Pt K} (h : seg ∈ path.zip path.tail) :
    seg ∈ (path ++ more).zip (path ++ more).tail := by
  induction path with
  | nil => cases h
  | cons a rest ih =>
    cases rest with
    | nil => cases h
    | cons b rest =>
      rcases List.mem_cons.mp h with rfl | htail
      · exact List.mem_cons_self
      · exact List.mem_cons_of_mem _ (ih htail)

theorem strokeHitByEraser_iff {s : Stroke K} :
    strokeHitByEraser s path ↔ s.pts ≠ [] ∧ path ≠ [] ∧
      ((∃ p ∈ s.pts, pointToPolylineDistSq p.x p.y path ≤ ((eraseRadiusSq : K) : WithTop K)) ∨
        ∃ e ∈ path, pointToPolylineDistSq e.x e.y s.pts ≤ ((eraseRadiusSq : K) : WithTop K)) := by
  unfold strokeHitByEraser
  split_ifs with h
  · rcases (Bool.or_eq_true _ _).mp h with hs | hpath
    · simp [List.isEmpty_iff.mp hs]
    · simp [List.isEmpty_iff.mp hpath]
  · simp only [Bool.or_eq_true, List.isEmpty_iff, not_or] at h
    simp [h.1, h.2]

/-- What an eraser path of two points or more hits, it hits when it goes on. -/
theorem strokeHitByEraser_append {s : Stroke K} (h : 2 ≤ path.length) (hhit : strokeHitByEraser s path) :
    strokeHitByEraser s (path ++ more) := by
  have hlong : 2 ≤ (path ++ more).length := by
    rw [List.length_append]
    omega
  obtain ⟨hs, hpath, hnear⟩ := strokeHitByEraser_iff.mp hhit
  refine strokeHitByEraser_iff.mpr ⟨hs, by simp [hpath], ?_⟩
  rcases hnear with ⟨p, hp, hnear⟩ | ⟨e, he, hnear⟩
  · obtain ⟨seg, hseg, hd⟩ := (pointToPolylineDistSq_le_iff h).mp hnear
    exact .inl ⟨p, hp, (pointToPolylineDistSq_le_iff hlong).mpr ⟨seg, mem_segments_append hseg, hd⟩⟩
  · exact .inr ⟨e, List.mem_append_left _ he, hnear⟩

end Path

namespace StrokeModel

variable {m : StrokeModel K} {g : Gesture K} {gs : List (Gesture K)} {k : ℕ}

/-! ### The snapshots -/

/-- The eraser path of a finished gesture. -/
def erasePath (x y : K) (points : List (K × K)) : List (Pt K) :=
  ⟨x, y, 0⟩ :: points.map fun q => ⟨q.1, q.2, 0⟩

/-- What an eraser path leaves of some strokes. -/
def spared (seq : ℤ) (path : List (Pt K)) (strokes : List (Stroke K)) : List (Stroke K) :=
  strokes.filter fun s => !erases seq path s

/-- An eraser gesture moves and rubs something out before it is finished. -/
def wipesEarly (strokes : List (Stroke K)) : Gesture K → Bool
  | .erase x y seq points => !points.isEmpty && strokes.any (erases seq (erasePath x y points))
  | _ => false

/-- What an operation pushes on the undo stack. -/
def snapshot (strokes : List (Stroke K)) : Gesture K → List (Stroke K)
  | .erase x y seq points => if points.isEmpty then strokes else spared seq (erasePath x y points) strokes
  | _ => strokes

/-- The snapshot is the strokes before the operation, unless the eraser was early. -/
theorem snapshot_eq_iff {strokes : List (Stroke K)} : snapshot strokes g = strokes ↔ ¬ wipesEarly strokes g := by
  cases g with
  | stroke x y p seq points => simp [snapshot, wipesEarly]
  | clearAll => simp [snapshot, wipesEarly]
  | erase x y seq points =>
    cases hpoints : points.isEmpty with
    | true => simp [snapshot, wipesEarly, hpoints]
    | false => simp [snapshot, wipesEarly, hpoints, spared, List.filter_eq_self]

/-- Rubbing out with a longer path finishes what a shorter one began. -/
theorem spared_append {seq : ℤ} {path more : List (Pt K)} {strokes : List (Stroke K)} (h : 2 ≤ path.length) :
    spared seq (path ++ more) (spared seq path strokes) = spared seq (path ++ more) strokes := by
  rw [spared, spared, spared, List.filter_filter]
  congr 1
  funext s
  cases hshort : erases seq path s with
  | false => simp
  | true =>
    have hlong : erases seq (path ++ more) s := by
      unfold erases at hshort ⊢
      split_ifs at hshort ⊢ with hseq
      exact strokeHitByEraser_append h hshort
    simp [hlong]

theorem appendErase_of_path {path : List (Pt K)} {x y : K} (hm : m.eraserPath = some path) :
    m.appendErase x y =
      { m with
        strokes := spared m.eraserWindowSeq (path ++ [⟨x, y, 0⟩]) m.strokes
        eraserPath := some (path ++ [⟨x, y, 0⟩]) } := by
  simp only [appendErase, hm, Option.getD_some, applyEraser]
  split
  · next h => cases h
  · next h => simp at h
  · next h =>
    cases h
    rfl

/-- The moves of an eraser gesture rub out what the whole path hits. -/
theorem run_appendErase {path : List (Pt K)} {points : List (K × K)} (hm : m.eraserPath = some path)
    (hpath : path ≠ []) (hpoints : points ≠ []) :
    run call m (points.map fun q => .appendErase q.1 q.2) =
      { m with
        strokes := spared m.eraserWindowSeq (path ++ points.map fun q => ⟨q.1, q.2, 0⟩) m.strokes
        eraserPath := some (path ++ points.map fun q => ⟨q.1, q.2, 0⟩) } := by
  induction points generalizing m path with
  | nil => exact absurd rfl hpoints
  | cons q points ih =>
    rw [List.map_cons, run_cons, call, appendErase_of_path hm, List.map_cons,
      List.append_cons path _ (points.map _)]
    by_cases hrest : points = []
    · simp [hrest]
    · have hlong : 2 ≤ (path ++ [(⟨q.1, q.2, 0⟩ : Pt K)]).length := by
        have := List.length_pos_of_ne_nil hpath
        simp only [List.length_append, List.length_singleton]
        omega
      rw [ih rfl (by simp) hrest, spared_append hlong]

theorem run_appendPoint {s : Stroke K} {points : List (K × K × K)} (hm : m.current = some s) :
    run call m (points.map fun q => .appendPoint q.1 q.2.1 q.2.2) =
      { m with current := some { s with pts := s.pts ++ points.map fun q => ⟨q.1, q.2.1, q.2.2⟩ } } := by
  induction points generalizing m s with
  | nil => simp [← hm]
  | cons q points ih =>
    have hstep : (m.appendPoint q.1 q.2.1 q.2.2).current = some { s with pts := s.pts ++ [⟨q.1, q.2.1, q.2.2⟩] } := by
      simp [appendPoint, hm]
    rw [List.map_cons, run_cons, call, ih hstep, List.map_cons, List.append_cons s.pts _ (points.map _)]
    rfl

/-! ### One operation -/

omit [Scalar K] in
/-- A push, read from the newest snapshot on. -/
theorem reverse_pushUndoState :
    m.pushUndoState.undoStack.reverse = (m.strokes :: m.undoStack.reverse).take undoCap := by
  rw [pushUndoState, cloneStrokes_eq, ← List.take_reverse, List.reverse_append]
  rfl

omit [Scalar K] in
theorem commitCurrent_of_none (hm : m.current = none) : m.commitCurrent = m := by
  rw [commitCurrent, hm]
  cases m
  simp_all

omit [Scalar K] in
theorem commitCurrent_of_some {s : Stroke K} (hm : m.current = some s) (hs : s.pts ≠ []) :
    m.commitCurrent = { m.pushUndoState with strokes := m.strokes ++ [s], current := none } := by
  simp [commitCurrent, hm, hs]

theorem finishErase_of_path {path : List (Pt K)} (hm : m.eraserPath = some path) (hpath : path ≠ []) :
    m.finishErase =
      { m.pushUndoState with
        strokes := spared m.eraserWindowSeq path m.strokes
        eraserPath := none
        eraserWindowSeq := -1 } := by
  obtain ⟨a, rest, rfl⟩ := List.exists_cons_of_ne_nil hpath
  simp only [finishErase, hm, applyEraser, pushUndoState, spared]

/-- An operation leaves nothing in progress and pushes one snapshot. -/
theorem perform_undoStack (hm : m.Idle) :
    (perform m g).Idle ∧
      (perform m g).undoStack.reverse = (snapshot m.strokes g :: m.undoStack.reverse).take undoCap := by
  cases g with
  | clearAll => exact ⟨⟨rfl, rfl⟩, reverse_pushUndoState⟩
  | stroke x y p seq points =>
    have hbegin : m.beginStroke x y p seq =
        { m with
          eraserPath := none
          eraserWindowSeq := -1
          current := some ⟨m.penRGBA, [⟨x, y, p⟩], seq⟩ } := by
      simp only [beginStroke, commitCurrent_of_none hm.current]
    rw [perform, Gesture.calls, run_concat, run_cons, call, hbegin, run_appendPoint rfl, call,
      commitCurrent_of_some rfl (by simp)]
    exact ⟨⟨rfl, rfl⟩, reverse_pushUndoState⟩
  | erase x y seq points =>
    have hbegin : m.beginErase x y seq =
        { m with current := none, eraserWindowSeq := seq, eraserPath := some [⟨x, y, 0⟩] } := by
      simp only [beginErase, commitCurrent_of_none hm.current]
    rw [perform, Gesture.calls, run_concat, run_cons, call, hbegin, call]
    by_cases hpoints : points = []
    · subst hpoints
      rw [List.map_nil, run_nil, finishErase_of_path rfl (by simp)]
      exact ⟨⟨rfl, rfl⟩, reverse_pushUndoState⟩
    · rw [run_appendErase rfl (by simp) hpoints, finishErase_of_path rfl (by simp)]
      refine ⟨⟨rfl, rfl⟩, reverse_pushUndoState.trans ?_⟩
      simp [snapshot, hpoints, erasePath]

/-! ### Many operations -/

/-- The newest snapshots of a run are those of its last operations. -/
theorem run_undoStack (hm : m.Idle) (gs : List (Gesture K)) :
    (run perform m gs).Idle ∧ ∀ j < min gs.length undoCap,
      (run perform m gs).undoStack.reverse[j]? =
        (gs[gs.length - 1 - j]?).map (snapshot (run perform m (gs.take (gs.length - 1 - j))).strokes) := by
  induction gs using List.reverseRecOn with
  | nil => exact ⟨hm, fun j hj => by simp at hj⟩
  | append_singleton gs g ih =>
    obtain ⟨hidle, hsnap⟩ := ih
    rw [run_concat]
    refine ⟨(perform_undoStack hidle).1, fun j hj => ?_⟩
    rw [List.length_append, List.length_singleton] at hj
    rw [(perform_undoStack hidle).2, List.getElem?_take_of_lt (by omega), List.length_append, List.length_singleton]
    cases j with
    | zero => simp
    | succ j =>
      have hlt : gs.length + 1 - 1 - (j + 1) < gs.length := by omega
      have hidx : gs.length - 1 - j = gs.length + 1 - 1 - (j + 1) := by omega
      rw [List.getElem?_cons_succ, hsnap j (by omega), List.getElem?_append_left hlt,
        List.take_append_of_le_length hlt.le, hidx]

omit [Scalar K] in
theorem undoOne_undoStack : m.undoOne.undoStack = m.undoStack.dropLast := by
  rw [undoOne]
  split
  · next h => simp [List.getLast?_eq_none_iff.mp h]
  · rfl

omit [Scalar K] in
theorem undoOne_strokes {strokes : List (Stroke K)} (h : m.undoStack.getLast? = some strokes) :
    m.undoOne.strokes = strokes := by
  rw [undoOne, h]

omit [Scalar K] in
/-- Undo takes the snapshots back from the newest on. -/
theorem undoOne_iterate {strokes : List (Stroke K)} (h : m.undoStack.reverse[k]? = some strokes) :
    (undoOne^[k + 1] m).strokes = strokes := by
  induction k generalizing m with
  | zero =>
    rw [← List.head?_eq_getElem?, List.head?_reverse] at h
    exact undoOne_strokes h
  | succ k ih =>
    rw [Function.iterate_succ_apply]
    apply ih
    rw [undoOne_undoStack, ← List.tail_reverse, List.getElem?_tail, h]

omit [Scalar K] in
theorem length_pushUndoState_le : m.pushUndoState.undoStack.length ≤ undoCap := by
  rw [pushUndoState, List.length_drop]
  omega

/-- No call makes the undo stack longer than the cap. -/
theorem length_call_le {c : Call K} (h : m.undoStack.length ≤ undoCap) : (call m c).undoStack.length ≤ undoCap := by
  have hcommit : m.commitCurrent.undoStack.length ≤ undoCap := by
    unfold commitCurrent
    split
    · exact h
    · split_ifs
      · exact h
      · exact length_pushUndoState_le
  have happly : ∀ m : StrokeModel K, m.applyEraser.undoStack = m.undoStack := by
    intro m
    unfold applyEraser
    split <;> rfl
  cases c with
  | beginStroke x y p seq => exact hcommit
  | appendPoint x y p => exact h
  | commitCurrent => exact hcommit
  | beginErase x y seq => exact hcommit
  | appendErase x y =>
    rw [call, appendErase, happly]
    exact h
  | finishErase =>
    rw [call, finishErase]
    split
    · exact h
    · exact h
    · simp only [happly]
      exact length_pushUndoState_le
  | clearAll => exact length_pushUndoState_le
  | undoOne =>
    rw [call, undoOne_undoStack, List.length_dropLast]
    omega
  | translateAll dx dy => exact h

/-- Undo after a run of operations. The strokes are again those of `k` operations ago
unless the first of these is an eraser gesture that moved and rubbed something out: what
it touched stays lost. The stack keeps to its cap in any run of the methods. -/
theorem undoOne_iterate_run (hm : m.Idle) (hk : k ≤ min gs.length undoCap) :
    ((undoOne^[k] (run perform m gs)).strokes = (run perform m (gs.take (gs.length - k))).strokes ↔
        ∀ g, gs[gs.length - k]? = some g → ¬ wipesEarly (run perform m (gs.take (gs.length - k))).strokes g) ∧
      (m.undoStack.length ≤ undoCap → ∀ calls, (run call m calls).undoStack.length ≤ undoCap) := by
  refine ⟨?_, fun hcap calls =>
    run_invariant (P := fun m : StrokeModel K => m.undoStack.length ≤ undoCap) (fun _ _ => length_call_le) hcap⟩
  cases k with
  | zero => simp
  | succ k =>
    have hlt : gs.length - (k + 1) < gs.length := by omega
    have hsnap := (run_undoStack hm gs).2 k (by omega)
    have hidx : gs.length - 1 - k = gs.length - (k + 1) := by omega
    rw [hidx, List.getElem?_eq_getElem hlt, Option.map_some] at hsnap
    rw [undoOne_iterate hsnap, snapshot_eq_iff, List.getElem?_eq_getElem hlt]
    constructor
    · rintro h g ⟨⟩
      exact h
    · exact fun h => h _ rfl

/-- A dot of ink. -/
def dot : StrokeModel ℚ := { empty with strokes := [⟨[0, 0, 0, 1], [⟨0, 0, 1⟩], -1⟩] }

/-- A stroke, an eraser gesture that moves away from it, and undo. -/
theorem undoOne_iterate_run_dot :
    ((undoOne^[1] (run perform dot [.erase 50 0 (-1) [(60, 0)]])).strokes = dot.strokes ↔
        ∀ g, [Gesture.erase (50 : ℚ) 0 (-1) [(60, 0)]][0]? = some g → ¬ wipesEarly dot.strokes g) ∧
      (dot.undoStack.length ≤ undoCap → ∀ calls, (run call dot calls).undoStack.length ≤ undoCap) :=
  undoOne_iterate_run ⟨rfl, rfl⟩ (by decide)

/-- The eraser rubs the dot out; undo does not bring it back. -/
theorem undoOne_keeps_erased :
    dot.Idle ∧ (run perform dot [.erase 0 0 (-1) [(0, 0)]]).undoStack.length = 1 ∧
      (undoOne^[1] (run perform dot [.erase 0 0 (-1) [(0, 0)]])).strokes ≠ dot.strokes := by
  refine ⟨⟨rfl, rfl⟩, ?_, ?_⟩ <;> decide +kernel

end StrokeModel

end Annotations.History
