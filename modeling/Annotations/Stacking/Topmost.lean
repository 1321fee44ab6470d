import Mathlib

/-! Layers stacked on one another. A list holds the layers from bottom to top and
`mem i a` says that layer `i` covers the point `a`. The topmost layer at a point
is found by a search from the top, and equally by cutting every layer by the
layers above it: the cut layers are disjoint, cover what the layers cover, and
the one that holds a point is the topmost one there. -/

namespace Annotations.Stacking

variable {ι α : Type*} (mem : ι → α → Prop)

/-- `i` covers `a` and no layer above `i` does. -/
def Topmost (l : List ι) (i : ι) (a : α) : Prop :=
  ∃ below above, l = below ++ i :: above ∧ mem i a ∧ ∀ j ∈ above, ¬ mem j a

/-- No layer covers `a`. -/
def Uncovered (l : List ι) (a : α) : Prop := ∀ i ∈ l, ¬ mem i a

variable {mem} {l : List ι} {i j : ι} {a : α}

theorem Topmost.covers (h : Topmost mem l i a) : mem i a := by
  obtain ⟨_, _, _, hi, _⟩ := h
  exact hi

theorem Topmost.mem_list (h : Topmost mem l i a) : i ∈ l := by
  obtain ⟨_, _, rfl, _, _⟩ := h
  simp

theorem Topmost.not_uncovered (h : Topmost mem l i a) : ¬ Uncovered mem l a :=
  fun hu => hu i h.mem_list h.covers

@[simp] theorem topmost_nil : ¬ Topmost mem [] i a := by
  rintro ⟨below, above, h, _⟩
  simp at h

@[simp] theorem uncovered_nil : Uncovered mem [] a := by simp [Uncovered]

theorem uncovered_cons : Uncovered mem (j :: l) a ↔ ¬ mem j a ∧ Uncovered mem l a := by
  simp [Uncovered]

/-- A new bottom layer is topmost only where nothing above covers. -/
theorem topmost_cons :
    Topmost mem (j :: l) i a ↔ Topmost mem l i a ∨ i = j ∧ mem j a ∧ Uncovered mem l a := by
  constructor
  · rintro ⟨below, above, hl, hi, habove⟩
    cases below with
    | nil =>
      obtain ⟨rfl, rfl⟩ := List.cons.inj hl
      exact .inr ⟨rfl, hi, habove⟩
    | cons b below =>
      obtain ⟨rfl, rfl⟩ := List.cons.inj hl
      exact .inl ⟨below, above, rfl, hi, habove⟩
  · rintro (⟨below, above, rfl, hi, habove⟩ | ⟨rfl, hj, hl⟩)
    · exact ⟨j :: below, above, rfl, hi, habove⟩
    · exact ⟨[], l, rfl, hj, hl⟩

/-- A point has at most one topmost layer. -/
theorem Topmost.unique (hi : Topmost mem l i a) (hj : Topmost mem l j a) : i = j := by
  induction l with
  | nil => exact absurd hi topmost_nil
  | cons k l ih =>
    rw [topmost_cons] at hi hj
    rcases hi with hi | ⟨rfl, _, hil⟩ <;> rcases hj with hj | ⟨rfl, _, hjl⟩
    · exact ih hi hj
    · exact absurd hjl hi.not_uncovered
    · exact absurd hil hj.not_uncovered
    · rfl

theorem exists_topmost_or_uncovered : (∃ i, Topmost mem l i a) ∨ Uncovered mem l a := by
  induction l with
  | nil => exact .inr uncovered_nil
  | cons j l ih =>
    rcases ih with ⟨i, hi⟩ | hl
    · exact .inl ⟨i, topmost_cons.mpr (.inl hi)⟩
    · by_cases hj : mem j a
      · exact .inl ⟨j, topmost_cons.mpr (.inr ⟨rfl, hj, hl⟩)⟩
      · exact .inr (uncovered_cons.mpr ⟨hj, hl⟩)

/-! ### Search from the top -/

section Search
variable {p : ι → Bool}

theorem find_reverse_eq_none (hp : ∀ i ∈ l, p i = true ↔ mem i a) :
    l.reverse.find? p = none ↔ Uncovered mem l a := by
  rw [List.find?_eq_none]
  refine forall_congr' fun i => ?_
  rw [List.mem_reverse]
  exact imp_congr_right fun hi => not_congr (hp i hi)

/-- The first hit of the walk from the top is the topmost layer. -/
theorem find_reverse_eq_some (hp : ∀ i ∈ l, p i = true ↔ mem i a) :
    l.reverse.find? p = some i ↔ Topmost mem l i a := by
  induction l with
  | nil => simp
  | cons j l ih =>
    have hl : ∀ i ∈ l, p i = true ↔ mem i a := fun i hi => hp i (by simp [hi])
    rw [List.reverse_cons, List.find?_append, topmost_cons, ← ih hl, ← find_reverse_eq_none hl,
      ← hp j (by simp)]
    cases hf : l.reverse.find? p with
    | some k => simp
    | none => cases hj : p j <;> simp [hj, eq_comm]

end Search

/-! ### Renaming the layers -/

section Rename
variable {κ : Type*} {mem' : κ → α → Prop} {f : ι → Option κ} {k : κ}

/-- Layers that are dropped or renamed without losing what they cover. -/
theorem uncovered_filterMap (hf : ∀ i ∈ l, mem i a ↔ ∃ k, f i = some k ∧ mem' k a) :
    Uncovered mem' (l.filterMap f) a ↔ Uncovered mem l a := by
  simp only [Uncovered, List.mem_filterMap]
  constructor
  · intro h i hi hmem
    obtain ⟨k, hk, hmem'⟩ := (hf i hi).mp hmem
    exact h k ⟨i, hi, hk⟩ hmem'
  · rintro h k ⟨i, hi, hk⟩ hmem'
    exact h i hi ((hf i hi).mpr ⟨k, hk, hmem'⟩)

theorem topmost_filterMap (hf : ∀ i ∈ l, mem i a ↔ ∃ k, f i = some k ∧ mem' k a) :
    Topmost mem' (l.filterMap f) k a ↔ ∃ i, f i = some k ∧ Topmost mem l i a := by
  induction l with
  | nil => simp
  | cons j l ih =>
    have hl : ∀ i ∈ l, mem i a ↔ ∃ k, f i = some k ∧ mem' k a := fun i hi => hf i (by simp [hi])
    have hj := hf j (by simp)
    simp only [topmost_cons, and_or_left, exists_or, ← ih hl, ← uncovered_filterMap hl]
    cases hfj : f j with
    | none =>
      have hnj : ¬ mem j a := by simp [hj, hfj]
      simp only [List.filterMap_cons, hfj]
      constructor
      · exact .inl
      · rintro (h | ⟨i, _, rfl, hmem, _⟩)
        · exact h
        · exact absurd hmem hnj
    | some k' =>
      simp only [List.filterMap_cons, hfj, topmost_cons]
      refine or_congr_right ⟨?_, ?_⟩
      · rintro ⟨rfl, hmem, hfree⟩
        exact ⟨j, hfj, rfl, hj.mpr ⟨k, hfj, hmem⟩, hfree⟩
      · rintro ⟨i, hi, rfl, hmem, hfree⟩
        obtain rfl : k' = k := Option.some.inj (hfj.symm.trans hi)
        obtain ⟨k, hk, hmem'⟩ := hj.mp hmem
        obtain rfl : k' = k := Option.some.inj (hfj.symm.trans hk)
        exact ⟨rfl, hmem', hfree⟩

end Rename

/-! ### Cutting every layer by those above it -/

/-- Every layer less the union of the layers above it, with that layer. -/
def cut (mem : ι → α → Prop) : List ι → List (ι × (α → Prop))
  | [] => []
  | i :: l => (i, fun a => mem i a ∧ Uncovered mem l a) :: cut mem l

/-- The cut layer that holds a point is the topmost layer there. -/
theorem exists_mem_cut : (∃ part, (i, part) ∈ cut mem l ∧ part a) ↔ Topmost mem l i a := by
  induction l with
  | nil => simp [cut]
  | cons j l ih =>
    rw [topmost_cons, ← ih]
    simp only [cut, List.mem_cons, Prod.mk.injEq]
    constructor
    · rintro ⟨part, ⟨rfl, rfl⟩ | hpart, ha⟩
      · exact .inr ⟨rfl, ha⟩
      · exact .inl ⟨part, hpart, ha⟩
    · rintro (⟨part, hpart, ha⟩ | ⟨rfl, ha⟩)
      · exact ⟨part, .inr hpart, ha⟩
      · exact ⟨_, .inl ⟨rfl, rfl⟩, ha⟩

/-- The cut layers are pairwise disjoint. -/
theorem cut_pairwise_disjoint :
    (cut mem l).Pairwise fun x y => ∀ a, x.2 a → ¬ y.2 a := by
  induction l with
  | nil => exact List.Pairwise.nil
  | cons j l ih =>
    refine List.Pairwise.cons ?_ ih
    rintro ⟨i, part⟩ hpart a ⟨_, hl⟩ ha
    exact (exists_mem_cut.mp ⟨part, hpart, ha⟩).not_uncovered hl

end Annotations.Stacking
