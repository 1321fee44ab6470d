import Mathlib.Data.List.Basic
import Mathlib.Order.Basic
import Mathlib.Algebra.Order.Group.Int

/-! Records in the order of their times, of which the old ones are dropped from the front:
what is left is the records that are recent enough, and a stretch at the end that is all
recent is kept whole. -/

namespace Annotations.Recent

variable {α : Type*} (time : α → ℤ) {l s : List α} {a b r : α} {span now : ℤ}

/-- The times do not decrease along the list. -/
def Ordered (l : List α) : Prop := l.Pairwise fun a b => time a ≤ time b

/-- Drop the leading records that are older than the span. -/
def pruned (span now : ℤ) (l : List α) : List α := l.dropWhile fun a => ¬ now - time a ≤ span

variable {time}

theorem pruned_suffix : pruned time span now l <:+ l := List.dropWhile_suffix _

theorem Ordered.of_suffix (h : Ordered time l) (hs : s <:+ l) : Ordered time s := List.Pairwise.sublist hs.sublist h

/-- In an ordered list every record after a recent one is recent. -/
theorem pruned_eq_filter (h : Ordered time l) : pruned time span now l = l.filter fun a => now - time a ≤ span := by
  induction l with
  | nil => rfl
  | cons a rest ih =>
    obtain ⟨hfirst, hrest⟩ := List.pairwise_cons.mp h
    unfold pruned at ih ⊢
    by_cases ha : now - time a ≤ span
    · rw [List.dropWhile_cons_of_neg (by simp [ha]), List.filter_eq_self.mpr]
      intro b hb
      rcases List.mem_cons.mp hb with rfl | hb
      · exact decide_eq_true ha
      · have hle := hfirst b hb
        exact decide_eq_true (by omega)
    · rw [List.dropWhile_cons_of_pos (by simpa using ha), List.filter_cons_of_neg (by simp [ha])]
      exact ih hrest

theorem mem_pruned (h : Ordered time l) : a ∈ pruned time span now l ↔ a ∈ l ∧ now - time a ≤ span := by
  rw [pruned_eq_filter h, List.mem_filter, decide_eq_true_eq]

theorem suffix_pruned (h : Ordered time l) (hs : s <:+ l) (hrecent : ∀ a ∈ s, now - time a ≤ span) :
    s <:+ pruned time span now l := by
  have hself : (s.filter fun a => decide (now - time a ≤ span)) = s :=
    List.filter_eq_self.mpr fun a ha => decide_eq_true (hrecent a ha)
  rw [pruned_eq_filter h, ← hself]
  exact hs.filter _

/-- A record that is too old takes everything before it along. -/
theorem pruned_of_old (h : Ordered time l) (hs : a :: s <:+ l) (hold : ¬ now - time a ≤ span) :
    pruned time span now l = pruned time span now s := by
  obtain ⟨front, rfl⟩ := hs
  have hall : ∀ b ∈ front ++ [a], ¬ now - time b ≤ span := by
    intro b hb
    rcases List.mem_append.mp hb with hb | hb
    · have hle := (List.pairwise_append.mp h).2.2 b hb a (List.mem_cons_self ..)
      omega
    · rw [List.mem_singleton.mp hb]
      exact hold
  have hordered : Ordered time s := h.of_suffix ⟨front ++ [a], by simp⟩
  have hsplit : front ++ a :: s = (front ++ [a]) ++ s := by simp
  rw [pruned_eq_filter h, pruned_eq_filter hordered, hsplit, List.filter_append]
  have hnone : ((front ++ [a]).filter fun b => decide (now - time b ≤ span)) = [] :=
    List.filter_eq_nil_iff.mpr fun b hb => by simpa using hall b hb
  rw [hnone, List.nil_append]

theorem Ordered.concat (h : Ordered time l) (hr : ∀ a ∈ l, time a ≤ time r) : Ordered time (l ++ [r]) := by
  refine List.pairwise_append.mpr ⟨h, List.pairwise_singleton _ _, ?_⟩
  intro a ha b hb
  rw [List.mem_singleton.mp hb]
  exact hr a ha

theorem suffix_concat (hs : s <:+ l) : s ++ [r] <:+ l ++ [r] := by
  obtain ⟨front, rfl⟩ := hs
  exact ⟨front, by simp⟩

end Annotations.Recent
