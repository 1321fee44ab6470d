import Mathlib

/-! Walks of a tree down to a depth, and the first of the largest nodes on a walk. -/

namespace Annotations.Trees

variable {α β K : Type*}

section Preorder

variable (children : α → List α) {levels depth : ℕ} {a b c : α}

/-- The nodes of the upper `levels` levels at `a`, each before the ones below it. -/
def preorder : ℕ → α → List α
  | 0, _ => []
  | levels + 1, a => a :: (children a).flatMap (preorder levels)

/-- `b` is `depth` levels below `a`. -/
inductive Descends (a : α) : ℕ → α → Prop
  | self : Descends a 0 a
  | child {depth : ℕ} {b c : α} (h : Descends a depth b) (hc : c ∈ children b) : Descends a (depth + 1) c

variable {children}

theorem Descends.of_child (hb : b ∈ children a) (h : Descends children b depth c) :
    Descends children a (depth + 1) c := by
  induction h with
  | self => exact .child .self hb
  | child _ hc ih => exact ih.child hc

theorem Descends.exists_child (h : Descends children a (depth + 1) c) :
    ∃ b ∈ children a, Descends children b depth c := by
  induction depth generalizing c with
  | zero =>
    cases h with
    | child h hc =>
      cases h
      exact ⟨c, hc, .self⟩
  | succ depth ih =>
    cases h with
    | child h hc =>
      obtain ⟨b, hb, h'⟩ := ih h
      exact ⟨b, hb, h'.child hc⟩

/-- The walk passes the nodes that are less than `levels` levels down. -/
theorem mem_preorder_iff : b ∈ preorder children levels a ↔ ∃ depth < levels, Descends children a depth b := by
  induction levels generalizing a with
  | zero => simp [preorder]
  | succ levels ih =>
    simp only [preorder, List.mem_cons, List.mem_flatMap, ih]
    constructor
    · rintro (rfl | ⟨c, hc, depth, hdepth, h⟩)
      · exact ⟨0, Nat.succ_pos _, .self⟩
      · exact ⟨depth + 1, Nat.succ_lt_succ hdepth, h.of_child hc⟩
    · rintro ⟨depth, hdepth, h⟩
      cases depth with
      | zero =>
        cases h
        exact .inl rfl
      | succ depth =>
        obtain ⟨c, hc, h⟩ := h.exists_child
        exact .inr ⟨c, hc, depth, Nat.lt_of_succ_lt_succ hdepth, h⟩

/-- To visit a node and then walk its children is one step of the walk. -/
theorem foldl_preorder_succ (visit : β → α → β) (s : β) :
    (preorder children (levels + 1) a).foldl visit s =
      (children a).foldl (fun s c => (preorder children levels c).foldl visit s) (visit s a) := by
  rw [preorder, List.foldl_cons, List.foldl_flatMap]

end Preorder

section FirstLargest

variable [LinearOrder K] {p : α → Prop} {f : α → K} {nodes before before' after after' : List α} {a a' b : α}

/-- Among the `nodes` with `p`, `a` is the first of the largest by `f`, between `before` and `after`. -/
structure FirstLargest (p : α → Prop) (f : α → K) (nodes before : List α) (a : α) (after : List α) : Prop where
  split : nodes = before ++ a :: after
  holds : p a
  lt : ∀ b ∈ before, p b → f b < f a
  le : ∀ b ∈ after, p b → f b ≤ f a

theorem FirstLargest.mem (h : FirstLargest p f nodes before a after) : a ∈ nodes := by simp [h.split]

theorem FirstLargest.le_of_mem (h : FirstLargest p f nodes before a after) (hb : b ∈ nodes) (hp : p b) : f b ≤ f a := by
  rw [h.split, List.mem_append, List.mem_cons] at hb
  rcases hb with hb | rfl | hb
  · exact (h.lt b hb hp).le
  · exact le_rfl
  · exact h.le b hb hp

/-- A node that is no larger leaves the choice. -/
theorem FirstLargest.concat (h : FirstLargest p f nodes before a after) (hle : p b → f b ≤ f a) :
    FirstLargest p f (nodes ++ [b]) before a (after ++ [b]) where
  split := by simp [h.split]
  holds := h.holds
  lt := h.lt
  le c hc hp := by
    rcases List.mem_append.mp hc with hc | hc
    · exact h.le c hc hp
    · obtain rfl := List.mem_singleton.mp hc
      exact hle hp

/-- A node that is larger than all before it is the choice. -/
theorem firstLargest_concat (hp : p b) (hlt : ∀ c ∈ nodes, p c → f c < f b) :
    FirstLargest p f (nodes ++ [b]) nodes b [] :=
  ⟨rfl, hp, hlt, fun _ hc => absurd hc List.not_mem_nil⟩

theorem FirstLargest.not_before (h : FirstLargest p f nodes before a after)
    (h' : FirstLargest p f nodes before' a' after') : ¬ a ∈ before' := fun ha =>
  (h'.lt a ha h.holds).not_ge (h.le_of_mem h'.mem h'.holds)

theorem FirstLargest.unique (h : FirstLargest p f nodes before a after)
    (h' : FirstLargest p f nodes before' a' after') : before = before' ∧ a = a' ∧ after = after' := by
  have heq : before ++ a :: after = before' ++ a' :: after' := h.split.symm.trans h'.split
  rcases List.append_eq_append_iff.mp heq with ⟨rest, hbefore, hrest⟩ | ⟨rest, hbefore, hrest⟩
  · cases rest with
    | nil =>
      rw [List.append_nil] at hbefore
      exact ⟨hbefore.symm, List.cons.inj hrest⟩
    | cons c rest =>
      obtain ⟨rfl, -⟩ := List.cons.inj hrest
      exact absurd (by simp [hbefore]) (h.not_before h')
  · cases rest with
    | nil =>
      rw [List.append_nil] at hbefore
      obtain ⟨rfl, rfl⟩ := List.cons.inj hrest
      exact ⟨hbefore, rfl, rfl⟩
    | cons c rest =>
      obtain ⟨rfl, -⟩ := List.cons.inj hrest
      exact absurd (by simp [hbefore]) (h'.not_before h)

end FirstLargest

end Annotations.Trees
