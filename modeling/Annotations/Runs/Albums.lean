import Mathlib

/-! Albums. The entries of an album lie on pages and are numbered in the order in which they were put
in. A turn of the album takes some entries off, lets the one that is still open grow, and puts new ones
after the others. Whether an entry is left after many turns is decided by the turns that take it. -/

namespace Annotations.Albums

/-- How entries are numbered, and what an entry may grow into. -/
structure Growth (σ : Type*) where
  number : σ → ℕ
  Grows : σ → σ → Prop
  refl : ∀ s, Grows s s
  trans : ∀ {s t u}, Grows s t → Grows t u → Grows s u
  number_eq : ∀ {s t}, Grows s t → number t = number s

/-- `next` is the number of the next new entry, and `current` that of the open one. -/
structure Album (κ σ : Type*) where
  page : κ → List σ
  next : ℕ
  current : Option ℕ

variable {κ σ : Type*} {g : Growth σ}

/-- A page after a turn: what is not taken stays in order, only the open entry grows, and what is new
has a new number. -/
def Leaf (g : Growth σ) (next : ℕ) (current : Option ℕ) (taken : σ → Bool) (page page' : List σ) : Prop :=
  ∃ (grow : σ → σ) (new : List σ), page' = (page.filter fun s => !taken s).map grow ++ new ∧
    (∀ s, g.Grows s (grow s)) ∧ (∀ s, g.number s < next → current ≠ some (g.number s) → grow s = s) ∧
    ∀ s ∈ new, next ≤ g.number s

/-- One turn. -/
structure Turn (g : Growth σ) (taken : κ → σ → Bool) (a b : Album κ σ) : Prop where
  page : ∀ c, Leaf g a.next a.current (taken c) (a.page c) (b.page c)
  next : a.next ≤ b.next
  current : ∀ n, b.current = some n → a.current = some n ∨ a.next ≤ n

/-- Nothing is taken. -/
abbrev Draws (g : Growth σ) (a b : Album κ σ) : Prop := Turn g (fun _ _ => false) a b

/-- Entries have different numbers, which have all been given out. -/
structure Numbered (g : Growth σ) (a : Album κ σ) : Prop where
  lt : ∀ c, ∀ s ∈ a.page c, g.number s < a.next
  unique : ∀ c c', ∀ s ∈ a.page c, ∀ s' ∈ a.page c', g.number s = g.number s' → c = c' ∧ s = s'

/-! ### Building turns -/

section Building
variable {next : ℕ} {current : Option ℕ} {taken : σ → Bool} {page page' : List σ} {a b d : Album κ σ}

theorem Leaf.of_filter (h : page' = page.filter fun s => !taken s) : Leaf g next current taken page page' :=
  ⟨id, [], by rw [h, List.map_id, List.append_nil], g.refl, fun _ _ _ => rfl, by simp⟩

theorem Leaf.of_eq (h : page' = page) : Leaf g next current (fun _ => false) page page' :=
  .of_filter (h.trans (by simp))

/-- The open entry grows. -/
theorem Leaf.of_map (grow : σ → σ) (h : page' = page.map grow) (hgrow : ∀ s, g.Grows s (grow s))
    (hother : ∀ s, g.number s < next → current ≠ some (g.number s) → grow s = s) :
    Leaf g next current (fun _ => false) page page' :=
  ⟨grow, [], by simp [h], hgrow, hother, by simp⟩

/-- New entries are put in. -/
theorem Leaf.of_append {new : List σ} (h : page' = page ++ new) (hnew : ∀ s ∈ new, next ≤ g.number s) :
    Leaf g next current (fun _ => false) page page' :=
  ⟨id, new, by simp [h], g.refl, fun _ _ _ => rfl, hnew⟩

theorem Turn.of_page {taken : κ → σ → Bool} (hpage : ∀ c, b.page c = (a.page c).filter fun s => !taken c s)
    (hnext : b.next = a.next) (hcurrent : b.current = a.current ∨ b.current = none) : Turn g taken a b where
  page c := .of_filter (hpage c)
  next := hnext.ge
  current n hn := by
    rcases hcurrent with hsame | hnone
    · exact .inl (hsame.symm.trans hn)
    · rw [hnone] at hn
      cases hn

theorem Draws.of_page (hpage : b.page = a.page) (hnext : b.next = a.next)
    (hcurrent : b.current = a.current ∨ b.current = none) : Draws g a b :=
  Turn.of_page (fun c => by simp [hpage]) hnext hcurrent

theorem Draws.refl : Draws g a a := .of_page rfl rfl (.inl rfl)

/-- A turn, and then one that takes nothing. -/
theorem Turn.trans {taken : κ → σ → Bool} (h : Turn g taken a b) (h' : Draws g b d) : Turn g taken a d where
  page c := by
    obtain ⟨grow, new, hpage, hgrow, hother, hnew⟩ := h.page c
    obtain ⟨grow', new', hpage', hgrow', hother', hnew'⟩ := h'.page c
    refine ⟨grow' ∘ grow, new.map grow' ++ new', ?_, fun s => g.trans (hgrow s) (hgrow' _), ?_, ?_⟩
    · simp [hpage', hpage]
    · intro s hs hcurrent
      have hkept := hother s hs hcurrent
      have hclosed : b.current ≠ some (g.number s) := fun hopen => by
        rcases h.current _ hopen with hold | hfresh
        · exact hcurrent hold
        · omega
      rw [Function.comp_apply, hkept]
      exact hother' s (hs.trans_le h.next) hclosed
    · intro s hs
      rcases List.mem_append.mp hs with hs | hs
      · obtain ⟨t, ht, rfl⟩ := List.mem_map.mp hs
        rw [g.number_eq (hgrow' t)]
        exact hnew t ht
      · exact h.next.trans (hnew' s hs)
  next := h.next.trans h'.next
  current n hn := by
    rcases h'.current n hn with hold | hfresh
    · exact h.current n hold
    · exact .inr (h.next.trans hfresh)

/-- Whole pages are emptied after a turn. -/
theorem Turn.empty {taken : κ → σ → Bool} {C : κ → Bool} (h : Turn g taken a b)
    (hpage : ∀ c, d.page c = if C c then [] else b.page c) (hnext : d.next = b.next)
    (hcurrent : d.current = b.current ∨ d.current = none) : Turn g (fun c s => taken c s || C c) a d where
  page c := by
    rw [hpage c]
    cases hC : C c with
    | true => exact ⟨id, [], by simp, g.refl, fun _ _ _ => rfl, by simp⟩
    | false => simpa using h.page c
  next := h.next.trans hnext.ge
  current n hn := by
    rcases hcurrent with hsame | hnone
    · exact h.current n (hsame ▸ hn)
    · rw [hnone] at hn
      cases hn

end Building

/-! ### One turn -/

section Turning
variable {taken : κ → σ → Bool} {a b : Album κ σ} {c : κ} {s s' : σ}

theorem Turn.keeps (h : Turn g taken a b) (hs : s ∈ a.page c) (htaken : taken c s = false) :
    ∃ s' ∈ b.page c, g.Grows s s' := by
  obtain ⟨grow, new, hpage, hgrow, -, -⟩ := h.page c
  refine ⟨grow s, ?_, hgrow s⟩
  rw [hpage]
  exact List.mem_append_left _ (List.mem_map_of_mem (List.mem_filter.mpr ⟨hs, by simp [htaken]⟩))

/-- An entry with an old number was there before. -/
theorem Turn.origin (h : Turn g taken a b) (hs' : s' ∈ b.page c) (hold : g.number s' < a.next) :
    ∃ s ∈ a.page c, taken c s = false ∧ g.Grows s s' ∧ (a.current ≠ some (g.number s) → s' = s) := by
  obtain ⟨grow, new, hpage, hgrow, hother, hnew⟩ := h.page c
  rw [hpage] at hs'
  rcases List.mem_append.mp hs' with hs' | hs'
  · obtain ⟨s, hs, rfl⟩ := List.mem_map.mp hs'
    obtain ⟨hs, htaken⟩ := List.mem_filter.mp hs
    rw [g.number_eq (hgrow s)] at hold
    exact ⟨s, hs, by simpa using htaken, hgrow s, hother s hold⟩
  · exact absurd (hnew s' hs') (not_le.mpr hold)

end Turning

/-! ### Many turns -/

/-- None of the turns from `j` to `k` takes the entry with the number off the page. -/
def Spared (g : Growth σ) (albums : ℕ → Album κ σ) (taken : ℕ → κ → σ → Bool) (j k : ℕ) (c : κ) (number : ℕ) : Prop :=
  ∀ i, j ≤ i → i < k → ∀ s ∈ (albums i).page c, g.number s = number → taken i c s = false

section Many
variable {albums : ℕ → Album κ σ} {taken : ℕ → κ → σ → Bool} {n j k : ℕ} {c c' : κ} {s s' : σ}
  (hturn : ∀ i < n, Turn g (taken i) (albums i) (albums (i + 1))) (hnumbered : ∀ i ≤ n, Numbered g (albums i))
include hturn

theorem next_le (hjk : j ≤ k) (hk : k ≤ n) : (albums j).next ≤ (albums k).next := by
  induction k, hjk using Nat.le_induction with
  | base => exact le_rfl
  | succ k hjk ih => exact (ih (by omega)).trans (hturn k hk).next

/-- An entry that is closed stays closed. -/
theorem closed (hs : g.number s < (albums j).next) (hclosed : (albums j).current ≠ some (g.number s)) (hjk : j ≤ k)
    (hk : k ≤ n) : (albums k).current ≠ some (g.number s) := by
  induction k, hjk using Nat.le_induction with
  | base => exact hclosed
  | succ k hjk ih =>
    intro hopen
    rcases (hturn k hk).current _ hopen with hold | hfresh
    · exact ih (by omega) hold
    · have hle := next_le hturn hjk (by omega)
      omega

include hnumbered

/-- Where an entry comes from: it was on the same page all along, and grew only while it was open. -/
theorem origin (hs : s ∈ (albums j).page c) (hjk : j ≤ k) (hk : k ≤ n) (hs' : s' ∈ (albums k).page c')
    (hnumber : g.number s' = g.number s) : c' = c ∧ Spared g albums taken j k c (g.number s) ∧ g.Grows s s' ∧
      ((albums j).current ≠ some (g.number s) → s' = s) := by
  have hlt := (hnumbered j (by omega)).lt c s hs
  induction k, hjk using Nat.le_induction generalizing s' with
  | base =>
    obtain ⟨rfl, rfl⟩ := (hnumbered j hk).unique c' c s' hs' s hs hnumber
    exact ⟨rfl, fun i hi hi' => by omega, g.refl _, fun _ => rfl⟩
  | succ k hjk ih =>
    have hle := next_le hturn hjk (by omega)
    obtain ⟨t, ht, htaken, hgrows, hsame⟩ := (hturn k hk).origin hs' (by omega)
    have hnumber' : g.number t = g.number s := (g.number_eq hgrows).symm.trans hnumber
    obtain ⟨rfl, hspared, hgrows', hsame'⟩ := ih (by omega) ht hnumber'
    refine ⟨rfl, fun i hi hi' u hu hu' => ?_, g.trans hgrows' hgrows, fun hclosed => ?_⟩
    · rcases Nat.lt_succ_iff_lt_or_eq.mp hi' with hi' | rfl
      · exact hspared i hi hi' u hu hu'
      · obtain ⟨-, rfl⟩ := (hnumbered i (by omega)).unique c' c' u hu t ht (hu'.trans hnumber'.symm)
        exact htaken
    · have hstill := closed hturn hlt hclosed hjk (by omega)
      rw [← hnumber'] at hstill
      exact (hsame hstill).trans (hsame' hclosed)

/-- An entry is left, and then on its page, just if no turn takes it. -/
theorem left_iff (hs : s ∈ (albums j).page c) (hjk : j ≤ k) (hk : k ≤ n) :
    (∃ s' ∈ (albums k).page c', g.number s' = g.number s) ↔ c' = c ∧ Spared g albums taken j k c (g.number s) := by
  constructor
  · rintro ⟨s', hs', hnumber⟩
    obtain ⟨hpage, hspared, -, -⟩ := origin hturn hnumbered hs hjk hk hs' hnumber
    exact ⟨hpage, hspared⟩
  · rintro ⟨rfl, hspared⟩
    induction k, hjk using Nat.le_induction with
    | base => exact ⟨s, hs, rfl⟩
    | succ k hjk ih =>
      obtain ⟨t, ht, hnumber⟩ := ih (by omega) fun i hi hi' => hspared i hi (by omega)
      obtain ⟨s', hs', hgrows⟩ := (hturn k hk).keeps ht (hspared k hjk (by omega) t ht hnumber)
      exact ⟨s', hs', (g.number_eq hgrows).trans hnumber⟩

end Many

end Annotations.Albums
