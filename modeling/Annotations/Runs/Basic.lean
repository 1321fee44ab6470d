import Mathlib

/-! Runs of a deterministic machine. A machine is a function `step` from a state
and an input to the next state; a run folds it over a list of inputs. `Along G`
says that every step of a run meets `G` at the state it is taken from, and
`stateAt` names the state after the first `k` inputs, so that properties of two
moments of one run can be stated. -/

namespace Annotations.Runs

variable {σ ι : Type*}

/-- The state after all the inputs. -/
def run (step : σ → ι → σ) (s : σ) (is : List ι) : σ := is.foldl step s

/-- Every step of the run meets `G` at the state it is taken from. -/
def Along (step : σ → ι → σ) (G : σ → ι → Prop) : σ → List ι → Prop
  | _, [] => True
  | s, i :: is => G s i ∧ Along step G (step s i) is

/-- The state after the first `k` inputs. -/
def stateAt (step : σ → ι → σ) (s : σ) (is : List ι) (k : ℕ) : σ := run step s (is.take k)

variable {step : σ → ι → σ} {G H : σ → ι → Prop} {s : σ} {i : ι} {is js : List ι} {k : ℕ}

@[simp] theorem run_nil : run step s [] = s := rfl

@[simp] theorem run_cons : run step s (i :: is) = run step (step s i) is := rfl

theorem run_append : run step s (is ++ js) = run step (run step s is) js := List.foldl_append

theorem run_concat : run step s (is ++ [i]) = step (run step s is) i := by
  rw [run_append, run_cons, run_nil]

@[simp] theorem along_nil : Along step G s [] := trivial

@[simp] theorem along_cons : Along step G s (i :: is) ↔ G s i ∧ Along step G (step s i) is := Iff.rfl

theorem along_append :
    Along step G s (is ++ js) ↔ Along step G s is ∧ Along step G (run step s is) js := by
  induction is generalizing s with
  | nil => simp
  | cons i is ih => simp only [List.cons_append, along_cons, ih, run_cons, and_assoc]

theorem along_concat : Along step G s (is ++ [i]) ↔ Along step G s is ∧ G (run step s is) i := by
  simp [along_append]

theorem Along.mono (hGH : ∀ s i, G s i → H s i) : Along step G s is → Along step H s is := by
  induction is generalizing s with
  | nil => exact id
  | cons i is ih => exact fun h => ⟨hGH _ _ h.1, ih h.2⟩

/-- The invariant rule: what holds at the start and is kept by every step that
meets `G` holds at the end of a run along `G`. -/
theorem Along.invariant {P : σ → Prop} (hstep : ∀ s i, P s → G s i → P (step s i)) (hs : P s)
    (h : Along step G s is) : P (run step s is) := by
  induction is generalizing s with
  | nil => exact hs
  | cons i is ih => exact ih (hstep s i hs h.1) h.2

/-- The invariant rule without a condition on the steps. -/
theorem run_invariant {P : σ → Prop} (hstep : ∀ s i, P s → P (step s i)) (hs : P s) :
    P (run step s is) := by
  induction is generalizing s with
  | nil => exact hs
  | cons i is ih => exact ih (hstep s i hs)

/-! ### The states of a run -/

@[simp] theorem stateAt_zero : stateAt step s is 0 = s := rfl

theorem stateAt_length : stateAt step s is is.length = run step s is := by
  rw [stateAt, List.take_length]

theorem stateAt_succ (h : is[k]? = some i) :
    stateAt step s is (k + 1) = step (stateAt step s is k) i := by
  rw [stateAt, stateAt, List.take_add_one, h, Option.toList_some, run_concat]

theorem Along.take (h : Along step G s is) (k : ℕ) : Along step G s (is.take k) := by
  rw [← List.take_append_drop k is, along_append] at h
  exact h.1

theorem Along.get (h : Along step G s is) (hk : is[k]? = some i) : G (stateAt step s is k) i := by
  have hsplit : is.take (k + 1) = is.take k ++ [i] := by
    rw [List.take_add_one, hk, Option.toList_some]
  have h' := h.take (k + 1)
  rw [hsplit, along_concat] at h'
  exact h'.2

theorem Along.of_get (h : ∀ k i, is[k]? = some i → G (stateAt step s is k) i) : Along step G s is := by
  induction is generalizing s with
  | nil => trivial
  | cons i is ih => exact ⟨h 0 i rfl, ih fun k j hget => h (k + 1) j hget⟩

/-- An invariant holds at every moment of a run along `G`. -/
theorem Along.invariant_at {P : σ → Prop} (hstep : ∀ s i, P s → G s i → P (step s i)) (hs : P s)
    (h : Along step G s is) (k : ℕ) : P (stateAt step s is k) :=
  (h.take k).invariant hstep hs

/-- What holds at the start, and passes from every moment to the next, holds at every
moment. -/
theorem stateAt_invariant {P : ℕ → σ → Prop} (hs : P 0 s)
    (hstep : ∀ k i, is[k]? = some i → P k (stateAt step s is k) →
      P (k + 1) (step (stateAt step s is k) i)) (hk : k ≤ is.length) :
    P k (stateAt step s is k) := by
  induction k with
  | zero => exact hs
  | succ k ih =>
    have hget : is[k]? = some is[k] := List.getElem?_eq_getElem (by omega)
    rw [stateAt_succ hget]
    exact hstep k _ hget (ih (by omega))

/-- Where steps that meet `F` keep `P` just if they meet `G`, a run along `F` keeps `P` just if it is
along `G`. `Q` is what every step keeps. -/
theorem forall_stateAt_iff_along {P Q : σ → Prop} {F : σ → ι → Prop} (hQ : ∀ s i, Q s → Q (step s i))
    (hstep : ∀ s i, Q s → P s → F s i → (P (step s i) ↔ G s i)) (hs : P s) (hs' : Q s) (hF : Along step F s is) :
    (∀ k, P (stateAt step s is k)) ↔ Along step G s is := by
  constructor
  · intro h
    induction is generalizing s with
    | nil => trivial
    | cons i is ih =>
      have hnext : P (step s i) := h 1
      exact ⟨(hstep s i hs' hs hF.1).mp hnext, ih hnext (hQ s i hs') hF.2 fun k => h (k + 1)⟩
  · intro h k
    induction is generalizing s k with
    | nil => simpa [stateAt] using hs
    | cons i is ih =>
      cases k with
      | zero => exact hs
      | succ k => exact ih ((hstep s i hs' hs hF.1).mpr h.1) (hQ s i hs') hF.2 h.2 k

/-! ### The latest sight -/

/-- Of the first `n` steps, the latest one that shows something shows `m`. -/
def Latest {μ : Type*} (step : σ → ι → σ) (see : σ → ι → Option μ) (s : σ) (is : List ι) (n : ℕ) (m : μ) : Prop :=
  ∃ k < n, ∃ i, is[k]? = some i ∧ see (stateAt step s is k) i = some m ∧
    ∀ j, k < j → j < n → ∀ i', is[j]? = some i' → see (stateAt step s is j) i' = none

section Latest
variable {μ : Type*} {see : σ → ι → Option μ} {m : μ}

theorem not_latest_zero : ¬ Latest step see s is 0 m := fun ⟨k, hlt, _⟩ => absurd hlt (Nat.not_lt_zero k)

theorem Latest.of_some (hget : is[k]? = some i) (hsee : see (stateAt step s is k) i = some m) :
    Latest step see s is (k + 1) m :=
  ⟨k, by omega, i, hget, hsee, fun j hj hj' => by omega⟩

theorem Latest.of_none (h : Latest step see s is k m) (hget : is[k]? = some i)
    (hsee : see (stateAt step s is k) i = none) : Latest step see s is (k + 1) m := by
  obtain ⟨k₀, hk₀, i₀, hget₀, hsee₀, hsince⟩ := h
  refine ⟨k₀, by omega, i₀, hget₀, hsee₀, fun j hj hj' i' hget' => ?_⟩
  rcases Nat.lt_succ_iff_lt_or_eq.mp hj' with hj' | rfl
  · exact hsince j hj hj' i' hget'
  · obtain rfl := Option.some.inj (hget.symm.trans hget')
    exact hsee

/-- The latest sight is that of the last step, or the one before it. -/
theorem latest_succ_iff (hget : is[k]? = some i) : Latest step see s is (k + 1) m ↔
    see (stateAt step s is k) i = some m ∨ see (stateAt step s is k) i = none ∧ Latest step see s is k m := by
  constructor
  · rintro ⟨k', hlt, i', hget', hsee', hsince⟩
    obtain hlt | rfl := Nat.lt_succ_iff_lt_or_eq.mp hlt
    · exact .inr ⟨hsince k hlt (Nat.lt_succ_self k) _ hget, k', hlt, i', hget', hsee', fun j hj hj' => hsince j hj (by omega)⟩
    · obtain rfl := Option.some.inj (hget.symm.trans hget')
      exact .inl hsee'
  · rintro (hsee | ⟨hsee, h⟩)
    · exact .of_some hget hsee
    · exact h.of_none hget hsee

/-- A value that a step sets to what it shows, if anything, is what the latest sight shows. -/
theorem eq_iff_latest {f : σ → μ} (hs : f s ≠ m)
    (hstep : ∀ k i, is[k]? = some i →
      f (step (stateAt step s is k) i) = (see (stateAt step s is k) i).getD (f (stateAt step s is k)))
    (hk : k ≤ is.length) : f (stateAt step s is k) = m ↔ Latest step see s is k m := by
  induction k with
  | zero => exact iff_of_false hs not_latest_zero
  | succ k ih =>
    have hget : is[k]? = some is[k] := List.getElem?_eq_getElem (by omega)
    rw [stateAt_succ hget, hstep k _ hget, latest_succ_iff hget, ← ih (by omega)]
    cases see (stateAt step s is k) is[k] <;> simp

end Latest

/-! ### Watching a run -/

variable {μ : Type*}

/-- The machine that carries along an observer: a value updated at every step
from the state before it and the input, and that the machine never reads. -/
def watch (step : σ → ι → σ) (see : μ → σ → ι → μ) (p : σ × μ) (i : ι) : σ × μ :=
  (step p.1 i, see p.2 p.1 i)

variable {see : μ → σ → ι → μ} {m : μ}

@[simp] theorem watch_fst (p : σ × μ) : (watch step see p i).1 = step p.1 i := rfl

@[simp] theorem watch_snd (p : σ × μ) : (watch step see p i).2 = see p.2 p.1 i := rfl

/-- Watching a run does not change it. -/
theorem run_watch_fst (p : σ × μ) : (run (watch step see) p is).1 = run step p.1 is := by
  induction is generalizing p with
  | nil => rfl
  | cons i is ih => rw [run_cons, run_cons, ih, watch_fst]

theorem stateAt_watch_fst (p : σ × μ) :
    (stateAt (watch step see) p is k).1 = stateAt step p.1 is k := run_watch_fst p

end Annotations.Runs
