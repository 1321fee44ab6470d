import Annotations.Runs.Basic

/-! Two runs of one machine, the second with only some of the inputs of the first. What is
observed after these inputs is compared. -/

namespace Annotations.Runs

variable {σ ι ο : Type*} {step : σ → ι → σ} {keep : ι → Bool} {obs : σ → ο}

/-- What is observed after each of the inputs that are kept. -/
def observed (step : σ → ι → σ) (keep : ι → Bool) (obs : σ → ο) : σ → List ι → List ο
  | _, [] => []
  | s, i :: is => if keep i then obs (step s i) :: observed step keep obs (step s i) is
      else observed step keep obs (step s i) is

variable {s t : σ} {i : ι} {is : List ι}

theorem observed_cons_of_keep (h : keep i = true) :
    observed step keep obs s (i :: is) = obs (step s i) :: observed step keep obs (step s i) is := if_pos h

theorem observed_cons_of_drop (h : keep i = false) :
    observed step keep obs s (i :: is) = observed step keep obs (step s i) is :=
  if_neg (by rw [h]; exact Bool.false_ne_true)

/-- The other inputs go unnoticed exactly when every input that is kept is faithful, if
these others keep the two states related, a faithful input keeps them related, and it is
the faithful ones that show the same in related states. -/
theorem observed_filter_iff {R : σ → σ → Prop} {F : σ → ι → Prop}
    (hdrop : ∀ i ∈ is, keep i = false → ∀ s t, R s t → R (step s i) t)
    (hobs : ∀ i ∈ is, keep i = true → ∀ s t, R s t → (obs (step s i) = obs (step t i) ↔ F s i))
    (hkeep : ∀ i ∈ is, keep i = true → ∀ s t, R s t → F s i → R (step s i) (step t i)) (hst : R s t) :
    observed step keep obs s is = observed step keep obs t (is.filter keep) ↔
      Along step (fun s i => keep i = true → F s i) s is := by
  induction is generalizing s t with
  | nil => exact ⟨fun _ => trivial, fun _ => rfl⟩
  | cons i is ih =>
    have ih' : ∀ {s t}, R s t → (observed step keep obs s is = observed step keep obs t (is.filter keep) ↔
        Along step (fun s i => keep i = true → F s i) s is) :=
      ih (fun j hj => hdrop j (List.mem_cons_of_mem i hj)) (fun j hj => hobs j (List.mem_cons_of_mem i hj))
        fun j hj => hkeep j (List.mem_cons_of_mem i hj)
    rw [along_cons]
    cases hi : keep i with
    | false =>
      rw [observed_cons_of_drop hi, List.filter_cons_of_neg (by rw [hi]; exact Bool.false_ne_true),
        ih' (hdrop i List.mem_cons_self hi s t hst)]
      exact ⟨fun h => ⟨nofun, h⟩, fun h => h.2⟩
    | true =>
      have hshown := hobs i List.mem_cons_self hi s t hst
      have hrelated := hkeep i List.mem_cons_self hi s t hst
      rw [List.filter_cons_of_pos hi, observed_cons_of_keep hi, observed_cons_of_keep hi, List.cons_eq_cons]
      constructor
      · rintro ⟨hhead, htail⟩
        have hfaithful := hshown.mp hhead
        exact ⟨fun _ => hfaithful, (ih' (hrelated hfaithful)).mp htail⟩
      · rintro ⟨hfaithful, htail⟩
        have hfaithful := hfaithful rfl
        exact ⟨hshown.mpr hfaithful, (ih' (hrelated hfaithful)).mpr htail⟩

end Annotations.Runs
