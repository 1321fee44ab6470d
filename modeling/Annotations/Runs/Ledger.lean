import Mathlib

/-! The callbacks that a main loop or a signal may still run. Each is known by the id it was
given, and the program keeps that id in a field, where `0` stands for none. The books are
kept if every callback is the one that its field holds, and every id in a field is alive. -/

namespace Annotations.Runs

/-- The callbacks `κ` that are connected, and the fields `ν` with their ids. -/
structure IdLedger (κ ν : Type*) where
  next : ℕ
  live : List (ℕ × κ)
  ids : ν → ℕ

namespace IdLedger

variable {κ ν : Type*}

def empty : IdLedger κ ν := ⟨1, [], fun _ => 0⟩

variable (l : IdLedger κ ν)

/-- The callback of an id. -/
def callback (id : ℕ) : Option κ := (l.live.find? fun e => e.1 = id).map Prod.snd

section Fields
variable [DecidableEq ν]

/-- Connect a callback, and keep its id in a field. -/
def connect (n : ν) (k : κ) : IdLedger κ ν := ⟨l.next + 1, (l.next, k) :: l.live, Function.update l.ids n l.next⟩

/-- Disconnect the callback of an id, and empty a field. -/
def finish (n : ν) (id : ℕ) : IdLedger κ ν := ⟨l.next, l.live.filter fun e => e.1 ≠ id, Function.update l.ids n 0⟩

/-- Disconnect the callback of a field, if it holds one, and empty the field. -/
def release (n : ν) : IdLedger κ ν := l.finish n (l.ids n)

/-- Empty a field, as its owner is made anew. -/
def reset (n : ν) : IdLedger κ ν := { l with ids := Function.update l.ids n 0 }

end Fields

variable {l} {k : κ} {id : ℕ}

theorem mem_of_callback (h : l.callback id = some k) : (id, k) ∈ l.live := by
  obtain ⟨e, hfind, rfl⟩ := Option.map_eq_some_iff.mp h
  have hid : e.1 = id := by simpa using List.find?_some hfind
  exact hid ▸ List.mem_of_find?_eq_some hfind

/-! ### Keeping books -/

/-- The callback `k` goes by the field `name k`. -/
structure Kept (name : κ → ν) (l : IdLedger κ ν) : Prop where
  owned : ∀ e ∈ l.live, l.ids (name e.2) = e.1
  alive : ∀ n, l.ids n ≠ 0 → ∃ e ∈ l.live, e.1 = l.ids n ∧ name e.2 = n
  positive : ∀ e ∈ l.live, 0 < e.1
  fresh : ∀ e ∈ l.live, e.1 < l.next
  next_pos : 0 < l.next
  nodup : (l.live.map Prod.fst).Nodup

variable {name : κ → ν} {n : ν}

theorem kept_empty : Kept name (empty : IdLedger κ ν) where
  owned := by simp [empty]
  alive n hn := absurd rfl hn
  positive := by simp [empty]
  fresh := by simp [empty]
  next_pos := Nat.one_pos
  nodup := List.nodup_nil

/-- The field of a callback is not empty. -/
theorem Kept.ids_ne_zero (h : Kept name l) (hmem : (id, k) ∈ l.live) : l.ids (name k) ≠ 0 := by
  rw [h.owned _ hmem]
  exact (h.positive _ hmem).ne'

/-- With nothing in the fields, nothing is left. -/
theorem Kept.live_eq_nil (h : Kept name l) (hnone : ∀ n, l.ids n = 0) : l.live = [] := by
  exact List.eq_nil_iff_forall_not_mem.mpr fun e he => h.ids_ne_zero he (hnone _)

/-- There is one callback of an id. -/
theorem Kept.entry_unique (h : Kept name l) {e e' : ℕ × κ} (he : e ∈ l.live) (he' : e' ∈ l.live)
    (hid : e.1 = e'.1) : e = e' := List.inj_on_of_nodup_map h.nodup he he' hid

/-- There is one callback of a name. -/
theorem Kept.name_unique (h : Kept name l) {e e' : ℕ × κ} (he : e ∈ l.live) (he' : e' ∈ l.live)
    (hname : name e.2 = name e'.2) : e = e' :=
  h.entry_unique he he' (by rw [← h.owned e he, ← h.owned e' he', hname])

/-- A callback that runs is the one its field holds. -/
theorem Kept.ids_of_callback (h : Kept name l) (hk : l.callback id = some k) : l.ids (name k) = id :=
  h.owned _ (mem_of_callback hk)

variable [DecidableEq ν]

@[simp] theorem ids_connect (m : ν) : (l.connect n k).ids m = if m = n then l.next else l.ids m :=
  Function.update_apply ..

@[simp] theorem ids_release (m : ν) : (l.release n).ids m = if m = n then 0 else l.ids m :=
  Function.update_apply ..

@[simp] theorem ids_reset (m : ν) : (l.reset n).ids m = if m = n then 0 else l.ids m := Function.update_apply ..

/-- An empty field takes the id of a new callback. -/
theorem Kept.connect (h : Kept name l) (hname : name k = n) (hfree : l.ids n = 0) : Kept name (l.connect n k) where
  owned e he := by
    rw [ids_connect]
    rcases List.mem_cons.mp he with rfl | he
    · rw [if_pos hname]
    · have hpos := h.positive e he
      have hne : name e.2 ≠ n := fun hn => by
        rw [← h.owned e he, hn, hfree] at hpos
        exact absurd hpos (lt_irrefl 0)
      rw [if_neg hne, h.owned e he]
  alive m hm := by
    rw [ids_connect] at hm ⊢
    split_ifs at hm ⊢ with hmn
    · exact ⟨(l.next, k), List.mem_cons_self, rfl, hname.trans hmn.symm⟩
    · obtain ⟨e, he, hid⟩ := h.alive m hm
      exact ⟨e, List.mem_cons_of_mem _ he, hid⟩
  positive e he := by
    rcases List.mem_cons.mp he with rfl | he
    · exact h.next_pos
    · exact h.positive e he
  fresh e he := by
    rcases List.mem_cons.mp he with rfl | he
    · exact Nat.lt_succ_self _
    · exact (h.fresh e he).trans (Nat.lt_succ_self _)
  next_pos := Nat.succ_pos _
  nodup := by
    refine List.nodup_cons.mpr ⟨fun hmem => ?_, h.nodup⟩
    obtain ⟨e, he, hid⟩ := List.mem_map.mp hmem
    have hlt := h.fresh e he
    omega

theorem mem_release {e : ℕ × κ} : e ∈ (l.release n).live ↔ e ∈ l.live ∧ e.1 ≠ l.ids n := by
  simp [release, finish, List.mem_filter]

theorem Kept.release (h : Kept name l) (n : ν) : Kept name (l.release n) where
  owned e he := by
    obtain ⟨he, hid⟩ := mem_release.mp he
    have hne : name e.2 ≠ n := fun hn => hid (by rw [← h.owned e he, hn])
    rw [ids_release, if_neg hne, h.owned e he]
  alive m hm := by
    rw [ids_release] at hm ⊢
    split_ifs at hm ⊢ with hmn
    · exact absurd rfl hm
    · obtain ⟨e, he, hid, hname⟩ := h.alive m hm
      refine ⟨e, mem_release.mpr ⟨he, fun hsame => hmn ?_⟩, hid, hname⟩
      -- the two fields would hold one id, and one callback has one name
      have hn : l.ids n ≠ 0 := fun hzero => hm (by rw [← hid, hsame, hzero])
      obtain ⟨e', he', hid', hname'⟩ := h.alive n hn
      rw [← hname, ← hname', h.entry_unique he he' (hsame.trans hid'.symm)]
  positive e he := h.positive e (mem_release.mp he).1
  fresh e he := h.fresh e (mem_release.mp he).1
  next_pos := h.next_pos
  nodup := h.nodup.sublist (List.filter_sublist.map Prod.fst)

/-- A callback that runs and is not to run again is released. -/
theorem Kept.finish (h : Kept name l) (hk : l.callback id = some k) (hname : name k = n) :
    Kept name (l.finish n id) := by
  have hid : l.ids n = id := hname ▸ h.ids_of_callback hk
  have hrelease := h.release n
  rwa [IdLedger.release, hid] at hrelease

/-- A field that is empty already may be made anew. -/
theorem Kept.reset (h : Kept name l) (hfree : l.ids n = 0) : Kept name (l.reset n) := by
  have hsame : l.reset n = l := by
    unfold IdLedger.reset
    rw [← hfree, Function.update_eq_self]
  rwa [hsame]

/-- A callback takes over the field of another one. -/
theorem Kept.replace (h : Kept name l) (hname : name k = n) : Kept name ((l.release n).connect n k) :=
  (h.release n).connect hname (by rw [ids_release, if_pos rfl])

end IdLedger

end Annotations.Runs
