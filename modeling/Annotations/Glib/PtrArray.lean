import Mathlib

/-! The pointer arrays of GLib, and the loop that walks one from its end by an unsigned index and
removes as it goes. What is removed lies behind the part still to be visited, so the loop filters the
array, keeps the order of what is left and never reads outside. -/

namespace Annotations.Glib

/-- A `GPtrArray`: its length is a `guint`, and its pointers may be NULL. -/
@[ext] structure PtrArray (α : Type) where
  pdata : List (Option α)
  length_lt : pdata.length < 2 ^ 32

namespace PtrArray

variable {α : Type}

/-- The field `len`. -/
def len (array : PtrArray α) : UInt32 := .ofNat array.pdata.length

/-- `g_ptr_array_index`: the pointer, if there is one at the index. -/
def index (array : PtrArray α) (i : UInt32) : Option (Option α) := array.pdata[i.toNat]?

/-- `g_ptr_array_remove_index`: the pointers behind it move down one place. -/
def removeIndex (array : PtrArray α) (i : UInt32) : PtrArray α :=
  ⟨array.pdata.eraseIdx i.toNat, Nat.lt_of_le_of_lt (List.length_eraseIdx_le ..) array.length_lt⟩

/-- `for (i = len; i-- > 0;)`, removing what is hit and counting it, with NULL passed over. A read
outside the array has no result. -/
def sweep (hit : α → Bool) (array : PtrArray α) (i removed : UInt32) : Option (PtrArray α × UInt32) :=
  if i = 0 then some (array, removed)
  else
    match array.index (i - 1) with
    | none => none
    | some none => sweep hit array (i - 1) removed
    | some (some x) =>
      if hit x then sweep hit (array.removeIndex (i - 1)) (i - 1) (removed + 1)
      else sweep hit array (i - 1) removed
termination_by i.toNat
decreasing_by
  all_goals
    have hpos : 0 < i.toNat := Nat.pos_of_ne_zero fun hzero => ‹¬ i = 0› (UInt32.toNat_inj.mp hzero)
    have hone : (1 : UInt32) ≤ i := UInt32.le_iff_toNat_le.mpr hpos
    rw [UInt32.toNat_sub_of_le _ _ hone]
    exact Nat.sub_lt hpos one_pos

variable {hit hit' : α → Bool} {array : PtrArray α}

/-! ### What is left -/

/-- The array without what is hit. -/
def spared (hit : α → Bool) (array : PtrArray α) : PtrArray α :=
  ⟨array.pdata.filter fun x => !x.any hit, Nat.lt_of_le_of_lt (List.length_filter_le ..) array.length_lt⟩

@[simp] theorem spared_pdata : (array.spared hit).pdata = array.pdata.filter fun x => !x.any hit := rfl

/-- How many pointers are hit. -/
def hits (hit : α → Bool) (array : PtrArray α) : ℕ := array.pdata.countP (·.any hit)

theorem length_spared_add_hits (hit : α → Bool) (array : PtrArray α) :
    (array.spared hit).pdata.length + array.hits hit = array.pdata.length := by
  have hsum := List.length_eq_countP_add_countP (fun x : Option α => x.any hit) (l := array.pdata)
  rw [hsum, Nat.add_comm]
  simp [hits, List.countP_eq_length_filter]

theorem hits_lt (hit : α → Bool) (array : PtrArray α) : array.hits hit < 2 ^ 32 := by
  have hsum := length_spared_add_hits hit array
  have hlt := array.length_lt
  omega

/-- Nothing is left to be hit. -/
theorem spared_spared (hit : α → Bool) (array : PtrArray α) :
    (array.spared hit).spared hit = array.spared hit ∧ (array.spared hit).hits hit = 0 := by
  constructor
  · ext1
    simp [List.filter_filter]
  · simp [hits]

theorem spared_comm : (array.spared hit).spared hit' = (array.spared hit').spared hit := by
  ext1
  simp only [spared_pdata, List.filter_filter, Bool.and_comm]

/-! ### The loop -/

/-- At index `i` the loop has dealt with what lies behind: the first `i` pointers are as they were,
and the loop filters them. -/
theorem sweep_append {before after : List (Option α)} (i removed : UInt32) (harray : array.pdata = before ++ after)
    (hi : i.toNat = before.length) (hroom : removed.toNat + before.length < 2 ^ 32) :
    ∃ left count, array.sweep hit i removed = some (left, count) ∧
      left.pdata = (before.filter fun x => !x.any hit) ++ after ∧
      count.toNat = removed.toNat + before.countP (·.any hit) := by
  induction before using List.reverseRecOn generalizing array after i removed with
  | nil =>
    have hzero : i = 0 := UInt32.toNat_inj.mp hi
    refine ⟨array, removed, ?_, by simpa using harray, by simp⟩
    rw [sweep, if_pos hzero]
  | append_singleton before x ih =>
    rw [List.length_append, List.length_singleton] at hi hroom
    have hne : i ≠ 0 := by
      rintro rfl
      simp at hi
    have hone : (1 : UInt32) ≤ i := UInt32.le_iff_toNat_le.mpr (by rw [hi, UInt32.toNat_one]; omega)
    have hlast : (i - 1).toNat = before.length := by
      rw [UInt32.toNat_sub_of_le _ _ hone, hi, UInt32.toNat_one, Nat.add_sub_cancel]
    have hindex : array.index (i - 1) = some x := by
      simp [index, hlast, harray]
    rw [List.append_assoc] at harray
    rw [sweep, if_neg hne, hindex]
    match x with
    | none =>
      obtain ⟨left, count, hsweep, hleft, hcount⟩ := ih _ removed harray hlast (by omega)
      exact ⟨left, count, hsweep, by simpa using hleft, by simpa using hcount⟩
    | some s =>
      dsimp only
      split_ifs with hs
      · have hremoved : (removed + 1).toNat = removed.toNat + 1 := by
          rw [UInt32.toNat_add, UInt32.toNat_one, Nat.mod_eq_of_lt (by omega)]
        have hgone : (array.removeIndex (i - 1)).pdata = before ++ after := by
          simp [removeIndex, hlast, harray, List.eraseIdx_append_of_length_le]
        obtain ⟨left, count, hsweep, hleft, hcount⟩ := ih _ (removed + 1) hgone hlast (by omega)
        refine ⟨left, count, hsweep, ?_, ?_⟩
        · simpa [hs] using hleft
        · rw [hcount, hremoved]
          simp [hs]
          omega
      · obtain ⟨left, count, hsweep, hleft, hcount⟩ := ih _ removed harray hlast (by omega)
        refine ⟨left, count, hsweep, ?_, ?_⟩
        · simpa [hs] using hleft
        · simpa [hs] using hcount

/-- The whole loop. -/
theorem sweep_len (hit : α → Bool) (array : PtrArray α) :
    array.sweep hit array.len 0 = some (array.spared hit, .ofNat (array.hits hit)) := by
  have hlen : array.len.toNat = array.pdata.length := UInt32.toNat_ofNat_of_lt' array.length_lt
  have hwhole : array.pdata = array.pdata ++ [] := (List.append_nil _).symm
  obtain ⟨left, count, hsweep, hleft, hcount⟩ := sweep_append array.len 0 hwhole hlen (by simpa using array.length_lt)
  have hspared : left = array.spared hit := by
    ext1
    rw [hleft, List.append_nil, spared_pdata]
  have hhits : count = .ofNat (array.hits hit) := by
    refine UInt32.toNat_inj.mp (hcount.trans ?_)
    rw [UInt32.toNat_ofNat_of_lt' (hits_lt hit array), hits]
    simp
  rw [hsweep, hspared, hhits]

end PtrArray

end Annotations.Glib
