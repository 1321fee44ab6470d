import Mathlib

/-! Messages that are sent in order and read in order. A reader refuses what it reads
until it is ready, and has heard all the rest. A register is a value that some of the
messages overwrite. -/

namespace Annotations.Runs

variable {μ α : Type*}

/-- The value that is written last, if any. -/
def lastWrite (write : μ → Option α) (ms : List μ) : Option α := (ms.filterMap write).getLast?

/-- The value of a register after some messages, the last write of which counts. -/
def register (write : μ → Option α) (init : α) (ms : List μ) : α := (ms.filterMap write).getLast?.getD init

variable {write : μ → Option α} {init a : α} {ms post : List μ} {m : μ}

/-! ### The last write -/

@[simp] theorem lastWrite_nil : lastWrite write [] = none := rfl

theorem lastWrite_append : lastWrite write (ms ++ post) = (lastWrite write post).or (lastWrite write ms) := by
  unfold lastWrite
  rw [List.filterMap_append, List.getLast?_append]

theorem lastWrite_singleton : lastWrite write [m] = write m := by
  unfold lastWrite
  cases hm : write m <;> simp [hm]

theorem lastWrite_cons : lastWrite write (m :: ms) = (lastWrite write ms).or (write m) := by
  rw [← List.singleton_append, lastWrite_append, lastWrite_singleton]

theorem lastWrite_eq_none : lastWrite write ms = none ↔ ∀ m ∈ ms, write m = none := by
  rw [lastWrite, List.getLast?_eq_none_iff, List.filterMap_eq_nil_iff]

theorem exists_of_lastWrite (h : lastWrite write ms = some a) : ∃ m ∈ ms, write m = some a :=
  List.mem_filterMap.mp (List.mem_of_getLast? h)

theorem lastWrite_map {β : Type*} (f : α → β) :
    lastWrite (fun m => (write m).map f) ms = (lastWrite write ms).map f := by
  unfold lastWrite
  rw [← List.getLast?_map, List.map_filterMap]

/-- What a suffix writes last is what the whole writes last. -/
theorem lastWrite_of_drop {n : ℕ} (h : lastWrite write (ms.drop n) = some a) : lastWrite write ms = some a := by
  rw [← List.take_append_drop n ms, lastWrite_append, h, Option.some_or]

/-- The last write is in every suffix that has a write at all. -/
theorem lastWrite_drop {n : ℕ} (h : lastWrite write ms = some a) (hsome : lastWrite write (ms.drop n) ≠ none) :
    lastWrite write (ms.drop n) = some a := by
  obtain ⟨b, hb⟩ := Option.ne_none_iff_exists'.mp hsome
  rw [hb, ← lastWrite_of_drop hb, h]

/-! ### Registers -/

theorem register_eq_lastWrite : register write init ms = (lastWrite write ms).getD init := rfl

@[simp] theorem register_nil : register write init [] = init := rfl

theorem register_concat : register write init (ms ++ [m]) = (write m).getD (register write init ms) := by
  rw [register_eq_lastWrite, lastWrite_append, lastWrite_singleton]
  cases write m <;> rfl

/-- Messages that do not write change nothing. -/
theorem register_append (h : ∀ m ∈ post, write m = none) : register write init (ms ++ post) = register write init ms := by
  rw [register_eq_lastWrite, lastWrite_append, lastWrite_eq_none.mpr h, Option.none_or, register_eq_lastWrite]

/-- Messages that write the initial value at most keep it. -/
theorem register_append_init (h : register write init ms = init)
    (hpost : ∀ m ∈ post, write m = none ∨ write m = some init) : register write init (ms ++ post) = init := by
  rw [register_eq_lastWrite, lastWrite_append]
  cases hlast : lastWrite write post with
  | none => exact h
  | some a =>
    obtain ⟨m, hm, hwrite⟩ := exists_of_lastWrite hlast
    rcases hpost m hm with hnone | hinit
    · exact absurd (hnone.symm.trans hwrite) (by simp)
    · exact Option.some.inj (hwrite.symm.trans hinit)

/-- A register that is back to its initial value stays so when the first messages are
refused. -/
theorem register_drop (h : register write init ms = init) (n : ℕ) : register write init (ms.drop n) = init := by
  rw [register_eq_lastWrite] at h ⊢
  cases hlast : lastWrite write (ms.drop n) with
  | none => rfl
  | some a =>
    rwa [lastWrite_of_drop hlast] at h

/-! ### Readers -/

/-- How far a reader has come. What it reads while it is not ready is refused. -/
structure Reader where
  ready : Bool
  delivered : ℕ
  refused : ℕ

namespace Reader

variable (r : Reader)

def new : Reader := ⟨false, 0, 0⟩

def deliver : Reader := ⟨r.ready, r.delivered + 1, if r.ready then r.refused else r.delivered + 1⟩

/-- What the reader has heard of the messages sent. -/
def heard (sent : List μ) : List μ := (sent.take r.delivered).drop r.refused

/-- The reader has read at most what was sent, and refused all of it if not ready. -/
structure Within (sent : List μ) : Prop where
  delivered : r.delivered ≤ sent.length
  refused : r.refused ≤ r.delivered
  unready : r.ready = false → r.refused = r.delivered

variable {r} {sent : List μ}

theorem within_new : new.Within sent := ⟨Nat.zero_le _, le_rfl, fun _ => rfl⟩

theorem Within.append (h : r.Within sent) : r.Within (sent ++ post) :=
  ⟨h.delivered.trans (by rw [List.length_append]; omega), h.refused, h.unready⟩

theorem Within.deliver (h : r.Within sent) (hmore : r.delivered < sent.length) : r.deliver.Within sent := by
  refine ⟨hmore, ?_, fun hready => ?_⟩
  · have hrefused := h.refused
    simp only [Reader.deliver]
    split_ifs <;> omega
  · have hready' : r.ready = false := hready
    simp [Reader.deliver, hready']

theorem heard_append (h : r.Within sent) : r.heard (sent ++ post) = r.heard sent := by
  unfold heard
  rw [List.take_append_of_le_length h.delivered]

theorem heard_deliver (h : r.Within sent) (hget : sent[r.delivered]? = some m) :
    r.deliver.heard sent = if r.ready then r.heard sent ++ [m] else [] := by
  have htake : sent.take (r.delivered + 1) = sent.take r.delivered ++ [m] := by
    rw [List.take_add_one, hget, Option.toList_some]
  have hlength : (sent.take r.delivered).length = r.delivered := List.length_take_of_le h.delivered
  unfold heard Reader.deliver
  dsimp only
  split_ifs
  · rw [htake, List.drop_append_of_le_length (hlength.symm ▸ h.refused)]
  · exact List.drop_eq_nil_of_le (by rw [htake, List.length_append, hlength]; exact le_rfl)

/-- Before it is ready the reader has heard nothing. -/
theorem heard_unready (h : r.Within sent) (hready : r.ready = false) : r.heard sent = [] := by
  unfold heard
  rw [h.unready hready]
  exact List.drop_eq_nil_of_le (List.length_take_le _ _)

/-- Once all is delivered, only what was refused has not been heard. -/
theorem heard_all (hall : r.delivered = sent.length) : r.heard sent = sent.drop r.refused := by
  rw [heard, hall, List.take_length]

end Reader

end Annotations.Runs
