import Annotations.Runs.Mailbox

/-! A copy that follows messages. The sender writes a value by messages, and the receiver takes them in the order
of sending. What the receiver holds may be behind, but not what it will hold once the messages have arrived. -/

namespace Annotations.Runs

variable {μ α : Type*}

/-- The receiver holds the value, or will when the messages have arrived. -/
def Mirrors (write : μ → Option α) (ms : List μ) (held : Option α) (a : α) : Prop :=
  lastWrite write ms = some a ∨ lastWrite write ms = none ∧ held = some a

variable {write : μ → Option α} {ms post : List μ} {m : μ} {held held' : Option α} {a : α}

/-- More messages are sent, and write the value or leave it. -/
theorem Mirrors.send (h : lastWrite write post = some a ∨ lastWrite write post = none ∧ Mirrors write ms held a) :
    Mirrors write (ms ++ post) held a := by
  unfold Mirrors
  rw [lastWrite_append]
  rcases h with hsome | ⟨hnone, h⟩
  · exact .inl (by rw [hsome, Option.some_or])
  · rwa [hnone, Option.none_or]

/-- The first message arrives. -/
theorem Mirrors.receive (h : Mirrors write (m :: ms) held a) (hwrite : write m = some a → held' = some a)
    (hkeep : write m = none → held = some a → held' = some a) : Mirrors write ms held' a := by
  unfold Mirrors at h ⊢
  rw [lastWrite_cons] at h
  cases hrest : lastWrite write ms with
  | some b =>
    rw [hrest, Option.some_or] at h
    exact .inl (h.resolve_right fun hnone => absurd hnone.1 (by simp))
  | none =>
    rw [hrest, Option.none_or] at h
    rcases h with hsome | ⟨hnone, hheld⟩
    · exact .inr ⟨rfl, hwrite hsome⟩
    · exact .inr ⟨rfl, hkeep hnone hheld⟩

/-- The receiver is changed otherwise. -/
theorem Mirrors.keep (h : Mirrors write ms held a) (hkeep : held = some a → held' = some a) :
    Mirrors write ms held' a := h.imp_right fun hheld => ⟨hheld.1, hkeep hheld.2⟩

/-- When all messages have arrived, the receiver holds the value. -/
theorem Mirrors.settled (h : Mirrors write [] held a) : held = some a :=
  (h.resolve_left (by simp)).2

end Annotations.Runs
