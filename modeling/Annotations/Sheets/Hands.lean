import Annotations.Sheets.Invariants

/-! Whose lines they are. Every moment belongs to some hand. If a pen that is down is only
seen in the hand that holds it, then every line is of one hand. -/

namespace Annotations.Sheets

variable {κ α : Type} {s t : State κ} {k : Kind} {L : Kind → Prop} {hand : ℕ → α} {Q : ℕ → Prop}

/-- The points of a line were seen at moments in `Q`, all of one hand. -/
def Line.OfOneHand (hand : ℕ → α) (Q : ℕ → Prop) (m : Line) : Prop :=
  (∀ p ∈ m.stamps, Q p) ∧ ∀ p ∈ m.stamps, ∀ q ∈ m.stamps, hand p = hand q

/-- Every line is of one hand, and the one in flight is of the hand that the pen was last
seen in. -/
structure OneHanded (hand : ℕ → α) (Q : ℕ → Prop) (s : State κ) : Prop where
  lines : s.Every (Line.OfOneHand hand Q)
  inFlight : s.Every fun m => s.current = some m.addr → ∀ p ∈ m.stamps, hand p = hand s.last

/-- A pen that is down was last seen in the hand of the present. -/
def Held (hand : ℕ → α) (Q : ℕ → Prop) (s : State κ) : Prop :=
  s.down → Q s.last ∧ hand s.last = hand s.clock

/-- Without a line in flight, only the lines matter. -/
theorem OneHanded.of_ink (h : OneHanded hand Q s) (hink : t.ink = s.ink) (hcur : t.current = none) :
    OneHanded hand Q t :=
  ⟨h.lines.of_ink hink, fun _ _ _ _ _ hcur' => by simp [hcur] at hcur'⟩

theorem OneHanded.lift (h : OneHanded hand Q s) (c : κ) (follow : Bool) : OneHanded hand Q (s.lift c follow) :=
  h.of_ink rfl rfl

theorem held_lift (c : κ) (follow : Bool) : Held hand Q (s.lift c follow) := by simp [Held, State.lift]

variable [DecidableEq κ]

/-- A line that starts where the pen was last seen is of its hand. -/
theorem OneHanded.start (h : OneHanded hand Q s) (hs : WellFormed s) {stamps : List ℕ}
    (hstamps : ∀ p ∈ stamps, Q p ∧ hand p = hand s.last) : OneHanded hand Q (s.start stamps) where
  lines := h.lines.start ⟨fun p hp => (hstamps p hp).1, fun p hp q hq => (hstamps p hp).2.trans (hstamps q hq).2.symm⟩
  inFlight := by
    have hnext : s.Every fun m => some s.next = some m.addr → ∀ p ∈ m.stamps, hand p = hand s.last :=
      fun c lines hlines m hm haddr =>
        absurd (Option.some.inj haddr).symm (hs.distinct.every_ne_next c lines hlines m hm)
    exact hnext.start fun _ p hp => (hstamps p hp).2

/-- Every move keeps the lines of one hand each. -/
theorem Move.oneHanded (hm : Move k s t) (hQ : k = .pen ∨ k = .stray → Q s.clock) (hs : WellFormed s)
    (h : OneHanded hand Q s) (hheld : Held hand Q s) : OneHanded hand Q t ∧ Held hand Q t := by
  cases hm with
  | attach c habsent hroom => exact ⟨⟨h.lines.setInk (by simp), h.inFlight.setInk (by simp)⟩, hheld⟩
  | detach c hanchor hrem => exact ⟨⟨h.lines.setInk (by simp), h.inFlight.setInk (by simp)⟩, hheld⟩
  | press c f hc hlive => exact ⟨h.of_ink rfl rfl, fun _ => ⟨hQ (.inl rfl), rfl⟩⟩
  | dot hdown hcur =>
    have hstart : OneHanded hand Q (s.start [s.last]) := h.start hs (by simp [(hheld hdown).1])
    exact ⟨⟨hstart.lines, hstart.inFlight⟩, hheld⟩
  | line _ hk' a hdown hcur =>
    have hclock : Q s.clock := hQ (hk'.imp And.left id)
    have hpresent := (hheld hdown).2
    refine ⟨⟨?_, ?_⟩, fun _ => ⟨hclock, rfl⟩⟩
    · refine ((h.lines.and h.inFlight).write (fun m hm _ => hm.1) fun m hm haddr => ?_).of_ink rfl
      obtain ⟨⟨hseen, _⟩, hflight⟩ := hm
      have hnow : ∀ p ∈ m.stamps ++ [s.clock], Q p ∧ hand p = hand s.clock := by
        intro p hp
        rcases List.mem_append.mp hp with hp | hp
        · exact ⟨hseen p hp, (hflight (by rw [hcur, haddr]) p hp).trans hpresent⟩
        · rw [List.mem_singleton.mp hp]
          exact ⟨hclock, rfl⟩
      exact ⟨fun p hp => (hnow p hp).1, fun p hp q hq => (hnow p hp).2.trans (hnow q hq).2.symm⟩
    · refine (h.inFlight.write (fun m hm _ hcur' p hp => (hm hcur' p hp).trans hpresent)
        fun m hm haddr _ p hp => ?_).of_ink rfl
      rcases List.mem_append.mp hp with hp | hp
      · exact (hm (by rw [hcur, haddr]) p hp).trans hpresent
      · rw [List.mem_singleton.mp hp]
  | resume _ hk' hdown hcur =>
    have hclock : Q s.clock := hQ (hk'.imp And.left id)
    obtain ⟨hlast, hpresent⟩ := hheld hdown
    have hstart : OneHanded hand Q (s.start [s.last, s.clock]) := h.start hs (by simp [hlast, hclock, hpresent])
    refine ⟨⟨hstart.lines, ?_⟩, fun _ => ⟨hclock, rfl⟩⟩
    exact fun c lines hlines m hm hcur' p hp => (hstart.inFlight c lines hlines m hm hcur' p hp).trans hpresent
  | hover hdown =>
    have hpresent := (hheld hdown).2
    refine ⟨⟨h.lines, ?_⟩, fun _ => ⟨hQ (.inl rfl), rfl⟩⟩
    exact fun c lines hlines m hm hcur' p hp => (h.inFlight c lines hlines m hm hcur' p hp).trans hpresent
  | lift c f hc => exact ⟨h.lift c f, held_lift c f⟩
  | drop => exact ⟨h.of_ink rfl rfl, hheld⟩
  | forget => exact ⟨⟨h.lines, h.inFlight⟩, hheld⟩
  | shrink ink hink hcur => exact ⟨⟨h.lines.shrink hink, h.inFlight.shrink hink⟩, hheld⟩
  | setLive b hb => exact ⟨⟨h.lines, h.inFlight⟩, hheld⟩
  | settle room hroom => exact ⟨⟨h.lines, h.inFlight⟩, hheld⟩
  | halt hdown => exact ⟨⟨h.lines, h.inFlight⟩, hheld⟩

theorem Moves.oneHanded (hp : Moves L s t) (hQ : L .pen ∨ L .stray → Q s.clock) (hs : WellFormed s)
    (h : OneHanded hand Q s) (hheld : Held hand Q s) : OneHanded hand Q t ∧ Held hand Q t := by
  have hinv : (OneHanded hand Q t ∧ Held hand Q t) ∧ t.clock = s.clock ∧ WellFormed t := by
    refine hp.invariant (P := fun u => (OneHanded hand Q u ∧ Held hand Q u) ∧ u.clock = s.clock ∧ WellFormed u)
      (fun k u v hk hm hu => ?_) ⟨⟨h, hheld⟩, rfl, hs⟩
    obtain ⟨⟨hone, hheld'⟩, hclock, hwf⟩ := hu
    refine ⟨hm.oneHanded (fun hpen => ?_) hwf hone hheld', hm.clock_eq.trans hclock, hm.wellFormed hwf⟩
    rw [hclock]
    rcases hpen with rfl | rfl
    · exact hQ (.inl hk)
    · exact hQ (.inr hk)
  exact hinv.1

end Annotations.Sheets
