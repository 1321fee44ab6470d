import Annotations.Sheets.Protocol

/-! What all moves keep: the line in flight is the last line of the anchor sheet
(`WellFormed`); and what the moves of some kinds keep: consecutive points of a line
were joined without a break (`Continuous`), and the remembered sheet is the one that
last received a point (`Newest`). -/

namespace Annotations.Sheets

variable {κ : Type} {s t : State κ} {k : Kind} {L : Kind → Prop}

/-! ### The line in flight -/

/-- The address of the line in flight is that of the last line of the anchor sheet,
in the coordinate space of the pen. -/
structure WellFormed (s : State κ) : Prop where
  roomy : ∀ c, (s.ink c).isSome → c ∈ s.room
  anchored : (s.ink s.anchor).isSome
  recalled : ∀ c, s.remembered = some c → (s.ink c).isSome
  distinct : Distinct s.ink s.next
  inFlight : ∀ a, s.current = some a → s.down ∧
    ∃ lines m, s.ink s.anchor = some (lines ++ [m]) ∧ m.addr = a ∧ m.follow = s.follow

theorem WellFormed.clearCurrent (h : WellFormed s) : WellFormed { s with current := none } where
  roomy := h.roomy
  anchored := h.anchored
  recalled := h.recalled
  distinct := h.distinct
  inFlight := by simp

theorem WellFormed.write (h : WellFormed s) (a p : ℕ) : WellFormed (s.write a p) where
  roomy c hc := h.roomy c (by simpa [State.write] using hc)
  anchored := by simpa [State.write] using h.anchored
  recalled c hc := by simpa [State.write] using h.recalled c hc
  distinct := h.distinct.shrink fun c => by rw [addrs_write]
  inFlight b hb := by
    obtain ⟨hdown, lines, m, hlines, haddr, hfollow⟩ := h.inFlight b hb
    have hwrite := congrArg (Option.map (List.map fun m : Line =>
      if m.addr = a then { m with stamps := m.stamps ++ [p] } else m)) hlines
    rw [Option.map_some, List.map_append, List.map_singleton] at hwrite
    refine ⟨hdown, _, _, hwrite, ?_, ?_⟩
    · split_ifs <;> exact haddr
    · split_ifs <;> exact hfollow

variable [DecidableEq κ]

theorem isSome_update (ink : κ → Option (List Line)) (c c' : κ) (lines : List Line)
    (h : (ink c').isSome) : (Function.update ink c (some lines) c').isSome := by
  by_cases hc : c' = c
  · simp [hc]
  · simpa [hc] using h

/-- Emptying or removing one sheet keeps addresses distinct. -/
theorem Distinct.setInk (h : Distinct s.ink s.next) {c : κ} {lines : Option (List Line)}
    (hlines : lines.getD [] = []) : Distinct (s.setInk c lines).ink s.next := by
  refine h.shrink fun c' => ?_
  rw [State.setInk, addrs_update, hlines]
  split_ifs
  · exact List.nil_sublist _
  · exact List.Sublist.refl _

theorem isSome_start (hc : (s.ink s.anchor).isSome) (stamps : List ℕ) (c : κ)
    (h : (s.ink c).isSome) : ((s.start stamps).ink c).isSome := by
  obtain ⟨lines, hlines⟩ := Option.isSome_iff_exists.mp hc
  rw [State.start, hlines, Option.map_some]
  exact isSome_update _ _ _ _ h

/-- A line that is started is in flight. -/
theorem WellFormed.start (h : WellFormed s) (hdown : s.down) (stamps : List ℕ) :
    WellFormed (s.start stamps) where
  roomy c hc := by
    by_cases hcanchor : c = s.anchor
    · rw [hcanchor]
      exact h.roomy _ h.anchored
    · exact h.roomy c (by simpa [State.start, hcanchor] using hc)
  anchored := isSome_start h.anchored _ _ h.anchored
  recalled c hc := isSome_start h.anchored _ c (h.recalled c hc)
  distinct := h.distinct.start h.anchored stamps
  inFlight a ha := by
    obtain ⟨lines, hlines⟩ := Option.isSome_iff_exists.mp h.anchored
    refine ⟨hdown, lines, ⟨s.next, s.follow, stamps⟩, ?_, ?_, rfl⟩
    · simp [State.start, hlines]
    · simpa [State.start] using ha

/-- Every move keeps the state well formed. -/
theorem Move.wellFormed (hm : Move k s t) (h : WellFormed s) : WellFormed t := by
  cases hm with
  | attach c habsent hroom =>
    have hc : s.anchor ≠ c := by
      rintro rfl
      have hanchored := h.anchored
      simp [habsent] at hanchored
    refine ⟨fun c' hc' => ?_, isSome_update _ _ _ _ h.anchored,
      fun c' hc' => isSome_update _ _ _ _ (h.recalled c' hc'), h.distinct.setInk rfl, fun a ha => ?_⟩
    · by_cases hc : c' = c
      · rwa [hc]
      · exact h.roomy c' (by simpa [State.setInk, hc] using hc')
    · simpa [State.setInk, hc] using h.inFlight a ha
  | detach c hanchor hrem =>
    refine ⟨fun c' hc' => ?_, ?_, fun c' hc' => ?_, h.distinct.setInk rfl, fun a ha => ?_⟩
    · by_cases hc : c' = c
      · simp [State.setInk, hc] at hc'
      · exact h.roomy c' (by simpa [State.setInk, hc] using hc')
    · simpa [State.setInk, hanchor.symm] using h.anchored
    · obtain hne : c' ≠ c := by
        rintro rfl
        exact hrem hc'
      simpa [State.setInk, hne] using h.recalled c' hc'
    · simpa [State.setInk, hanchor.symm] using h.inFlight a ha
  | press c f hc hlive => exact ⟨h.roomy, hc, h.recalled, h.distinct, by simp⟩
  | dot hdown hcur =>
    have hstart := h.start hdown [s.last]
    refine ⟨hstart.roomy, hstart.anchored, fun c hc => ?_, hstart.distinct, hstart.inFlight⟩
    obtain rfl : s.anchor = c := by simpa using hc
    exact hstart.anchored
  | line _ hk a hdown hcur =>
    have hwrite := h.write a s.clock
    exact ⟨hwrite.roomy, hwrite.anchored, hwrite.recalled, hwrite.distinct, hwrite.inFlight⟩
  | resume _ hk hdown hcur =>
    have hstart := h.start hdown [s.last, s.clock]
    exact ⟨hstart.roomy, hstart.anchored, hstart.recalled, hstart.distinct, hstart.inFlight⟩
  | hover hdown => exact ⟨h.roomy, h.anchored, h.recalled, h.distinct, h.inFlight⟩
  | lift c f hc => exact ⟨h.roomy, hc, h.recalled, h.distinct, by simp [State.lift]⟩
  | drop => exact h.clearCurrent
  | forget => exact ⟨h.roomy, h.anchored, by simp, h.distinct, h.inFlight⟩
  | shrink ink hink hcur =>
    refine ⟨fun c hc => h.roomy c ((hink c).1.mp hc), (hink _).1.mpr h.anchored,
      fun c hc => (hink c).1.mpr (h.recalled c hc), h.distinct.shrink fun c => (hink c).2.map _,
      fun a ha => ?_⟩
    rcases hcur with hcur | hcur
    · exact absurd (hcur.symm.trans ha) (by simp)
    · obtain ⟨hdown, lines, m, hlines, hm⟩ := h.inFlight a ha
      exact ⟨hdown, lines, m, hcur.trans hlines, hm⟩
  | setLive b hb => exact ⟨h.roomy, h.anchored, h.recalled, h.distinct, h.inFlight⟩
  | settle room hroom => exact ⟨hroom, h.anchored, h.recalled, h.distinct, h.inFlight⟩
  | halt hdown => exact ⟨h.roomy, h.anchored, h.recalled, h.distinct, h.inFlight⟩

theorem Moves.wellFormed (hp : Moves L s t) (h : WellFormed s) : WellFormed t :=
  hp.invariant (fun _ _ _ _ hm => hm.wellFormed) h

/-! ### Continuity -/

/-- All lines on all sheets have the property. -/
def State.Every (P : Line → Prop) (s : State κ) : Prop :=
  ∀ c lines, s.ink c = some lines → ∀ m ∈ lines, P m

/-- The points of a line were seen at moments in `Q`, consecutive ones related by `R`. -/
def Line.Joined (Q : ℕ → Prop) (R : ℕ → ℕ → Prop) (m : Line) : Prop :=
  (∀ p ∈ m.stamps, Q p) ∧ m.stamps.IsChain R

/-- All lines are joined, the one in flight can be joined to the present, and a pen that
is down is live and has been in `R` since its latest position. -/
structure Continuous (Q : ℕ → Prop) (R : ℕ → ℕ → Prop) (s : State κ) : Prop where
  joined : s.Every (Line.Joined Q R)
  ending : s.Every fun m => s.current = some m.addr → ∀ p ∈ m.stamps.getLast?, R p s.clock
  ongoing : s.down → s.live ∧ Q s.last ∧ R s.last s.clock

variable {P : Line → Prop} {Q : ℕ → Prop} {R : ℕ → ℕ → Prop}

omit [DecidableEq κ] in
theorem State.Every.of_ink (h : s.Every P) (hink : t.ink = s.ink) : t.Every P := by
  intro c lines hlines
  exact h c lines (by rwa [← hink])

theorem State.Every.setInk (h : s.Every P) {c : κ} {lines : Option (List Line)}
    (hlines : ∀ m ∈ lines.getD [], P m) : (s.setInk c lines).Every P := by
  intro c' lines' hlines' m hm
  by_cases hc : c' = c
  · subst hc
    obtain rfl : lines = some lines' := by simpa [State.setInk] using hlines'
    exact hlines m hm
  · exact h c' lines' (by simpa [State.setInk, hc] using hlines') m hm

theorem State.Every.start (h : s.Every P) {stamps : List ℕ} (hnew : P ⟨s.next, s.follow, stamps⟩) :
    (s.start stamps).Every P := by
  refine h.setInk fun m hm => ?_
  cases hlines : s.ink s.anchor with
  | none => simp [hlines] at hm
  | some lines =>
    rw [hlines, Option.map_some, Option.getD_some, List.mem_append, List.mem_singleton] at hm
    rcases hm with hm | rfl
    · exact h _ _ hlines m hm
    · exact hnew

omit [DecidableEq κ] in
theorem State.Every.write {P' : Line → Prop} (h : s.Every P) {a p : ℕ}
    (hold : ∀ m, P m → m.addr ≠ a → P' m)
    (hnew : ∀ m, P m → m.addr = a → P' { m with stamps := m.stamps ++ [p] }) :
    (s.write a p).Every P' := by
  intro c lines hlines m hm
  obtain ⟨lines', hlines', rfl⟩ := Option.map_eq_some_iff.mp hlines
  obtain ⟨m', hm', rfl⟩ := List.mem_map.mp hm
  split_ifs with haddr
  · exact hnew m' (h c lines' hlines' m' hm') haddr
  · exact hold m' (h c lines' hlines' m' hm') haddr

omit [DecidableEq κ] in
theorem State.Every.and {P' : Line → Prop} (h : s.Every P) (h' : s.Every P') :
    s.Every fun m => P m ∧ P' m :=
  fun c lines hlines m hm => ⟨h c lines hlines m hm, h' c lines hlines m hm⟩

omit [DecidableEq κ] in
/-- Old lines are not at the next address. -/
theorem Distinct.every_ne_next (h : Distinct s.ink s.next) : s.Every fun m => m.addr ≠ s.next := by
  intro c lines hlines m hm
  have hlt := h.fresh c _ (mem_addrs hlines hm)
  omega

omit [DecidableEq κ] in
theorem State.Every.shrink (h : s.Every P) {ink : κ → Option (List Line)} (hink : Shrinks s.ink ink) :
    ({ s with ink := ink } : State κ).Every P := by
  intro c lines hlines m hm
  have hm' : m ∈ (s.ink c).getD [] := (hink c).2.subset (by
    rw [show ink c = some lines from hlines]
    exact hm)
  cases hold : s.ink c with
  | none => simp [hold] at hm'
  | some lines' => exact h c lines' hold m (by simpa [hold] using hm')

/-- The points that start a line are joined to each other and to the present. -/
theorem Continuous.start (h : Continuous Q R s) (hs : WellFormed s) {stamps : List ℕ}
    (hjoined : Line.Joined Q R ⟨s.next, s.follow, stamps⟩)
    (hlast : ∀ p ∈ stamps.getLast?, R p s.clock) : Continuous Q R (s.start stamps) where
  joined := h.joined.start hjoined
  ending := by
    have hnext : s.Every fun m => some s.next = some m.addr → ∀ p ∈ m.stamps.getLast?, R p s.clock :=
      fun c lines hlines m hm haddr =>
        absurd (Option.some.inj haddr).symm (hs.distinct.every_ne_next c lines hlines m hm)
    exact hnext.start fun _ => hlast
  ongoing := h.ongoing

/-- Every move but a halt keeps the lines joined, where the pen is seen at moments in
`Q` and `R` holds of a moment and itself. -/
theorem Move.continuous (hm : Move k s t) (hk : k ≠ .halt)
    (hQ : k = .pen ∨ k = .stray → Q s.clock) (hR : ∀ n, R n n) (hs : WellFormed s)
    (h : Continuous Q R s) : Continuous Q R t := by
  cases hm with
  | attach c habsent hroom => exact ⟨h.joined.setInk (by simp), h.ending.setInk (by simp), h.ongoing⟩
  | detach c hanchor hrem => exact ⟨h.joined.setInk (by simp), h.ending.setInk (by simp), h.ongoing⟩
  | press c f hc hlive =>
    exact ⟨h.joined, fun _ _ _ _ _ hcur => by simp at hcur, fun _ => ⟨hlive, hQ (.inl rfl), hR _⟩⟩
  | dot hdown hcur =>
    obtain ⟨hlive, hlast, hclock⟩ := h.ongoing hdown
    have hjoined : Line.Joined Q R ⟨s.next, s.follow, [s.last]⟩ := by simp [Line.Joined, hlast]
    have hstart := h.start hs hjoined (by simpa)
    exact ⟨hstart.joined, hstart.ending, hstart.ongoing⟩
  | line _ hk' a hdown hcur =>
    have hQclock : Q s.clock := hQ (hk'.imp And.left id)
    obtain ⟨hlive, _, _⟩ := h.ongoing hdown
    refine ⟨?_, ?_, fun _ => ⟨hlive, hQclock, hR _⟩⟩
    · refine ((h.joined.and h.ending).write (fun m hm _ => hm.1) fun m hm haddr => ?_).of_ink rfl
      obtain ⟨⟨hseen, hchain⟩, hending⟩ := hm
      have hlast := hending (by rw [hcur, haddr])
      refine ⟨fun p hp => ?_, List.isChain_append.mpr ⟨hchain, List.isChain_singleton _, ?_⟩⟩
      · rcases List.mem_append.mp hp with hp | hp
        · exact hseen p hp
        · rwa [List.mem_singleton.mp hp]
      · simpa using hlast
    · refine (h.ending.write (fun m hm _ => hm) fun m _ _ _ p hp => ?_).of_ink rfl
      obtain rfl : s.clock = p := by simpa using hp
      exact hR _
  | resume _ hk' hdown hcur =>
    have hQclock : Q s.clock := hQ (hk'.imp And.left id)
    obtain ⟨hlive, hlast, hclock⟩ := h.ongoing hdown
    have hjoined : Line.Joined Q R ⟨s.next, s.follow, [s.last, s.clock]⟩ := by
      simp [Line.Joined, hlast, hQclock, hclock]
    have hstart := h.start hs hjoined (by simpa using hR s.clock)
    exact ⟨hstart.joined, hstart.ending, fun _ => ⟨hlive, hQclock, hR _⟩⟩
  | hover hdown =>
    obtain ⟨hlive, _, _⟩ := h.ongoing hdown
    exact ⟨h.joined, h.ending, fun _ => ⟨hlive, hQ (.inl rfl), hR _⟩⟩
  | lift c f hc =>
    exact ⟨h.joined, fun _ _ _ _ _ hcur => by simp [State.lift] at hcur, by simp [State.lift]⟩
  | drop => exact ⟨h.joined, fun _ _ _ _ _ hcur => by simp at hcur, h.ongoing⟩
  | forget => exact ⟨h.joined, h.ending, h.ongoing⟩
  | shrink ink hink hcur => exact ⟨h.joined.shrink hink, h.ending.shrink hink, h.ongoing⟩
  | setLive b hb =>
    refine ⟨h.joined, h.ending, fun hdown => ?_⟩
    obtain ⟨hlive, hrest⟩ := h.ongoing hdown
    refine ⟨?_, hrest⟩
    rcases hb hdown with rfl | rfl
    · rfl
    · exact hlive
  | settle room hroom => exact ⟨h.joined, h.ending, h.ongoing⟩
  | halt hdown => exact absurd rfl hk

theorem Move.clock_eq (hm : Move k s t) : t.clock = s.clock := by
  cases hm <;> rfl

theorem Moves.clock_eq (hp : Moves L s t) : t.clock = s.clock :=
  hp.invariant (P := fun u => u.clock = s.clock) (fun _ _ _ _ hm hu => hm.clock_eq.trans hu) rfl

/-- Moves without a halt keep the lines joined. -/
theorem Moves.continuous (hp : Moves L s t) (hhalt : ¬ L .halt)
    (hQ : L .pen ∨ L .stray → Q s.clock) (hR : ∀ n, R n n) (hs : WellFormed s)
    (h : Continuous Q R s) : Continuous Q R t := by
  have hinv : Continuous Q R t ∧ t.clock = s.clock ∧ WellFormed t := by
    refine hp.invariant (P := fun u => Continuous Q R u ∧ u.clock = s.clock ∧ WellFormed u)
      (fun k u v hk hm hu => ?_) ⟨h, rfl, hs⟩
    obtain ⟨hcont, hclock, hwf⟩ := hu
    refine ⟨hm.continuous (fun hhalt' => hhalt (hhalt' ▸ hk)) (fun hk' => ?_) hR hwf hcont,
      hm.clock_eq.trans hclock, hm.wellFormed hwf⟩
    rw [hclock]
    rcases hk' with rfl | rfl
    · exact hQ (.inl hk)
    · exact hQ (.inr hk)
  exact hinv.1

omit [DecidableEq κ] in
/-- One moment later: what could be joined to the present still can. -/
theorem Continuous.tick (h : Continuous Q R s) (hs : WellFormed s)
    (hR : s.down → ∀ p, R p s.clock → R p (s.clock + 1)) :
    Continuous Q R { s with clock := s.clock + 1 } where
  joined := h.joined
  ending c lines hlines m hm hcur p hp :=
    hR (hs.inFlight m.addr hcur).1 p (h.ending c lines hlines m hm hcur p hp)
  ongoing hdown := by
    obtain ⟨hlive, hlast, hclock⟩ := h.ongoing hdown
    exact ⟨hlive, hlast, hR hdown _ hclock⟩

/-! ### The remembered sheet -/

/-- The remembered sheet is the one that last received a point. -/
def Newest (s : State κ) : Prop := ∀ c, s.remembered = some c → s.newest = some c

/-- Every move that does not ink another sheet than the remembered one keeps that. -/
theorem Move.newest (hm : Move k s t) (hk : k ≠ .stray) (h : Newest s) : Newest t := by
  cases hm with
  | dot hdown hcur => exact fun c hc => hc
  | line _ hk' a hdown hcur =>
    obtain ⟨_, hrecalls⟩ := hk'.resolve_right hk
    exact fun c hc => by rw [hrecalls c hc]
  | resume _ hk' hdown hcur =>
    obtain ⟨_, hrecalls⟩ := hk'.resolve_right hk
    intro c hc
    rw [hrecalls c hc]
    rfl
  | forget => exact fun c hc => by simp at hc
  | _ => exact h

theorem Moves.newest (hp : Moves L s t) (hstray : ¬ L .stray) (h : Newest s) : Newest t :=
  hp.invariant (fun _ _ _ hk hm => hm.newest fun hk' => hstray (hk' ▸ hk)) h

end Annotations.Sheets
