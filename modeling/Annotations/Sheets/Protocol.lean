import Mathlib

/-! A pen over a family of sheets. Each sheet that exists holds a list of lines, a
line is known by the address it was created at, and the line being drawn is held
by that address alone. The moves are what a pen, and a keeper that seals, shortens
and removes sheets behind its back, can do; `Moves` runs sequences of permitted kinds.
Points are kept as the moments their pen positions were seen at. -/

namespace Annotations.Sheets

structure Line where
  addr : ℕ
  follow : Bool
  stamps : List ℕ
  deriving DecidableEq

/-- The state of the pen and the sheets. `last` is the moment of the latest pen
position, `clock` the present one, `newest` the sheet that last received a point, and
`room` holds the places where a sheet may lie. -/
@[ext] structure State (κ : Type) where
  live : Bool
  down : Bool
  anchor : κ
  current : Option ℕ
  follow : Bool
  remembered : Option κ
  ink : κ → Option (List Line)
  next : ℕ
  clock : ℕ
  last : ℕ
  newest : Option κ
  room : Set κ

namespace State

variable {κ : Type} (s : State κ)

/-- A point written through an address reaches every line at that address. -/
def write (a p : ℕ) : State κ :=
  { s with
    ink := fun c => (s.ink c).map <| List.map fun m =>
      if m.addr = a then { m with stamps := m.stamps ++ [p] } else m }

def lift (c : κ) (follow : Bool) : State κ :=
  { s with down := false, current := none, follow := follow, anchor := c }

/-- Nothing else is remembered than the anchor sheet. -/
def Recalls : Prop := ∀ c, s.remembered = some c → c = s.anchor

variable [DecidableEq κ]

/-- Set the lines of a sheet. -/
def setInk (c : κ) (lines : Option (List Line)) : State κ :=
  { s with ink := Function.update s.ink c lines }

/-- Start a line with the given points on the anchor sheet. -/
def start (stamps : List ℕ) : State κ :=
  { s with
    ink := Function.update s.ink s.anchor
      ((s.ink s.anchor).map (· ++ [⟨s.next, s.follow, stamps⟩]))
    current := some s.next
    next := s.next + 1
    newest := some s.anchor }

end State

variable {κ : Type} {s t u : State κ}

/-! ### Addresses -/

/-- The addresses of the lines of a sheet. -/
def addrs (ink : κ → Option (List Line)) (c : κ) : List ℕ := ((ink c).getD []).map Line.addr

/-- No address is used twice, and the next one not at all. -/
structure Distinct (ink : κ → Option (List Line)) (next : ℕ) : Prop where
  fresh : ∀ c, ∀ a ∈ addrs ink c, a < next
  nodup : ∀ c, (addrs ink c).Nodup
  disjoint : ∀ c c', ∀ a ∈ addrs ink c, a ∈ addrs ink c' → c = c'

variable {ink ink' : κ → Option (List Line)} {next : ℕ}

theorem mem_addrs {c : κ} {lines : List Line} {m : Line} (hlines : ink c = some lines)
    (hm : m ∈ lines) : m.addr ∈ addrs ink c := by
  rw [addrs, hlines]
  exact List.mem_map_of_mem hm

theorem Distinct.of_empty (h : ∀ c, addrs ink c = []) : Distinct ink next := by
  constructor <;> simp [h]

/-- Lines are removed from sheets, but no sheet is added or removed. -/
def Shrinks (ink ink' : κ → Option (List Line)) : Prop :=
  ∀ c, ((ink' c).isSome ↔ (ink c).isSome) ∧ ((ink' c).getD []).Sublist ((ink c).getD [])

/-- Removing lines keeps addresses distinct. -/
theorem Distinct.shrink (h : Distinct ink next)
    (hsub : ∀ c, (addrs ink' c).Sublist (addrs ink c)) : Distinct ink' next where
  fresh c a ha := h.fresh c a ((hsub c).subset ha)
  nodup c := (h.nodup c).sublist (hsub c)
  disjoint c c' a ha ha' := h.disjoint c c' a ((hsub c).subset ha) ((hsub c').subset ha')

@[simp] theorem addrs_write (a p : ℕ) (c : κ) : addrs (s.write a p).ink c = addrs s.ink c := by
  cases h : s.ink c with
  | none => simp [addrs, State.write, h]
  | some lines =>
    simp only [addrs, State.write, h, Option.map_some, Option.getD_some, List.map_map]
    refine List.map_congr_left fun m _ => ?_
    simp only [Function.comp_apply]
    split_ifs <;> rfl

/-- A write at the next address reaches nothing. -/
theorem write_next (h : Distinct s.ink s.next) (p : ℕ) : s.write s.next p = s := by
  refine State.ext rfl rfl rfl rfl rfl rfl (funext fun c => ?_) rfl rfl rfl rfl rfl
  cases hlines : s.ink c with
  | none => simp [State.write, hlines]
  | some lines =>
    have hkeep : lines.map (fun m =>
        if m.addr = s.next then { m with stamps := m.stamps ++ [p] } else m) = lines := by
      refine (List.map_congr_left fun m hm => ?_).trans (List.map_id lines)
      have hlt := h.fresh c _ (mem_addrs hlines hm)
      rw [if_neg (by omega), id]
    simp [State.write, hlines, hkeep]

variable [DecidableEq κ]

theorem addrs_update (c c' : κ) (lines : Option (List Line)) :
    addrs (Function.update ink c lines) c' =
      if c' = c then (lines.getD []).map Line.addr else addrs ink c' := by
  by_cases h : c' = c
  · subst h
    simp [addrs]
  · simp [addrs, h]

/-- A line at the next address keeps addresses distinct. -/
theorem Distinct.start (h : Distinct s.ink s.next) (hc : (s.ink s.anchor).isSome)
    (stamps : List ℕ) : Distinct (s.start stamps).ink (s.next + 1) := by
  obtain ⟨lines, hlines⟩ := Option.isSome_iff_exists.mp hc
  have haddrs : ∀ c, addrs (s.start stamps).ink c =
      if c = s.anchor then addrs s.ink c ++ [s.next] else addrs s.ink c := by
    intro c
    rw [State.start, addrs_update]
    split_ifs with hcanchor
    · subst hcanchor
      simp [addrs, hlines]
    · rfl
  have hmem : ∀ c, ∀ a ∈ addrs (s.start stamps).ink c,
      a ∈ addrs s.ink c ∨ c = s.anchor ∧ a = s.next := by
    intro c a ha
    rw [haddrs] at ha
    split_ifs at ha with hcanchor
    · simpa [hcanchor] using ha
    · exact .inl ha
  refine ⟨fun c a ha => ?_, fun c => ?_, fun c c' a ha ha' => ?_⟩
  · rcases hmem c a ha with ha | ⟨_, rfl⟩
    · have hlt := h.fresh c a ha
      omega
    · omega
  · rw [haddrs]
    split_ifs
    · rw [List.nodup_append]
      refine ⟨h.nodup c, List.nodup_singleton _, fun a ha b hb => ?_⟩
      have hlt := h.fresh c a ha
      rw [List.mem_singleton] at hb
      omega
    · exact h.nodup c
  · rcases hmem c a ha with ha | ⟨hc, rfl⟩ <;> rcases hmem c' _ ha' with ha' | ⟨hc', hnext⟩
    · exact h.disjoint c c' a ha ha'
    · exact absurd (h.fresh c a ha) (by omega)
    · exact absurd (h.fresh c' _ ha') (by omega)
    · rw [hc, hc']

/-- A point written to the line just started joins its points. -/
theorem start_write (h : Distinct s.ink s.next) (stamps : List ℕ) (p : ℕ) :
    (s.start stamps).write s.next p = s.start (stamps ++ [p]) := by
  refine State.ext rfl rfl rfl rfl rfl rfl (funext fun c => ?_) rfl rfl rfl rfl rfl
  have hold : (s.write s.next p).ink c = s.ink c := by rw [write_next h]
  by_cases hc : c = s.anchor
  · subst hc
    cases hlines : s.ink s.anchor with
    | none => simp [State.write, State.start, hlines]
    | some lines =>
      rw [State.write, hlines] at hold
      simpa [State.write, State.start, hlines] using hold
  · simpa [State.write, State.start, hc] using hold

/-! ### Moves -/

/-- The kinds of moves: those of the pen, pen moves that ink a sheet other than the
one remembered, the keeper's, and halting the pen while it is down. -/
inductive Kind where
  | pen | stray | quiet | halt
  deriving DecidableEq

/-- One move from `s`. -/
inductive Move : Kind → State κ → State κ → Prop where
  | attach {s : State κ} (c : κ) (habsent : s.ink c = none) (hroom : c ∈ s.room) :
      Move .quiet s (s.setInk c (some []))
  | detach {s : State κ} (c : κ) (hanchor : c ≠ s.anchor) (hrem : s.remembered ≠ some c) :
      Move .quiet s (s.setInk c none)
  | press {s : State κ} (c : κ) (f : Bool) (hc : (s.ink c).isSome) (hlive : s.live) :
      Move .pen s
        { s with anchor := c, current := none, follow := f, down := true, last := s.clock }
  | dot {s : State κ} (hdown : s.down) (hcur : s.current = none) :
      Move .pen s { s.start [s.last] with remembered := some s.anchor }
  | line {s : State κ} (k : Kind) (hk : k = .pen ∧ s.Recalls ∨ k = .stray) (a : ℕ) (hdown : s.down)
      (hcur : s.current = some a) :
      Move k s { s.write a s.clock with last := s.clock, newest := some s.anchor }
  | resume {s : State κ} (k : Kind) (hk : k = .pen ∧ s.Recalls ∨ k = .stray) (hdown : s.down)
      (hcur : s.current = none) :
      Move k s { s.start [s.last, s.clock] with last := s.clock }
  | hover {s : State κ} (hdown : s.down) : Move .pen s { s with last := s.clock }
  | lift {s : State κ} (c : κ) (f : Bool) (hc : (s.ink c).isSome) : Move .quiet s (s.lift c f)
  | drop {s : State κ} : Move .quiet s { s with current := none }
  | forget {s : State κ} : Move .quiet s { s with remembered := none }
  | shrink {s : State κ} (ink : κ → Option (List Line)) (hink : Shrinks s.ink ink)
      (hcur : s.current = none ∨ ink s.anchor = s.ink s.anchor) :
      Move .quiet s { s with ink := ink }
  | setLive {s : State κ} (b : Bool) (hb : s.down → b = true ∨ b = s.live) :
      Move .quiet s { s with live := b }
  | settle {s : State κ} (room : Set κ) (hroom : ∀ c, (s.ink c).isSome → c ∈ room) :
      Move .quiet s { s with room := room }
  | halt {s : State κ} (hdown : s.down) : Move .halt s { s with live := false }

/-- A sequence of moves of the kinds in `L`. -/
def Moves (L : Kind → Prop) : State κ → State κ → Prop :=
  Relation.ReflTransGen fun s t => ∃ k, L k ∧ Move k s t

variable {L L' : Kind → Prop} {k : Kind}

theorem Moves.refl : Moves L s s := Relation.ReflTransGen.refl

theorem Moves.trans (h : Moves L s t) (h' : Moves L t u) : Moves L s u := Relation.ReflTransGen.trans h h'

theorem Move.moves (h : Move k s t) (hk : L k) : Moves L s t := .single ⟨k, hk, h⟩

theorem Moves.mono (hL : ∀ k, L k → L' k) (h : Moves L s t) : Moves L' s t := by
  refine Relation.ReflTransGen.mono (fun _ _ hstep => ?_) s t h
  obtain ⟨k, hk, hm⟩ := hstep
  exact ⟨k, hL k hk, hm⟩

/-- The invariant rule for sequences of moves. -/
theorem Moves.invariant {P : State κ → Prop} (hmove : ∀ k s t, L k → Move k s t → P s → P t)
    (h : Moves L s t) (hs : P s) : P t := by
  induction h with
  | refl => exact hs
  | tail _ hstep ih =>
    obtain ⟨k, hk, hm⟩ := hstep
    exact hmove k _ _ hk hm ih

end Annotations.Sheets
