import Annotations.Tracing.Invariants

/-! What moves write into strokes, and what it remembers: the colour of every segment
is that of the pen when it was drawn (`Coloured`), all strokes of one press follow the
scroll or none does (`Follows`), and the points of a stroke that follows the scroll were
all taken to content space under one frame (`Laid`). -/

namespace Annotations

variable {K : Type} [Scalar K] {L : Permit K} {d e : Drawing K} {P : Canvas → Stroke K → Prop}

namespace Drawing

/-- All strokes have the property. -/
def Every (P : Canvas → Stroke K → Prop) (d : Drawing K) : Prop :=
  ∀ c strokes, d.strokes c = some strokes → ∀ s ∈ strokes, P c s

omit [Scalar K] in
theorem Every.of_strokes (h : d.Every P) (hstrokes : e.strokes = d.strokes) : e.Every P := by
  intro c strokes hs
  exact h c strokes (hstrokes ▸ hs)

omit [Scalar K] in
/-- The strokes of one canvas are replaced. -/
theorem Every.update (h : d.Every P) {c : Canvas} {strokes : Option (List (Stroke K))}
    (hnew : ∀ all, strokes = some all → ∀ s ∈ all, P c s)
    (hstrokes : e.strokes = Function.update d.strokes c strokes) : e.Every P := by
  intro c' all hall s hs
  rw [hstrokes] at hall
  by_cases hc : c' = c
  · subst hc
    rw [Function.update_self] at hall
    exact hnew all hall s hs
  · rw [Function.update_of_ne hc] at hall
    exact h c' all hall s hs

omit [Scalar K] in
/-- One more stroke at the end of a canvas. -/
theorem Every.snoc (h : d.Every P) {c : Canvas} {before strokes : List (Stroke K)} {s : Stroke K}
    (hold : d.strokes c = some strokes) (hsub : before.Sublist strokes) (hs : P c s)
    (hstrokes : e.strokes = Function.update d.strokes c (some (before ++ [s]))) : e.Every P := by
  refine h.update (fun all hall s' hs' => ?_) hstrokes
  obtain rfl := Option.some.inj hall
  rcases List.mem_append.mp hs' with hs' | hs'
  · exact h c strokes hold s' (hsub.subset hs')
  · rwa [List.mem_singleton.mp hs']

end Drawing

/-- A property of all strokes, when the strokes that a move opens or extends have it. -/
theorem Move.every (hm : Move L d e) (h : d.Every P)
    (hdot : L.press d.anchor d.follow d.tip → d.tip.stamp = d.clock → d.down → d.current = none →
      P d.anchor (d.sketch [d.pressed d.tip]))
    (hresume : ∀ tip, L.ink → L.trace d.anchor tip → tip.stamp = d.clock → d.down → d.current = none →
      P d.anchor (d.sketch [d.stored d.tip, d.stored tip]))
    (hextend : ∀ before s tip, L.ink → L.trace d.anchor tip → tip.stamp = d.clock → d.down →
      d.current = some s.addr → d.strokes d.anchor = some (before ++ [s]) → (s.rgba ≠ d.rgba → L.tint) →
      P d.anchor s → P d.anchor (strokeAppendPoint s (d.stored tip))) :
    e.Every P := by
  have hlift : ∀ (e : Drawing K) (C : Canvas → Bool), e.Every P → (e.liftFrom C).Every P :=
    fun e C he => he.of_strokes (e.liftFrom_strokes C)
  cases hm with
  | press c follow tip hpress hstamp hc hfollow hstrand => exact h.of_strokes rfl
  | dot strokes hpress hstamp hdown hcur hstrokes =>
    exact h.snoc hstrokes (List.Sublist.refl _) (hdot hpress hstamp hdown hcur) rfl
  | resume strokes surface tip hink htrace hstamp hdown hcur hstrokes hsurface hleak hblur =>
    exact h.snoc hstrokes (List.Sublist.refl _) (hresume tip hink htrace hstamp hdown hcur) rfl
  | extend before s surface tip hink htrace hstamp hdown hcur hstrokes hsurface hleak hblur htint =>
    have hs := h _ _ hstrokes s (by simp)
    exact h.snoc hstrokes (List.sublist_append_left _ _)
      (hextend before s tip hink htrace hstamp hdown hcur hstrokes htint hs) rfl
  | hover tip htrace hstamp hdown hcur => exact h.of_strokes rfl
  | lift follow hstrand => exact h.of_strokes rfl
  | drop hstrand => exact h.of_strokes rfl
  | recolour rgba hrecolour => exact h.of_strokes rfl
  | attach win width height habsent =>
    refine h.update (fun all hall s hs => ?_) rfl
    obtain rfl : [] = all := Option.some.inj hall
    simp at hs
  | detach win =>
    have hnone : ∀ all, (none : Option (List (Stroke K))) = some all → ∀ s ∈ all, P (some win) s := nofun
    exact hlift _ _ (h.update hnone rfl)
  | wipe C =>
    refine hlift _ _ fun c strokes hstrokes s hs => ?_
    simp only [Drawing.wipe] at hstrokes
    split_ifs at hstrokes
    · obtain ⟨_, _, rfl⟩ := Option.map_eq_some_iff.mp hstrokes
      simp at hs
    · exact h c strokes hstrokes s hs
  | repaint c strokes strokes' surface frame hrepaint hstrokes hsub hcur hsurface hkeep hreframe =>
    refine h.update (fun all hall s hs => ?_) rfl
    obtain rfl : strokes' = all := Option.some.inj hall
    exact h c strokes hstrokes s (hsub.subset hs)
  | reframe c f f' hreframe hframe hno hno' => exact h.of_strokes rfl

theorem Move.clock_eq (hm : Move L d e) : e.clock = d.clock := by
  cases hm with
  | detach win => exact Drawing.liftFrom_clock ..
  | wipe C => exact Drawing.liftFrom_clock ..
  | _ => rfl

theorem Traces.clock_eq (ht : Traces L d e) : e.clock = d.clock :=
  ht.invariant (P := fun u => u.clock = d.clock) (fun _ _ hm hu => hm.clock_eq.trans hu) rfl

/-! ### Colours -/

/-- The segments of all strokes have the colour that `C` gives for the moment of their
end. -/
def Coloured (C : ℕ → Rgba K → Prop) (d : Drawing K) : Prop :=
  d.Every fun _ s => ∀ p ∈ s.points.tail, C p.stamp s.rgba

variable {C : ℕ → Rgba K → Prop}

theorem Move.rgba_eq (hm : Move L d e) (hrecolour : ¬ L.recolour) : e.rgba = d.rgba := by
  cases hm with
  | detach win => exact Drawing.liftFrom_rgba ..
  | wipe C => exact Drawing.liftFrom_rgba ..
  | recolour rgba h => exact absurd h hrecolour
  | _ => rfl

theorem Move.coloured (hm : Move L d e) (htint : ¬ L.tint) (hC : L.ink → C d.clock d.rgba)
    (h : Coloured C d) : Coloured C e := by
  refine hm.every h (fun _ _ _ _ => ?_) (fun tip hink _ hstamp _ _ => ?_)
    fun before s tip hink _ hstamp _ _ _ hsame hs => ?_
  · simp
  · have htip : (d.stored tip).stamp = d.clock := (Drawing.Stores.rest_eq (.inr rfl)).2.2.trans hstamp
    simpa [htip] using hC hink
  · have hcolour : s.rgba = d.rgba := by
      by_contra hne
      exact htint (hsame hne)
    have htip : (d.stored tip).stamp = d.clock := (Drawing.Stores.rest_eq (.inr rfl)).2.2.trans hstamp
    intro p hp
    rw [strokeAppendPoint_points] at hp
    cases hpoints : s.points with
    | nil => simp [hpoints] at hp
    | cons q points =>
      rw [hpoints, List.cons_append, List.tail_cons, List.mem_append, List.mem_singleton] at hp
      rcases hp with hp | rfl
      · exact hs p (by rwa [hpoints, List.tail_cons])
      · have hC' : C (d.stored tip).stamp s.rgba := by
          rw [htip, hcolour]
          exact hC hink
        exact hC'

/-- Moves that draw with the colour of the moment keep the colours. -/
theorem Traces.coloured (ht : Traces L d e) (htint : ¬ L.tint) (hrecolour : L.ink → ¬ L.recolour)
    (hC : L.ink → C d.clock d.rgba) (h : Coloured C d) : Coloured C e := by
  have hinv : Coloured C e ∧ e.clock = d.clock ∧ (L.ink → e.rgba = d.rgba) := by
    refine ht.invariant (P := fun u => Coloured C u ∧ u.clock = d.clock ∧ (L.ink → u.rgba = d.rgba))
      (fun u v hm hu => ?_) ⟨h, rfl, fun _ => rfl⟩
    obtain ⟨hcoloured, hclock, hrgba⟩ := hu
    refine ⟨hm.coloured htint (fun hink => ?_) hcoloured, hm.clock_eq.trans hclock,
      fun hink => (hm.rgba_eq (hrecolour hink)).trans (hrgba hink)⟩
    rw [hclock, hrgba hink]
    exact hC hink
  exact hinv.1

/-! ### Following -/

/-- The strokes with addresses in `A` follow the scroll as `F` says. -/
def Follows (A : Set ℕ) (F : Bool) (d : Drawing K) : Prop :=
  d.Every fun _ s => s.addr ∈ A → s.followScroll = F

variable {A : Set ℕ} {F : Bool}

theorem Move.follows (hm : Move L d e)
    (hpress : d.next ∈ A → ∀ c follow tip, L.press c follow tip → follow = F)
    (hink : d.next ∈ A → L.ink → d.down → d.follow = F) (h : Follows A F d) : Follows A F e := by
  refine hm.every h (fun hL _ _ _ hA => ?_) (fun tip hL _ _ hdown _ hA => ?_)
    fun before s tip _ _ _ _ _ _ _ hs hA => hs hA
  · rw [Drawing.sketch_addr] at hA
    rw [Drawing.sketch_followScroll]
    exact hpress hA _ _ _ hL
  · rw [Drawing.sketch_addr] at hA
    rw [Drawing.sketch_followScroll]
    exact hink hA hL hdown

theorem Move.next_le (hm : Move L d e) : d.next ≤ e.next := by
  cases hm with
  | dot strokes hpress hstamp hdown hcur hstrokes => exact Nat.le_succ _
  | resume strokes surface tip hink htrace hstamp hdown hcur hstrokes hsurface hleak hblur => exact Nat.le_succ _
  | detach win =>
    rw [Drawing.liftFrom_next]
    exact le_rfl
  | wipe C =>
    rw [Drawing.liftFrom_next]
    exact le_rfl
  | _ => exact le_rfl

theorem Traces.next_le (ht : Traces L d e) : d.next ≤ e.next :=
  ht.invariant (P := fun u => d.next ≤ u.next) (fun _ _ hm hu => hu.trans hm.next_le) le_rfl

/-- Old strokes keep their coordinate space. -/
theorem Traces.follows_old (ht : Traces L d e) (hold : ∀ n ∈ A, n < d.next) (h : Follows A F d) :
    Follows A F e := by
  have hinv : Follows A F e ∧ d.next ≤ e.next := by
    refine ht.invariant (P := fun u => Follows A F u ∧ d.next ≤ u.next) (fun u v hm hu => ?_) ⟨h, le_rfl⟩
    have hnot : u.next ∉ A := fun hA => absurd (hold _ hA) (not_lt.mpr hu.2)
    exact ⟨hm.follows (fun hA => absurd hA hnot) (fun hA => absurd hA hnot) hu.1, hu.2.trans hm.next_le⟩
  exact hinv.1

/-- Without a press the pen keeps the coordinate space while it is down. -/
theorem Move.follow_eq (hm : Move L d e) (hpress : ∀ c follow tip, ¬ L.press c follow tip) (hdown : e.down) :
    d.down ∧ e.follow = d.follow := by
  have hlift : ∀ (u : Drawing K) (C : Canvas → Bool), (u.liftFrom C).down → u.down ∧
      (u.liftFrom C).follow = u.follow := by
    intro u C
    unfold Drawing.liftFrom
    split_ifs
    · nofun
    · exact fun h => ⟨h, rfl⟩
  cases hm with
  | press c follow tip hp hstamp hc hfollow hstrand => exact absurd hp (hpress c follow tip)
  | detach win => exact hlift _ _ hdown
  | wipe C => exact hlift _ _ hdown
  | lift follow hstrand => exact absurd hdown (by simp [Drawing.lift])
  | _ => exact ⟨hdown, rfl⟩

theorem Traces.follow_eq (ht : Traces L d e) (hpress : ∀ c follow tip, ¬ L.press c follow tip)
    (hdown : e.down) : d.down ∧ e.follow = d.follow := by
  induction ht with
  | refl => exact ⟨hdown, rfl⟩
  | tail _ hm ih =>
    obtain ⟨hdown', hfollow⟩ := hm.follow_eq hpress hdown
    obtain ⟨hdown'', hfollow'⟩ := ih hdown'
    exact ⟨hdown'', hfollow.trans hfollow'⟩

/-- Moves that press in the coordinate space `F`, or ink in it without pressing, open
strokes of that space alone. -/
theorem Traces.follows (ht : Traces L d e) (hpress : ∀ c follow tip, L.press c follow tip → follow = F)
    (hink : L.ink → (∀ c follow tip, ¬ L.press c follow tip) ∧ (d.down → d.follow = F))
    (h : Follows A F d) : Follows A F e := by
  have hinv : Follows A F e ∧ (L.ink → e.down → e.follow = F) := by
    refine ht.invariant (P := fun u => Follows A F u ∧ (L.ink → u.down → u.follow = F))
      (fun u v hm hu => ⟨hm.follows (fun _ => hpress) (fun _ => hu.2) hu.1, fun hL hdown => ?_⟩)
      ⟨h, fun hL => (hink hL).2⟩
    obtain ⟨hdown', hfollow⟩ := hm.follow_eq (hink hL).1 hdown
    rw [hfollow, hu.2 hL hdown']
  exact hinv.1

/-! ### Content space -/

/-- The points of the stroke were all laid under one frame that has a region. -/
def Stroke.Laid (s : Stroke K) (Q : InkPoint K → Frame K → Prop) : Prop :=
  ∃ f : Frame K, f.hasRegion ∧ ∀ p ∈ s.points, ∃ q, Q q f ∧ f.Stores q p

/-- The points of strokes that follow the scroll are laid, and so is the tip of a pen
that draws one. -/
structure Placed (Q : Canvas → InkPoint K → Frame K → Prop) (d : Drawing K) : Prop where
  stored : d.Every fun c s => s.followScroll → s.Laid (Q c)
  tip : d.down → d.follow → ∀ f, d.frame d.anchor = some f → Q d.anchor d.tip f

/-- A move presses the pen, or leaves a pen that follows the scroll on the same canvas
under the same frame. -/
theorem Move.pen_cases (hm : Move L d e) (hs : Sound d) :
    (∃ c follow tip, L.press c follow tip ∧ e.anchor = c ∧ e.follow = follow ∧ e.tip = tip ∧
      e.frame = d.frame) ∨
    (e.down → e.follow → d.down ∧ d.follow ∧ e.anchor = d.anchor ∧
      e.frame d.anchor = d.frame d.anchor ∧ (e.tip = d.tip ∨ L.trace d.anchor e.tip)) := by
  cases hm with
  | press c follow tip hpress hstamp hc hfollow hstrand =>
    exact .inl ⟨c, follow, tip, hpress, rfl, rfl, rfl, rfl⟩
  | dot strokes hpress hstamp hdown hcur hstrokes =>
    exact .inr fun hd hf => ⟨hd, hf, rfl, rfl, .inl rfl⟩
  | resume strokes surface tip hink htrace hstamp hdown hcur hstrokes hsurface hleak hblur =>
    exact .inr fun hd hf => ⟨hd, hf, rfl, rfl, .inr htrace⟩
  | extend before s surface tip hink htrace hstamp hdown hcur hstrokes hsurface hleak hblur htint =>
    exact .inr fun hd hf => ⟨hd, hf, rfl, rfl, .inr htrace⟩
  | hover tip htrace hstamp hdown hcur => exact .inr fun hd hf => ⟨hd, hf, rfl, rfl, .inr htrace⟩
  | lift follow hstrand => exact .inr fun hd => absurd hd Bool.false_ne_true
  | drop hstrand => exact .inr fun hd hf => ⟨hd, hf, rfl, rfl, .inl rfl⟩
  | recolour rgba hrecolour => exact .inr fun hd hf => ⟨hd, hf, rfl, rfl, .inl rfl⟩
  | attach win width height habsent =>
    refine .inr fun hd hf => ⟨hd, hf, rfl, ?_, .inl rfl⟩
    obtain ⟨f, hframe, _⟩ := hs.followed hd hf
    have hne : d.anchor ≠ some win := by
      intro hanchor
      have hstrokes := hs.framed d.anchor (by rw [hframe]; rfl)
      rw [hanchor, habsent] at hstrokes
      simp at hstrokes
    simp [Drawing.setPage, hne]
  | detach win =>
    right
    unfold Drawing.liftFrom
    split_ifs with hanchor
    · exact fun hd => absurd hd Bool.false_ne_true
    · have hne : d.anchor ≠ some win := fun h => hanchor (decide_eq_true h)
      exact fun hd hf => ⟨hd, hf, rfl, by simp [Drawing.setPage, hne], .inl rfl⟩
  | wipe C =>
    right
    unfold Drawing.liftFrom
    split_ifs
    · exact fun hd => absurd hd Bool.false_ne_true
    · exact fun hd hf => ⟨hd, hf, rfl, rfl, .inl rfl⟩
  | repaint c strokes strokes' surface frame hrepaint hstrokes hsub hcur hsurface hkeep hreframe =>
    refine .inr fun hd hf => ⟨hd, hf, rfl, ?_, .inl rfl⟩
    by_cases hc : c = d.anchor
    · subst hc
      by_contra hne
      have hchanged : frame ≠ d.frame d.anchor := by simpa [Drawing.setPage] using hne
      have hfree := (hreframe hchanged).2.2.2 rfl hd
      have hf' : d.follow = true := hf
      simp [hfree] at hf'
    · simp [Drawing.setPage, Ne.symm hc]
  | reframe c f f' hreframe hframe hno hno' =>
    refine .inr fun hd hf => ⟨hd, hf, rfl, ?_, .inl rfl⟩
    obtain ⟨g, hg, hregion⟩ := hs.followed hd hf
    have hne : d.anchor ≠ c := by
      rintro rfl
      obtain rfl : f = g := Option.some.inj (hframe.symm.trans hg)
      simp [hno] at hregion
    simp [hne]

section Placing
variable {Q : Canvas → InkPoint K → Frame K → Prop}
  (hfun : ∀ c q q' f f', Q c q f → Q c q' f' → q.stamp = q'.stamp → f = f')
  (hpress : ∀ c tip f, L.press c true tip → f.hasRegion → d.frame c = some f → Q c tip f)
  (htrace : ∀ tip f, L.trace d.anchor tip → f.hasRegion → d.frame d.anchor = some f → Q d.anchor tip f)
include hfun hpress htrace

/-- Moves lay the points of strokes that follow the scroll under one frame each. -/
theorem Move.placed (hm : Move L d e) (hs : Sound d) (h : Placed Q d) : Placed Q e := by
  -- the frame of a pen that follows the scroll, and what it stores
  have hpen : d.down → d.follow → ∃ f, f.hasRegion ∧ d.frame d.anchor = some f ∧
      ∀ tip q, d.Stores tip q → f.Stores tip q := by
    intro hdown hfollow
    obtain ⟨f, hf, hregion⟩ := hs.followed hdown hfollow
    exact ⟨f, hregion, hf, fun tip q => (Drawing.stores_of_follow hfollow hf).mp⟩
  refine ⟨hm.every h.stored ?_ ?_ ?_, ?_⟩
  · intro _ _ hdown _ hfollow
    rw [Drawing.sketch_followScroll] at hfollow
    obtain ⟨f, hregion, hf, hstored⟩ := hpen hdown hfollow
    refine ⟨f, hregion, fun p hp => ⟨d.tip, h.tip hdown hfollow f hf, ?_⟩⟩
    rw [Drawing.sketch_points, List.mem_singleton] at hp
    exact hstored _ _ (.inl hp)
  · intro tip _ hL _ hdown _ hfollow
    rw [Drawing.sketch_followScroll] at hfollow
    obtain ⟨f, hregion, hf, hstored⟩ := hpen hdown hfollow
    refine ⟨f, hregion, fun p hp => ?_⟩
    rw [Drawing.sketch_points, List.mem_pair] at hp
    rcases hp with rfl | rfl
    · exact ⟨d.tip, h.tip hdown hfollow f hf, hstored _ _ (.inr rfl)⟩
    · exact ⟨tip, htrace tip f hL hregion hf, hstored _ _ (.inr rfl)⟩
  · intro before s tip _ hL _ hdown hcur hstrokes _ hlaid hfollow
    obtain ⟨hsame, last, hlast, hends⟩ := hs.last hcur hstrokes
    have hfollow' : d.follow := hsame ▸ hfollow
    obtain ⟨f, hregion, hf, hstored⟩ := hpen hdown hfollow'
    obtain ⟨f', _, hpoints⟩ := hlaid hfollow
    -- the stroke ends at the tip, so it was laid under the frame the pen is in
    obtain rfl : f = f' := by
      obtain ⟨q, hq, hlaid'⟩ := hpoints _ (List.mem_of_getLast? hlast)
      have hstamp : d.tip.stamp = q.stamp := (hstored _ _ hends).rest_eq.2.2.symm.trans hlaid'.rest_eq.2.2
      exact hfun _ _ _ _ _ (h.tip hdown hfollow' f hf) hq hstamp
    refine ⟨f, hregion, fun p hp => ?_⟩
    rcases List.mem_append.mp hp with hp | hp
    · exact hpoints p hp
    · rw [List.mem_singleton.mp hp]
      exact ⟨tip, htrace tip f hL hregion hf, hstored _ _ (.inr rfl)⟩
  · intro hdown hfollow f hf
    have hsound := hm.sound hs
    obtain ⟨g, hg, hregion⟩ := hsound.followed hdown hfollow
    obtain rfl : g = f := Option.some.inj (hg.symm.trans hf)
    rcases hm.pen_cases hs with ⟨c, follow, tip, hL, rfl, rfl, rfl, hframe⟩ | hkeep
    · rw [hfollow] at hL
      rw [hframe] at hf
      exact hpress _ _ g hL hregion hf
    · obtain ⟨hdown', hfollow', hanchor, hframe, htip⟩ := hkeep hdown hfollow
      rw [hanchor] at hf ⊢
      rw [hframe] at hf
      rcases htip with htip | hL
      · rw [htip]
        exact h.tip hdown' hfollow' g hf
      · exact htrace _ g hL hregion hf

end Placing

/-- Only a change of the frames gives a canvas a region. -/
theorem Move.frame_base (hm : Move L d e) (hreframe : ¬ L.reframe) {c : Canvas} {f : Frame K}
    (hf : e.frame c = some f) (hregion : f.hasRegion) : d.frame c = some f := by
  have hpage : ∀ (page : Canvas) (frame : Option (Frame K)), (frame = some f → d.frame page = some f) →
      Function.update d.frame page frame c = some f → d.frame c = some f := by
    intro page frame hframe hupdate
    by_cases hc : c = page
    · subst hc
      rw [Function.update_self] at hupdate
      exact hframe hupdate
    · rwa [Function.update_of_ne hc] at hupdate
  cases hm with
  | attach win width height habsent =>
    refine hpage (some win) (some .blank) (fun hblank => ?_) hf
    obtain rfl := Option.some.inj hblank
    simp [Frame.blank, Frame.hasRegion] at hregion
  | detach win =>
    rw [Drawing.liftFrom_frame] at hf
    exact hpage (some win) none nofun hf
  | wipe C => rwa [Drawing.liftFrom_frame] at hf
  | repaint page strokes strokes' surface frame hrepaint hstrokes hsub hcur hsurface hkeep hframe =>
    refine hpage page frame (fun hsome => ?_) hf
    by_contra hne
    exact hreframe (hframe fun heq => hne (heq ▸ hsome)).1
  | reframe page f' f'' h hframe hno hno' => exact absurd h hreframe
  | _ => exact hf

/-- A sequence of moves that presses and draws only where `Q` says, and does not change
frames meanwhile. -/
theorem Traces.placed {Q : Canvas → InkPoint K → Frame K → Prop} (ht : Traces L d e) (hs : Sound d)
    (hfun : ∀ c q q' f f', Q c q f → Q c q' f' → q.stamp = q'.stamp → f = f')
    (hpress : ∀ c tip f, L.press c true tip → f.hasRegion → d.frame c = some f → Q c tip f)
    (htrace : ∀ c tip f, L.trace c tip → f.hasRegion → d.frame c = some f → Q c tip f)
    (hreframe : ∀ c tip, L.press c true tip ∨ L.trace c tip → ¬ L.reframe)
    (h : Placed Q d) : Placed Q e := by
  have hinv : Placed Q e ∧ Sound e ∧
      (¬ L.reframe → ∀ c f, e.frame c = some f → f.hasRegion → d.frame c = some f) := by
    refine ht.invariant (P := fun u => Placed Q u ∧ Sound u ∧
        (¬ L.reframe → ∀ c f, u.frame c = some f → f.hasRegion → d.frame c = some f))
      (fun u v hm hu => ?_) ⟨h, hs, fun _ _ _ hf _ => hf⟩
    obtain ⟨hplaced, hsound, hbase⟩ := hu
    refine ⟨hm.placed hfun (fun c tip f hL hregion hf => ?_) (fun tip f hL hregion hf => ?_) hsound hplaced,
      hm.sound hsound, fun hno c f hf hregion => hbase hno c f (hm.frame_base hno hf hregion) hregion⟩
    · exact hpress c tip f hL hregion (hbase (hreframe c tip (.inl hL)) c f hf hregion)
    · exact htrace _ tip f hL hregion (hbase (hreframe _ tip (.inr hL)) _ f hf hregion)
  exact hinv.1

end Annotations
