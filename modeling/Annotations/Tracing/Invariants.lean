import Annotations.Tracing.Drawing

/-! What all moves keep: the stroke in flight is the last one of the anchor canvas and
ends where the tip of the pen is stored (`Sound`); and what the moves keep that leave no
point stranded, no ink outside the region and no point that the replay takes elsewhere:
what is painted on the canvases covers what a replay covers, but for a dot in flight
(`Agrees`). -/

namespace Annotations

variable {K : Type} [Scalar K] {L : Permit K} {d e : Drawing K} {c : Canvas}

/-! ### Sketches -/

theorem foldl_strokeAppendPoint (points : List (InkPoint K)) (s : Stroke K) :
    (points.foldl strokeAppendPoint s).points = s.points ++ points ∧
      (points.foldl strokeAppendPoint s).addr = s.addr ∧
      (points.foldl strokeAppendPoint s).rgba = s.rgba ∧
      (points.foldl strokeAppendPoint s).followScroll = s.followScroll := by
  induction points generalizing s with
  | nil => simp
  | cons p points ih =>
    obtain ⟨hpoints, haddr, hrgba, hfollow⟩ := ih (strokeAppendPoint s p)
    refine ⟨?_, haddr, hrgba, hfollow⟩
    simp [hpoints]

namespace Drawing

@[simp] theorem sketch_points (points : List (InkPoint K)) : (d.sketch points).points = points :=
  (foldl_strokeAppendPoint ..).1

@[simp] theorem sketch_addr (points : List (InkPoint K)) : (d.sketch points).addr = d.next :=
  (foldl_strokeAppendPoint ..).2.1

@[simp] theorem sketch_rgba (points : List (InkPoint K)) : (d.sketch points).rgba = d.rgba :=
  (foldl_strokeAppendPoint ..).2.2.1

@[simp] theorem sketch_followScroll (points : List (InkPoint K)) :
    (d.sketch points).followScroll = d.follow :=
  (foldl_strokeAppendPoint ..).2.2.2

/-- How points are stored depends on the frame of the anchor alone, and on nothing for a
stroke that does not follow the scroll. -/
theorem stores_congr (hfollow : e.follow = d.follow)
    (hframe : d.follow = true → e.frame e.anchor = d.frame d.anchor) : e.Stores = d.Stores := by
  funext tip q
  unfold Stores pressed stored
  rw [hfollow]
  cases h : d.follow with
  | false => rfl
  | true => rw [hframe h]

theorem stores_of_follow {f : Frame K} {tip q : InkPoint K} (hfollow : d.follow = true)
    (hframe : d.frame d.anchor = some f) : d.Stores tip q ↔ f.Stores tip q := by
  simp only [Stores, pressed, stored, hfollow, hframe, if_true, Option.elim_some]
  exact Iff.rfl

theorem stores_of_not_follow {tip q : InkPoint K} (hfollow : d.follow = false) : d.Stores tip q ↔ q = tip := by
  simp [Stores, pressed, stored, hfollow]

/-- Storing moves only the position. -/
theorem Stores.rest_eq {tip q : InkPoint K} (h : d.Stores tip q) :
    q.pressure = tip.pressure ∧ q.tiltFactor = tip.tiltFactor ∧ q.stamp = tip.stamp := by
  by_cases hfollow : d.follow = true
  · cases hframe : d.frame d.anchor with
    | none =>
      obtain rfl : q = tip := by simpa [Stores, pressed, stored, hframe] using h
      exact ⟨rfl, rfl, rfl⟩
    | some f => exact Frame.Stores.rest_eq ((stores_of_follow hfollow hframe).mp h)
  · obtain rfl : q = tip := (stores_of_not_follow (by simpa using hfollow)).mp h
    exact ⟨rfl, rfl, rfl⟩

end Drawing

/-! ### The stroke in flight -/

/-- The stroke in flight is the last one of the anchor canvas and ends at the tip of the
pen, and it follows the scroll only while there is a region. -/
structure Sound (d : Drawing K) : Prop where
  nonempty : ∀ c strokes, d.strokes c = some strokes → ∀ s ∈ strokes, s.points ≠ []
  framed : ∀ c, (d.frame c).isSome → (d.strokes c).isSome
  followed : d.down → d.follow → ∃ f, d.frame d.anchor = some f ∧ f.hasRegion
  inFlight : ∀ a, d.current = some a → d.down ∧ ∃ before s,
    d.strokes d.anchor = some (before ++ [s]) ∧ s.addr = a ∧ s.followScroll = d.follow ∧
      ∃ q, s.points.getLast? = some q ∧ d.Stores d.tip q

namespace Sound

variable (h : Sound d)
include h

/-- The stroke in flight, found where the pen is. -/
theorem last {before : List (Stroke K)} {s : Stroke K} (hcur : d.current = some s.addr)
    (hstrokes : d.strokes d.anchor = some (before ++ [s])) :
    s.followScroll = d.follow ∧ ∃ q, s.points.getLast? = some q ∧ d.Stores d.tip q := by
  obtain ⟨_, before', s', hstrokes', _, hfollow, hlast⟩ := h.inFlight _ hcur
  rw [hstrokes, Option.some.injEq] at hstrokes'
  obtain ⟨_, hs⟩ := List.append_inj' hstrokes' rfl
  obtain rfl : s = s' := by simpa using hs
  exact ⟨hfollow, hlast⟩

theorem noCurrent : Sound { d with current := none } where
  nonempty := h.nonempty
  framed := h.framed
  followed := h.followed
  inFlight := nofun

theorem lift (follow : Bool) : Sound (d.lift follow) where
  nonempty := h.nonempty
  framed := h.framed
  followed := nofun
  inFlight := nofun

/-- A new stroke on the anchor canvas that ends at the tip. -/
theorem openWith (hdown : d.down) {strokes : List (Stroke K)} (points : List (InkPoint K)) {q : InkPoint K}
    (hq : d.Stores d.tip q) (hstrokes : d.strokes d.anchor = some strokes) :
    Sound (d.openWith (points ++ [q]) strokes) where
  nonempty c strokes' hstrokes' s hs := by
    by_cases hc : c = d.anchor
    · subst hc
      simp only [Drawing.openWith, Function.update_self, Option.some.injEq] at hstrokes'
      subst hstrokes'
      rcases List.mem_append.mp hs with hs | hs
      · exact h.nonempty _ _ hstrokes s hs
      · rw [List.mem_singleton.mp hs]
        simp
    · refine h.nonempty c strokes' ?_ s hs
      simpa [Drawing.openWith, hc] using hstrokes'
  framed c hc := by
    by_cases hanchor : c = d.anchor
    · simp [Drawing.openWith, hanchor]
    · simpa [Drawing.openWith, hanchor] using h.framed c hc
  followed := h.followed
  inFlight a ha := by
    obtain rfl : d.next = a := Option.some.inj ha
    exact ⟨hdown, strokes, _, Function.update_self .., d.sketch_addr _, d.sketch_followScroll _,
      q, by simp, hq⟩

/-- The pen moves while there is no stroke in flight. -/
theorem hover (hcur : d.current = none) (tip : InkPoint K) : Sound { d with tip := tip } where
  nonempty := h.nonempty
  framed := h.framed
  followed := h.followed
  inFlight a ha := by simp [hcur] at ha

theorem paint (hcur : d.current = none) (surface : Surface K) (tip : InkPoint K) :
    Sound (d.paint surface tip) where
  nonempty := h.nonempty
  framed := h.framed
  followed := h.followed
  inFlight a ha := by simp [Drawing.paint, hcur] at ha

/-- A canvas is set up, repainted or removed. The one in hand keeps its strokes while one
is in flight, and its frame while that follows the scroll. -/
theorem setPage {strokes : Option (List (Stroke K))} {surface : Option (Surface K)}
    {frame : Option (Frame K)} (hframed : frame.isSome → strokes.isSome)
    (hnonempty : ∀ all, strokes = some all → ∀ s ∈ all, s.points ≠ [])
    (hkeep : c = d.anchor → d.current = none ∨ strokes = d.strokes c)
    (hframe : c = d.anchor → frame = d.frame c ∨ (d.down → d.follow = false)) :
    Sound (d.setPage c strokes surface frame) := by
  have hsame : d.current ≠ none →
      (d.setPage c strokes surface frame).strokes d.anchor = d.strokes d.anchor := by
    intro hcur
    by_cases hc : d.anchor = c
    · subst hc
      simpa [Drawing.setPage] using (hkeep rfl).resolve_left hcur
    · simp [Drawing.setPage, hc]
  have hsame' : d.down → d.follow = true →
      (d.setPage c strokes surface frame).frame d.anchor = d.frame d.anchor := by
    intro hdown hfollow
    by_cases hc : d.anchor = c
    · subst hc
      simpa [Drawing.setPage] using (hframe rfl).resolve_right (by simp [hdown, hfollow])
    · simp [Drawing.setPage, hc]
  refine ⟨fun c' all hall s hs => ?_, fun c' hc' => ?_, fun hdown hfollow => ?_, fun a ha => ?_⟩
  · by_cases hcc : c' = c
    · subst hcc
      exact hnonempty all (by simpa [Drawing.setPage] using hall) s hs
    · exact h.nonempty c' all (by simpa [Drawing.setPage, hcc] using hall) s hs
  · by_cases hcc : c' = c
    · subst hcc
      simpa [Drawing.setPage] using hframed (by simpa [Drawing.setPage] using hc')
    · simpa [Drawing.setPage, hcc] using h.framed c' (by simpa [Drawing.setPage, hcc] using hc')
  · obtain ⟨f, hf, hregion⟩ := h.followed hdown hfollow
    exact ⟨f, (hsame' hdown hfollow).trans hf, hregion⟩
  · obtain ⟨hdown, before, s, hstrokes, haddr, hfollow, hlast⟩ := h.inFlight a ha
    have hcur : d.current ≠ none := by
      rw [show d.current = some a from ha]
      simp
    have hstores : (d.setPage c strokes surface frame).Stores = d.Stores :=
      Drawing.stores_congr rfl (hsame' hdown)
    refine ⟨hdown, before, s, (hsame hcur).trans hstrokes, haddr, hfollow, ?_⟩
    rw [hstores]
    exact hlast

/-- The frame of a canvas without a region changes into another one. -/
theorem reframe {f f' : Frame K} (hframe : d.frame c = some f) (hno : f.hasRegion = false) :
    Sound { d with frame := Function.update d.frame c (some f') } := by
  have hother : d.down → d.follow = true → d.anchor ≠ c := by
    rintro hdown hfollow rfl
    obtain ⟨g, hg, hregion⟩ := h.followed hdown hfollow
    obtain rfl : f = g := Option.some.inj (hframe.symm.trans hg)
    simp [hno] at hregion
  refine ⟨h.nonempty, fun c' hc' => ?_, fun hdown hfollow => ?_, fun a ha => ?_⟩
  · by_cases hcc : c' = c
    · exact hcc ▸ h.framed c (by simp [hframe])
    · exact h.framed c' (by simpa [hcc] using hc')
  · simpa [hother hdown hfollow] using h.followed hdown hfollow
  · obtain ⟨hdown, before, s, hstrokes, haddr, hfollow, hlast⟩ := h.inFlight a ha
    have hstores : ({ d with frame := Function.update d.frame c (some f') } : Drawing K).Stores =
        d.Stores := Drawing.stores_congr rfl fun hfollow' => by simp [hother hdown hfollow']
    refine ⟨hdown, before, s, hstrokes, haddr, hfollow, ?_⟩
    rw [hstores]
    exact hlast

/-- Clearing canvases leaves the stroke in flight alone unless the pen is lifted. -/
theorem wipe (C : Canvas → Bool) (hC : C d.anchor = false ∨ d.current = none) : Sound (d.wipe C) where
  nonempty c strokes hstrokes s hs := by
    simp only [Drawing.wipe] at hstrokes
    split_ifs at hstrokes
    · obtain ⟨_, _, rfl⟩ := Option.map_eq_some_iff.mp hstrokes
      simp at hs
    · exact h.nonempty c strokes hstrokes s hs
  framed c hc := by
    have hstrokes := h.framed c hc
    simp only [Drawing.wipe]
    split_ifs
    · rwa [Option.isSome_map]
    · exact hstrokes
  followed := h.followed
  inFlight a ha := by
    obtain ⟨hdown, before, s, hstrokes, hrest⟩ := h.inFlight a ha
    rcases hC with hC | hC
    · exact ⟨hdown, before, s, by simpa [Drawing.wipe, hC] using hstrokes, hrest⟩
    · simp [Drawing.wipe, hC] at ha

end Sound

theorem Sound.liftFrom {C : Canvas → Bool} (hlifted : C d.anchor → Sound (d.lift d.follow))
    (hrest : C d.anchor = false → Sound d) : Sound (d.liftFrom C) := by
  unfold Drawing.liftFrom
  split_ifs with hanchor
  · exact hlifted hanchor
  · exact hrest (by simpa using hanchor)

theorem Move.sound (hm : Move L d e) (h : Sound d) : Sound e := by
  cases hm with
  | press c follow tip hpress hstamp hc hfollow hstrand =>
    exact ⟨h.nonempty, h.framed, fun _ => hfollow, nofun⟩
  | dot strokes hpress hstamp hdown hcur hstrokes => exact h.openWith hdown [] (.inl rfl) hstrokes
  | resume strokes surface tip hink htrace hstamp hdown hcur hstrokes hsurface hleak hblur =>
    exact (h.paint hcur surface tip).openWith hdown [d.stored d.tip] (.inr rfl) hstrokes
  | extend before s surface tip hink htrace hstamp hdown hcur hstrokes hsurface hleak hblur htint =>
    have hfollow := (h.last hcur hstrokes).1
    refine ⟨fun c strokes' hstrokes' s' hs' => ?_, fun c hc => ?_, h.followed, fun a ha => ?_⟩
    · by_cases hc : c = d.anchor
      · subst hc
        simp only [Function.update_self, Option.some.injEq] at hstrokes'
        subst hstrokes'
        rcases List.mem_append.mp hs' with hs' | hs'
        · exact h.nonempty _ _ hstrokes s' (List.mem_append_left _ hs')
        · simp [List.mem_singleton.mp hs']
      · exact h.nonempty c strokes' (by simpa [Drawing.paint, hc] using hstrokes') s' hs'
    · by_cases hanchor : c = d.anchor
      · simp [hanchor]
      · simpa [hanchor, Drawing.paint] using h.framed c hc
    · obtain rfl : s.addr = a := Option.some.inj (hcur.symm.trans ha)
      exact ⟨hdown, before, _, Function.update_self .., rfl, hfollow, d.stored tip, by simp, .inr rfl⟩
  | hover tip htrace hstamp hdown hcur => exact h.hover hcur tip
  | lift follow hstrand => exact h.lift follow
  | drop hstrand => exact h.noCurrent
  | recolour rgba hrecolour => exact ⟨h.nonempty, h.framed, h.followed, h.inFlight⟩
  | attach win width height habsent =>
    have hcur : some win = d.anchor → d.current = none := by
      intro hanchor
      by_contra hcur
      obtain ⟨a, ha⟩ := Option.ne_none_iff_exists'.mp hcur
      obtain ⟨_, _, _, hstrokes, _⟩ := h.inFlight a ha
      simp [← hanchor, habsent] at hstrokes
    have hframe : d.frame (some win) = none := by
      by_contra hframe
      have hstrokes := h.framed (some win) (Option.isSome_iff_ne_none.mpr hframe)
      simp [habsent] at hstrokes
    refine h.setPage (fun _ => rfl) (by simp) (fun hanchor => .inl (hcur hanchor)) fun hanchor => ?_
    refine .inr fun hdown => ?_
    by_contra hfollow
    obtain ⟨f, hf, _⟩ := h.followed hdown (by simpa using hfollow)
    simp [← hanchor, hframe] at hf
  | detach win =>
    refine Sound.liftFrom (fun _ => ?_) fun hanchor => ?_
    · exact (h.lift d.follow).setPage nofun nofun (fun _ => .inl rfl) (fun _ => .inr nofun)
    · have hne : some win ≠ d.anchor := fun h => by simp [Drawing.setPage, ← h] at hanchor
      exact h.setPage nofun nofun (fun hc => absurd hc hne) (fun hc => absurd hc hne)
  | wipe C =>
    refine Sound.liftFrom (fun _ => ?_) fun hanchor => h.wipe C (.inl hanchor)
    exact ((h.lift d.follow).wipe C (.inr rfl))
  | repaint c strokes strokes' surface frame hrepaint hstrokes hsub hcur hsurface hkeep hreframe =>
    refine h.setPage (fun _ => rfl) (fun all hall s hs => ?_) (fun hc => ?_) fun hc => ?_
    · obtain rfl : strokes' = all := Option.some.inj hall
      exact h.nonempty c strokes hstrokes s (hsub.subset hs)
    · exact (hcur hc).imp id fun hsame => by rw [hsame, hstrokes]
    · by_cases hframe : frame = d.frame c
      · exact .inl hframe
      · exact .inr ((hreframe hframe).2.2.2 hc)
  | reframe c f f' hreframe hframe hno hno' => exact h.reframe hframe hno

theorem Traces.sound (ht : Traces L d e) (h : Sound d) : Sound e :=
  ht.invariant (fun _ _ hm hd => hm.sound hd) h

/-! ### The desktop -/

/-- The desktop keeps its surface. -/
theorem Move.desk (hm : Move L d e) (h : (d.surface none).isSome) : (e.surface none).isSome := by
  have hpaint : ∀ (c : Canvas) (surface : Surface K), (Function.update d.surface c (some surface) none).isSome := by
    intro c surface
    by_cases hc : c = none
    · simp [hc]
    · rwa [Function.update_of_ne (Ne.symm hc)]
  cases hm with
  | press c follow tip hpress hstamp hc hfollow hstrand => exact h
  | dot strokes hpress hstamp hdown hcur hstrokes => exact h
  | resume strokes surface tip hink htrace hstamp hdown hcur hstrokes hsurface hleak hblur => exact hpaint ..
  | extend before s surface tip hink htrace hstamp hdown hcur hstrokes hsurface hleak hblur htint => exact hpaint ..
  | hover tip htrace hstamp hdown hcur => exact h
  | lift follow hstrand => exact h
  | drop hstrand => exact h
  | recolour rgba hrecolour => exact h
  | attach win width height habsent => exact hpaint (some win) (cairoSurfaceNewCleared width height)
  | detach win => simpa [Drawing.setPage] using h
  | wipe C =>
    rw [Drawing.liftFrom_surface, Drawing.wipe]
    dsimp only
    split_ifs
    · rwa [Option.isSome_map]
    · exact h
  | repaint c strokes strokes' surface frame hrepaint hstrokes hsub hcur hsurface hkeep hreframe =>
    cases surface with
    | some surface => exact hpaint c surface
    | none =>
      have hsame : (d.setPage c (some strokes') none frame).surface = d.surface := by
        simp [Drawing.setPage, hkeep rfl]
      rwa [hsame]
  | reframe c f f' hreframe hframe hno hno' => exact h

theorem Traces.desk (ht : Traces L d e) (h : (d.surface none).isSome) : (e.surface none).isSome :=
  ht.invariant (fun _ _ hm hd => hm.desk hd) h

end Annotations
