import Annotations.Tracing.Invariants

/-! What is painted on the canvases covers what a replay of the strokes covers, but for
a dot in flight, as long as no move leaves a dot stranded, inks outside the region, or
stores a point that the replay takes elsewhere. -/

namespace Annotations

variable {K : Type} [Scalar K] {L : Permit K} {d e : Drawing K} {c : Canvas}
  {surface : Surface K} {ops : List (PaintOp K)} {extra extra' : Set (K × K)} {p : K × K}

/-- On the surface the paint covers what the segments cover, except that some of
`extra` may be missing. -/
structure Matches (surface : Surface K) (ops : List (PaintOp K)) (extra : Set (K × K)) : Prop where
  sound : ∀ p ∈ surface.extent, p ∈ inkOf surface.ops → p ∈ inkOf ops
  complete : ∀ p ∈ surface.extent, p ∈ inkOf ops → p ∈ inkOf surface.ops ∨ p ∈ extra

theorem Matches.of_ops (h : surface.ops = ops) : Matches surface ops ∅ :=
  ⟨fun _ _ hp => h ▸ hp, fun _ _ hp => .inl (h ▸ hp)⟩

theorem Matches.mono (h : Matches surface ops extra) (hsub : extra ⊆ extra') :
    Matches surface ops extra' :=
  ⟨h.sound, fun p hp hop => (h.complete p hp hop).imp id fun hextra => hsub hextra⟩

theorem Matches.inked_eq (h : Matches surface ops ∅) :
    surface.inked = ({ surface with ops := ops } : Surface K).inked := by
  ext p
  constructor
  · rintro ⟨hp, hink⟩
    exact ⟨hp, h.sound p hp hink⟩
  · rintro ⟨hp, hink⟩
    exact ⟨hp, (h.complete p hp hink).resolve_right (Set.notMem_empty p)⟩

/-- What may be missing on a canvas: the dot in flight. -/
def Drawing.missing (d : Drawing K) (c : Canvas) : Set (K × K) := {p | c = d.anchor ∧ p ∈ d.loneInk}

/-- Every canvas shows what a replay would paint, but for the dot in flight. -/
def Agrees (d : Drawing K) : Prop :=
  ∀ c strokes surface, d.strokes c = some strokes → d.surface c = some surface →
    Matches surface (printed (d.frame c) strokes) (d.missing c)

/-- Every canvas shows what a replay would paint. -/
def Exact (d : Drawing K) : Prop :=
  ∀ c strokes surface, d.strokes c = some strokes → d.surface c = some surface →
    Matches surface (printed (d.frame c) strokes) ∅

theorem Exact.agrees (h : Exact d) : Agrees d := fun c strokes surface hstrokes hsurface =>
  (h c strokes surface hstrokes hsurface).mono (Set.empty_subset _)

/-- A dot in flight that is painted is no exception. -/
theorem Agrees.exact (h : Agrees d) (hstranded : ¬ d.Stranded) : Exact d := by
  intro c strokes surface hstrokes hsurface
  have hmatches := h c strokes surface hstrokes hsurface
  refine ⟨hmatches.sound, fun p hp hop => .inl ?_⟩
  rcases hmatches.complete p hp hop with hink | ⟨rfl, hlone⟩
  · exact hink
  · have hpainted : surface.extent ∩ d.loneInk ⊆ inkOf surface.ops := by
      by_contra hnot
      exact hstranded ⟨surface, hsurface, hnot⟩
    exact hpainted ⟨hp, hlone⟩

theorem not_stranded_of_current (hcur : d.current = none) : ¬ d.Stranded := by
  rintro ⟨surface, _, hnot⟩
  refine hnot fun p hp => ?_
  obtain ⟨before, s, q, hs, _⟩ := hp.2
  simp [hcur] at hs

/-! ### Leaving a canvas -/

omit [Scalar K] in
theorem setPage_setPage {strokes strokes' : Option (List (Stroke K))} {surface surface' : Option (Surface K)}
    {frame frame' : Option (Frame K)} :
    (d.setPage c strokes surface frame).setPage c strokes' surface' frame' =
      d.setPage c strokes' surface' frame' := by
  simp [Drawing.setPage]

/-- A stranded point depends on the anchor canvas alone. -/
theorem Drawing.Stranded.congr (h : e.Stranded) (hanchor : e.anchor = d.anchor)
    (hcurrent : e.current = d.current) (hstrokes : e.strokes d.anchor = d.strokes d.anchor)
    (hsurface : e.surface d.anchor = d.surface d.anchor)
    (hframe : e.frame d.anchor = d.frame d.anchor) : d.Stranded := by
  obtain ⟨surface, hsurface', hnot⟩ := h
  rw [hanchor, hsurface] at hsurface'
  refine ⟨surface, hsurface', fun hsub => hnot fun p hp => hsub ⟨hp.1, ?_⟩⟩
  obtain ⟨before, s, q, hcur, hs, hpoints, hink⟩ := hp.2
  rw [hanchor, hstrokes] at hs
  rw [hanchor, hframe] at hink
  exact ⟨before, s, q, hcurrent ▸ hcur, hs, hpoints, hink⟩

/-- A new canvas strands no point. -/
theorem Drawing.Stranded.of_attach {surface' : Option (Surface K)} {frame : Option (Frame K)}
    (h : (d.setPage c (some []) surface' frame).Stranded) : d.Stranded := by
  by_cases hc : d.anchor = c
  · obtain ⟨surface, _, hnot⟩ := h
    refine absurd (fun p hp => ?_) hnot
    obtain ⟨before, s, q, _, hs, _⟩ := hp.2
    simp [Drawing.setPage, hc] at hs
  · exact h.congr rfl rfl (by simp [Drawing.setPage, hc]) (by simp [Drawing.setPage, hc])
      (by simp [Drawing.setPage, hc])

/-- Nothing is stranded on a canvas that shows its strokes. -/
theorem not_stranded_setPage {strokes : List (Stroke K)} {target : Option (Surface K)}
    {frame : Option (Frame K)} (hops : ∀ surface, target = some surface → surface.ops = printed frame strokes) :
    ¬ (d.setPage d.anchor (some strokes) target frame).Stranded := by
  rintro ⟨surface, hsurface, hnot⟩
  obtain rfl : target = some surface := by simpa [Drawing.setPage] using hsurface
  refine hnot fun p hp => ?_
  obtain ⟨before, s, q, _, hs, _, hink⟩ := hp.2
  obtain rfl : strokes = before ++ [s] := by simpa [Drawing.setPage] using hs
  have hframe : (d.setPage d.anchor (some (before ++ [s])) (some surface) frame).frame d.anchor = frame :=
    Function.update_self ..
  have hanchor : (d.setPage d.anchor (some (before ++ [s])) (some surface) frame).anchor = d.anchor := rfl
  rw [hanchor, hframe] at hink
  rw [hops surface rfl]
  exact mem_inkOf_flatMap.mpr ⟨s, by simp, hink⟩

/-- Nor while the last stroke is no single point. -/
theorem not_stranded_of_last {before : List (Stroke K)} {s : Stroke K}
    (hstrokes : d.strokes d.anchor = some (before ++ [s])) (hpoints : ∀ q, s.points ≠ [q]) :
    ¬ d.Stranded := by
  rintro ⟨surface, _, hnot⟩
  refine hnot fun p hp => ?_
  obtain ⟨before', s', q, _, hs', hq, _⟩ := hp.2
  rw [hstrokes, Option.some.injEq] at hs'
  obtain ⟨_, hlast⟩ := List.append_inj' hs' rfl
  obtain rfl : s = s' := by simpa using hlast
  exact absurd hq (hpoints q)

/-- Clearing canvases strands no point. -/
theorem Drawing.Stranded.of_wipe {C : Canvas → Bool} (h : ((d.wipe C).liftFrom C).Stranded) :
    d.Stranded := by
  have hanchor : (d.wipe C).anchor = d.anchor := rfl
  unfold Drawing.liftFrom at h
  cases hC : C d.anchor with
  | true =>
    simp only [hanchor, hC, if_true] at h
    exact absurd h (not_stranded_of_current rfl)
  | false =>
    simp only [hanchor, hC, Bool.false_eq_true, if_false] at h
    exact h.congr rfl rfl (by simp [Drawing.wipe, hC]) (by simp [Drawing.wipe, hC]) rfl

/-- The anchor canvas showing its strokes. -/
def Drawing.painted (d : Drawing K) (strokes : List (Stroke K)) : Drawing K :=
  d.setPage d.anchor (some strokes)
    ((d.surface d.anchor).map fun surface =>
      { surface with ops := printed (d.frame d.anchor) strokes })
    (d.frame d.anchor)

theorem not_stranded_painted {strokes : List (Stroke K)} : ¬ (d.painted strokes).Stranded := by
  refine not_stranded_setPage fun surface hsurface => ?_
  obtain ⟨_, _, rfl⟩ := Option.map_eq_some_iff.mp hsurface
  rfl

section Leaving
variable {strokes strokes' : List (Stroke K)} {target : Option (Surface K)} {frame : Option (Frame K)}
  (hrepaint : L.repaint) (hstrokes : d.strokes d.anchor = some strokes)
  (hsub : strokes'.Sublist strokes)
  (hsurface : ∀ surface, target = some surface → surface.ops = printed frame strokes')
  (hkeep : target = none → d.surface d.anchor = none)
include hrepaint hstrokes

theorem traces_painted : Traces L d (d.painted strokes) := by
  refine (Move.repaint d.anchor strokes strokes _ _ hrepaint hstrokes (List.Sublist.refl _)
    (fun _ => .inr rfl) (fun surface hsurface => ?_) (by simp) fun h => absurd rfl h).traces
  obtain ⟨_, _, rfl⟩ := Option.map_eq_some_iff.mp hsurface
  rfl

include hsub hsurface hkeep

/-- The pen is lifted or the stroke in flight sealed, and the canvas the pen was on
repainted with some strokes less. It is painted in full before, so that no point is left
stranded. -/
theorem traces_leave (hleave : Move L (d.painted strokes) e) (hcur : e.current = none)
    (hpage : e.strokes = (d.painted strokes).strokes ∧ e.surface = (d.painted strokes).surface ∧
      e.frame = (d.painted strokes).frame)
    (hreframe : frame ≠ d.frame d.anchor → L.reframe ∧ (d.frame d.anchor).isSome ∧ frame.isSome ∧
      (d.anchor = e.anchor → e.down → e.follow = false)) :
    Traces L d (e.setPage d.anchor (some strokes') target frame) := by
  obtain ⟨hestrokes, hesurface, heframe⟩ := hpage
  have hrest : Move L e (e.setPage d.anchor (some strokes') target frame) := by
    refine .repaint d.anchor strokes strokes' target frame hrepaint ?_ hsub (fun _ => .inl hcur) hsurface
      (fun hnone => ?_) fun h => ?_
    · rw [hestrokes]
      exact Function.update_self ..
    · rw [hesurface]
      exact (Function.update_self ..).trans (by rw [hkeep hnone]; rfl)
    · have hframe : e.frame d.anchor = d.frame d.anchor := by
        rw [heframe]
        exact Function.update_self ..
      rw [hframe] at h ⊢
      exact hreframe h
  exact ((traces_painted hrepaint hstrokes).trans hleave.traces).trans hrest.traces

theorem Traces.dropRepaint (hframe : frame = d.frame d.anchor) :
    Traces L d ({ d with current := none }.setPage d.anchor (some strokes') target frame) := by
  have hdrop : Move L (d.painted strokes) { d.painted strokes with current := none } :=
    .drop fun h => absurd h not_stranded_painted
  have htraces := traces_leave hrepaint hstrokes hsub hsurface hkeep hdrop rfl ⟨rfl, rfl, rfl⟩
    fun h => absurd hframe h
  have hpage : { d.painted strokes with current := none }.setPage d.anchor (some strokes') target frame =
      { d with current := none }.setPage d.anchor (some strokes') target frame :=
    setPage_setPage (d := { d with current := none })
  rwa [hpage] at htraces

theorem Traces.liftRepaint (follow : Bool)
    (hreframe : frame ≠ d.frame d.anchor → L.reframe ∧ (d.frame d.anchor).isSome ∧ frame.isSome) :
    Traces L d ((d.lift follow).setPage d.anchor (some strokes') target frame) := by
  have hlift : Move L (d.painted strokes) ((d.painted strokes).lift follow) :=
    .lift follow fun h => absurd h not_stranded_painted
  have htraces := traces_leave hrepaint hstrokes hsub hsurface hkeep hlift rfl ⟨rfl, rfl, rfl⟩ fun h => by
    obtain ⟨hL, hold, hnew⟩ := hreframe h
    exact ⟨hL, hold, hnew, nofun⟩
  have hpage : ((d.painted strokes).lift follow).setPage d.anchor (some strokes') target frame =
      (d.lift follow).setPage d.anchor (some strokes') target frame :=
    setPage_setPage (d := d.lift follow)
  rwa [hpage] at htraces

end Leaving

/-! ### Segments -/

/-- What a replay covers of the segment to `tip`: the part inside the region, when it
follows the scroll. -/
def Drawing.segmentInk (d : Drawing K) (tip : InkPoint K) : Set (K × K) :=
  {p | p ∈ (d.segment tip).inked ∧
    (d.follow → ∃ f, d.frame d.anchor = some f ∧ p ∈ f.region)}

/-- The context the strokes of the pen are replayed in, and what it makes of a segment
whose ends it takes back to where the pen was. -/
theorem replayed_segment (h : Sound d) (hdown : d.down) : ∃ cr : CairoContext K,
    (∀ s : Stroke K, s.followScroll = d.follow →
      printStroke (d.frame d.anchor) s = rasterizeStrokeOnCr cr s) ∧
    ∀ rgba q tip, d.Stores d.tip q → ¬ d.Blurs q tip →
      (drawInkSegment cr rgba q (d.stored tip)).inked = d.segmentInk tip := by
  cases hd : d.follow with
  | false =>
    refine ⟨cairoCreate, fun s hs => by simp [printStroke, hs], fun rgba q tip hq _ => ?_⟩
    have hstored : d.stored tip = tip := by simp [Drawing.stored, hd]
    rw [(Drawing.stores_of_not_follow hd).mp hq, hstored]
    ext p
    rw [Drawing.segmentInk]
    simp only [hd, Bool.false_eq_true, false_implies, and_true]
    rfl
  | true =>
    obtain ⟨f, hf, hregion⟩ := h.followed hdown hd
    refine ⟨f.followContext, fun s hs => by simp [printStroke, hs, hf, hregion], fun rgba q tip hq hblur => ?_⟩
    have hstored : d.stored tip = f.stored tip := by simp [Drawing.stored, hd, hf]
    obtain ⟨hshows, hshows'⟩ : f.Shows q d.tip ∧ f.Shows (f.stored tip) tip := by
      by_contra hnot
      exact hblur ⟨hd, f, hf, hnot⟩
    have hends : q.shift f.followContext.translation = d.tip ∧
        (f.stored tip).shift f.followContext.translation = tip :=
      ⟨((Drawing.stores_of_follow hd hf).mp hq).shift_eq hshows, Frame.Stores.shift_eq (.inr rfl) hshows'⟩
    ext p
    rw [hstored, mem_inked_follow d.rgba, hends.1, hends.2]
    constructor
    · rintro ⟨hp, hseg⟩
      exact ⟨hseg, fun _ => ⟨f, hf, hp⟩⟩
    · rintro ⟨hseg, hp⟩
      obtain ⟨f', hf', hp'⟩ := hp hd
      obtain rfl : f = f' := Option.some.inj (hf.symm.trans hf')
      exact ⟨hp', hseg⟩

section Growing
variable (h : Sound d) (hdown : d.down) {s : Stroke K} (hfollow : s.followScroll = d.follow)
  {q tip : InkPoint K} (hq : d.Stores d.tip q) (hblur : ¬ d.Blurs q tip)
include h hdown hfollow hq hblur

/-- The replay of a stroke that ends at the tip grows by the segment. -/
theorem inkOf_printStroke_append (hlast : s.points.getLast? = some q) :
    inkOf (printStroke (d.frame d.anchor) (strokeAppendPoint s (d.stored tip))) =
      inkOf (printStroke (d.frame d.anchor) s) ∪ d.segmentInk tip := by
  obtain ⟨cr, hprint, hsegment⟩ := replayed_segment h hdown
  rw [hprint s hfollow, hprint (strokeAppendPoint s _) hfollow,
    inkOf_rasterizeStrokeOnCr_append hlast, hsegment _ _ _ hq hblur]

/-- A dot at the tip is covered by every segment from there. -/
theorem inkOf_printStroke_dot (hpoints : s.points = [q]) :
    inkOf (printStroke (d.frame d.anchor) s) ⊆ d.segmentInk tip := by
  obtain ⟨cr, hprint, hsegment⟩ := replayed_segment h hdown
  have hdot : rasterizeStrokeOnCr cr s = [drawInkSegment cr s.rgba q q] := by
    rw [rasterizeStrokeOnCr, hpoints]
  rw [hprint _ hfollow, hdot, inkOf_singleton, ← hsegment s.rgba q tip hq hblur]
  exact inked_dot_subset

end Growing

theorem loneInk_subset (h : Sound d) (hdown : d.down) {before : List (Stroke K)} {s : Stroke K}
    {q tip : InkPoint K} (hcur : d.current = some s.addr) (hstrokes : d.strokes d.anchor = some (before ++ [s]))
    (hlast : s.points.getLast? = some q) (hblur : ¬ d.Blurs q tip) : d.loneInk ⊆ d.segmentInk tip := by
  rintro p ⟨before', s', q', hcur', hstrokes', hpoints, hp⟩
  obtain ⟨hfollow, q₀, hlast', hq⟩ := h.last hcur hstrokes
  obtain rfl : q = q₀ := Option.some.inj (hlast.symm.trans hlast')
  rw [hstrokes, Option.some.injEq] at hstrokes'
  obtain rfl : s = s' := by simpa using (List.append_inj' hstrokes' rfl).2
  obtain rfl : q' = q := by simpa [hpoints] using hlast
  exact inkOf_printStroke_dot h hdown hfollow hq hblur hpoints hp

/-- One more stroke, none of which needs to be painted. -/
theorem Matches.snoc {frame : Option (Frame K)} {strokes : List (Stroke K)} {s : Stroke K}
    (h : Matches surface (printed frame strokes) ∅) (hs : inkOf (printStroke frame s) ⊆ extra) :
    Matches surface (printed frame (strokes ++ [s])) extra := by
  have hprinted : inkOf (printed frame (strokes ++ [s])) =
      inkOf (printed frame strokes) ∪ inkOf (printStroke frame s) := by
    simp only [printed, List.flatMap_append, List.flatMap_singleton, inkOf_append]
  refine ⟨fun p hp hink => ?_, fun p hp hink => ?_⟩
  · rw [hprinted]
    exact .inl (h.sound p hp hink)
  · rw [hprinted] at hink
    rcases hink with hink | hink
    · exact .inl ((h.complete p hp hink).resolve_right (Set.notMem_empty p))
    · exact .inr (hs hink)

/-- Painting a segment that does not leak makes up for the dot in flight. -/
theorem matches_paint {before : List (Stroke K)} {s s' : Stroke K} {tip : InkPoint K}
    (hsurface : d.surface d.anchor = some surface) (hleak : ¬ d.Leaks tip)
    (hfollowed : d.follow → ∃ f, d.frame d.anchor = some f)
    (hold : Matches surface (printed (d.frame d.anchor) (before ++ [s])) (d.segmentInk tip))
    (hgrown : inkOf (printStroke (d.frame d.anchor) s') =
      inkOf (printStroke (d.frame d.anchor) s) ∪ d.segmentInk tip) :
    Matches { surface with ops := surface.ops ++ [d.segment tip] }
      (printed (d.frame d.anchor) (before ++ [s'])) ∅ := by
  have hinside : ∀ p ∈ surface.extent, p ∈ (d.segment tip).inked →
      p ∈ inkOf surface.ops ∨ p ∈ d.segmentInk tip := by
    intro p hp hseg
    by_cases hink : p ∈ inkOf surface.ops
    · exact .inl hink
    · refine .inr ⟨hseg, fun hfollow => ?_⟩
      obtain ⟨f, hf⟩ := hfollowed hfollow
      refine ⟨f, hf, ?_⟩
      by_contra hout
      exact hleak ⟨hfollow, f, surface, hf, hsurface, fun hsub => (hsub ⟨hp, hseg⟩).elim hout hink⟩
  have hprinted : inkOf (printed (d.frame d.anchor) (before ++ [s'])) =
      inkOf (printed (d.frame d.anchor) (before ++ [s])) ∪ d.segmentInk tip := by
    simp only [printed, List.flatMap_append, List.flatMap_singleton, inkOf_append, hgrown,
      Set.union_assoc]
  refine ⟨fun p hp hink => ?_, fun p hp hink => .inl ?_⟩
  · rw [hprinted]
    rw [inkOf_append, inkOf_singleton] at hink
    rcases hink with hink | hseg
    · exact .inl (hold.sound p hp hink)
    · exact (hinside p hp hseg).imp (hold.sound p hp) id
  · rw [hprinted] at hink
    rw [inkOf_append, inkOf_singleton]
    rcases hink with hink | hseg
    · exact (hold.complete p hp hink).imp id And.left
    · exact .inr hseg.1

/-! ### Moves -/

/-- The canvases are the same and there is no dot in flight. -/
theorem Exact.of_same (h : Exact d) (hstrokes : e.strokes = d.strokes) (hsurface : e.surface = d.surface)
    (hframe : e.frame = d.frame) : Exact e := by
  intro c strokes surface hs hsu
  rw [hframe]
  exact h c strokes surface (hstrokes ▸ hs) (hsurface ▸ hsu)

/-- A canvas on which nothing differs from its replay is set up or repainted. -/
theorem Agrees.setPage (h : Agrees d) {strokes : Option (List (Stroke K))}
    {surface : Option (Surface K)} {frame : Option (Frame K)}
    (hpage : ∀ all target, strokes = some all → surface = some target →
      Matches target (printed frame all) ∅) :
    Agrees (d.setPage c strokes surface frame) := by
  intro c' all target hall htarget
  by_cases hc : c' = c
  · subst hc
    simp only [Drawing.setPage, Function.update_self] at hall htarget
    have hnew := hpage all target hall htarget
    simpa [Drawing.setPage] using hnew.mono (Set.empty_subset _)
  · simp only [Drawing.setPage, Function.update_of_ne hc] at hall htarget
    have hmissing : d.missing c' ⊆ (d.setPage c strokes surface frame).missing c' := by
      rintro p ⟨rfl, hlone⟩
      refine ⟨rfl, ?_⟩
      simpa [Drawing.loneInk, Drawing.setPage, hc] using hlone
    simpa [Drawing.setPage, hc] using (h c' all target hall htarget).mono hmissing

/-- The pen is lifted from a canvas where nothing differs from the replay. -/
theorem Agrees.liftFrom (h : Agrees d) {C : Canvas → Bool} (hC : ∀ c strokes surface, C c →
    d.strokes c = some strokes → d.surface c = some surface →
      Matches surface (printed (d.frame c) strokes) ∅) : Agrees (d.liftFrom C) := by
  unfold Drawing.liftFrom
  split_ifs with hanchor
  · have hexact : Exact d := by
      intro c strokes surface hstrokes hsurface
      by_cases hc : c = d.anchor
      · exact hC c strokes surface (hc ▸ hanchor) hstrokes hsurface
      · exact (h c strokes surface hstrokes hsurface).mono fun p hp => absurd hp.1 hc
    have hlifted : Exact (d.lift d.follow) := hexact.of_same rfl rfl rfl
    exact hlifted.agrees
  · exact h

theorem Agrees.wipe (h : Agrees d) (C : Canvas → Bool) : Agrees (d.wipe C) := by
  intro c strokes surface hstrokes hsurface
  have hframe : (d.wipe C).frame = d.frame := rfl
  rw [hframe]
  simp only [Drawing.wipe] at hstrokes hsurface
  cases hC : C c with
  | true =>
    simp only [hC, if_true, Option.map_eq_some_iff] at hstrokes hsurface
    obtain ⟨_, _, rfl⟩ := hstrokes
    obtain ⟨_, _, rfl⟩ := hsurface
    exact (Matches.of_ops rfl).mono (Set.empty_subset _)
  | false =>
    simp only [hC, Bool.false_eq_true, if_false] at hstrokes hsurface
    refine (h c strokes surface hstrokes hsurface).mono ?_
    rintro p ⟨rfl, hlone⟩
    refine ⟨rfl, ?_⟩
    simpa [Drawing.loneInk, Drawing.wipe, hC] using hlone

/-- A segment is painted where the stroke takes it up. -/
theorem Agrees.paint (h : Agrees d) {strokes : List (Stroke K)} {tip : InkPoint K}
    (hpage : Matches { surface with ops := surface.ops ++ [d.segment tip] }
      (printed (d.frame d.anchor) strokes) ∅)
    (hstrokes : e.strokes = Function.update d.strokes d.anchor (some strokes))
    (hsurface : e.surface = Function.update d.surface d.anchor
      (some { surface with ops := surface.ops ++ [d.segment tip] }))
    (hframe : e.frame = d.frame) : Exact e := by
  intro c all target hall htarget
  rw [hstrokes] at hall
  rw [hsurface] at htarget
  rw [hframe]
  by_cases hc : c = d.anchor
  · subst hc
    rw [Function.update_self, Option.some.injEq] at hall htarget
    subst hall htarget
    exact hpage
  · rw [Function.update_of_ne hc] at hall htarget
    exact (h c all target hall htarget).mono fun p hp => absurd hp.1 hc

/-- A dot is put down where there was none in flight. -/
theorem Exact.dot (h : Exact d) {strokes : List (Stroke K)} (hstrokes : d.strokes d.anchor = some strokes)
    (q : InkPoint K) : Agrees (d.openWith [q] strokes) := by
  intro c all surface hall hsurface
  have hframe : (d.openWith [q] strokes).frame = d.frame := rfl
  rw [hframe]
  by_cases hc : c = d.anchor
  · subst hc
    simp only [Drawing.openWith, Function.update_self, Option.some.injEq] at hall
    subst hall
    refine (h _ strokes surface hstrokes hsurface).snoc fun p hdot => ?_
    exact ⟨rfl, strokes, d.sketch [q], q, by simp [Drawing.openWith], by simp [Drawing.openWith],
      d.sketch_points _, hdot⟩
  · simp only [Drawing.openWith, Function.update_of_ne hc] at hall
    exact (h c all surface hall hsurface).mono (Set.empty_subset _)

theorem Move.agrees (hm : Move L d e) (hstrand : ¬ L.strand) (hleak : ¬ L.leak) (hblur : ¬ L.blur)
    (hs : Sound d) (h : Agrees d) : Agrees e := by
  have hfollowed : d.down → d.follow → ∃ f, d.frame d.anchor = some f := fun hdown hfollow =>
    (hs.followed hdown hfollow).imp fun _ => And.left
  cases hm with
  | press c follow tip hpress hstamp hc hfollow hstranded =>
    exact Exact.agrees ((h.exact (mt hstranded hstrand)).of_same rfl rfl rfl)
  | dot strokes hpress hstamp hdown hcur hstrokes =>
    exact (h.exact (not_stranded_of_current hcur)).dot hstrokes _
  | resume strokes surface tip hink htrace hstamp hdown hcur hstrokes hsurface hleaks hblurs =>
    have hdot := (h.exact (not_stranded_of_current hcur) _ _ _ hstrokes hsurface).snoc
      (inkOf_printStroke_dot hs hdown (s := d.sketch [d.stored d.tip]) (d.sketch_followScroll _) (.inr rfl)
        (mt hblurs hblur) (d.sketch_points _))
    have hgrown := inkOf_printStroke_append hs hdown (s := d.sketch [d.stored d.tip])
      (d.sketch_followScroll _) (.inr rfl) (mt hblurs hblur) (by simp)
    exact Exact.agrees (h.paint (matches_paint hsurface (mt hleaks hleak) (hfollowed hdown) hdot hgrown)
      rfl rfl rfl)
  | extend before s surface tip hink htrace hstamp hdown hcur hstrokes hsurface hleaks hblurs htint =>
    obtain ⟨hfollow, q, hlast, hq⟩ := hs.last hcur hstrokes
    have hclear : ¬ d.Blurs q tip := mt (hblurs q hlast) hblur
    have hold := (h d.anchor _ surface hstrokes hsurface).mono
      fun p hp => loneInk_subset hs hdown hcur hstrokes hlast hclear hp.2
    have hpage := matches_paint hsurface (mt hleaks hleak) (hfollowed hdown) hold
      (inkOf_printStroke_append hs hdown hfollow hq hclear hlast)
    exact Exact.agrees (h.paint hpage rfl rfl rfl)
  | hover tip htrace hstamp hdown hcur =>
    exact Exact.agrees ((h.exact (not_stranded_of_current hcur)).of_same rfl rfl rfl)
  | lift follow hstranded => exact Exact.agrees ((h.exact (mt hstranded hstrand)).of_same rfl rfl rfl)
  | drop hstranded => exact Exact.agrees ((h.exact (mt hstranded hstrand)).of_same rfl rfl rfl)
  | recolour rgba hrecolour => exact h
  | attach win width height habsent =>
    refine h.setPage fun all target hall htarget => ?_
    obtain rfl : [] = all := Option.some.inj hall
    obtain rfl : cairoSurfaceNewCleared width height = target := Option.some.inj htarget
    exact .of_ops rfl
  | detach win =>
    have hremoved : Agrees (d.setPage (some win) none none none) := h.setPage nofun
    refine hremoved.liftFrom fun c strokes surface hc hstrokes => ?_
    rw [decide_eq_true_eq] at hc
    simp [hc, Drawing.setPage] at hstrokes
  | wipe C =>
    refine (h.wipe C).liftFrom fun c strokes surface hC hstrokes hsurface => ?_
    simp only [Drawing.wipe, hC, if_true, Option.map_eq_some_iff] at hstrokes hsurface ⊢
    obtain ⟨_, _, rfl⟩ := hstrokes
    obtain ⟨_, _, rfl⟩ := hsurface
    exact .of_ops rfl
  | repaint c strokes strokes' surface frame hrepaint hstrokes hsub hcur hsurface hkeep hreframe =>
    refine h.setPage fun all target hall htarget => ?_
    obtain rfl : strokes' = all := Option.some.inj hall
    exact .of_ops (hsurface target htarget)
  | reframe c f f' hreframe hframe hno hno' =>
    have hsame : ∀ c' s, printStroke (Function.update d.frame c (some f') c') s =
        printStroke (d.frame c') s := by
      intro c' s
      by_cases hc : c' = c
      · subst hc
        rw [Function.update_self, hframe, printStroke_congr hno hno']
      · rw [Function.update_of_ne hc]
    intro c' strokes surface hstrokes hsurface
    have hprinted : printed (Function.update d.frame c (some f') c') strokes =
        printed (d.frame c') strokes := List.flatMap_congr fun s _ => hsame c' s
    rw [hprinted]
    refine (h c' strokes surface hstrokes hsurface).mono fun p hp => ⟨hp.1, ?_⟩
    simpa [Drawing.loneInk, hsame] using hp.2

theorem Traces.agrees (ht : Traces L d e) (hstrand : ¬ L.strand) (hleak : ¬ L.leak) (hblur : ¬ L.blur)
    (hs : Sound d) (h : Agrees d) : Agrees e := by
  have hinv : Sound e ∧ Agrees e := by
    refine ht.invariant (P := fun d => Sound d ∧ Agrees d) (fun d e hm hd => ?_) ⟨hs, h⟩
    exact ⟨hm.sound hd.1, hm.agrees hstrand hleak hblur hd.1 hd.2⟩
  exact hinv.2

end Annotations
