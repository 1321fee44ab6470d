import Annotations.Gestures.Clearing
import Annotations.Runs.Albums

/-! The ink of a layer as an album: the pages are the canvases and the entries the strokes, which are
numbered by their addresses. What the pen does to it is a turn that takes nothing. -/

namespace Annotations

open Albums Sheets

variable {K : Type} [Scalar K]

/-- A stroke grows by points at its end. -/
def Stroke.growth (K : Type) : Growth (Stroke K) where
  number := Stroke.addr
  Grows s t := t.addr = s.addr ∧ t.rgba = s.rgba ∧ t.followScroll = s.followScroll ∧ s.points <+: t.points
  refl _ := ⟨rfl, rfl, rfl, List.prefix_refl _⟩
  trans h h' :=
    ⟨h'.1.trans h.1, h'.2.1.trans h.2.1, h'.2.2.1.trans h.2.2.1, h.2.2.2.trans h'.2.2.2⟩
  number_eq h := h.1

/-- The point is stored in the stroke at the address. -/
def Stroke.appendAt (addr : ℕ) (pt : InkPoint K) (s : Stroke K) : Stroke K :=
  if s.addr = addr then strokeAppendPoint s pt else s

theorem Stroke.grows_appendAt (addr : ℕ) (pt : InkPoint K) (s : Stroke K) :
    (Stroke.growth K).Grows s (s.appendAt addr pt) := by
  unfold appendAt
  split_ifs
  · exact ⟨rfl, rfl, rfl, by simp⟩
  · exact (Stroke.growth K).refl s

theorem Stroke.appendAt_of_ne {addr : ℕ} {pt : InkPoint K} {s : Stroke K} (h : s.addr ≠ addr) : s.appendAt addr pt = s :=
  if_neg h

namespace MetaAnnotationLayer

section
variable (layer : MetaAnnotationLayer K)

/-- The strokes of a canvas; one without a record has none. -/
def inkOn (c : Canvas) : List (Stroke K) := (layer.canvasStrokes c).getD []

def album : Album Canvas (Stroke K) := ⟨layer.inkOn, layer.nextStroke, layer.currentStroke⟩

end

variable {layer layer' : MetaAnnotationLayer K} {c : Canvas} {win : WindowId}

omit [Scalar K] in
theorem mem_inkOn {s : Stroke K} : s ∈ layer.inkOn c ↔ ∃ strokes, layer.canvasStrokes c = some strokes ∧ s ∈ strokes := by
  unfold inkOn
  cases layer.canvasStrokes c <;> simp

omit [Scalar K] in
theorem album_congr (hpage : layer'.canvasStrokes = layer.canvasStrokes) (hnext : layer'.nextStroke = layer.nextStroke)
    (hcurrent : layer'.currentStroke = layer.currentStroke) : layer'.album = layer.album := by
  have hink : layer'.inkOn = layer.inkOn := funext fun c => congrArg (·.getD []) (congrFun hpage c)
  rw [album, hink, hnext, hcurrent, album]

omit [Scalar K] in
theorem album_of_drawing (h : layer'.drawing = layer.drawing) : layer'.album = layer.album :=
  album_congr (congrArg Drawing.strokes h) (congrArg Drawing.next h) (congrArg Drawing.current h)

omit [Scalar K] in
theorem numbered_of_wellFormed (hwf : WellFormed layer.sheets) : Numbered (Stroke.growth K) layer.album where
  lt c s hs := by
    obtain ⟨strokes, hstrokes, hmem⟩ := mem_inkOn.mp hs
    refine hwf.distinct.fresh c s.addr ?_
    rw [addrs_sheets hstrokes]
    exact List.mem_map_of_mem hmem
  unique c c' s hs s' hs' haddr := by
    obtain ⟨strokes, hstrokes, hmem⟩ := mem_inkOn.mp hs
    obtain ⟨others, hothers, hmem'⟩ := mem_inkOn.mp hs'
    have ha : s.addr ∈ addrs layer.sheets.ink c := by
      rw [addrs_sheets hstrokes]
      exact List.mem_map_of_mem hmem
    have ha' : s.addr ∈ addrs layer.sheets.ink c' := by
      rw [addrs_sheets hothers]
      exact List.mem_map.mpr ⟨s', hmem', haddr.symm⟩
    obtain rfl := hwf.distinct.disjoint c c' s.addr ha ha'
    obtain rfl : strokes = others := Option.some.inj (hstrokes.symm.trans hothers)
    have hnodup := hwf.distinct.nodup c
    rw [addrs_sheets hstrokes] at hnodup
    exact ⟨rfl, List.inj_on_of_nodup_map hnodup hmem hmem' haddr⟩

/-! ### Writes -/

omit [Scalar K] in
theorem inkOn_setCanvasStrokes {strokes : List (Stroke K)} (h : (layer.canvasStrokes c).isSome) :
    (layer.setCanvasStrokes c strokes).inkOn = Function.update layer.inkOn c strokes := by
  obtain ⟨old, hold⟩ := Option.isSome_iff_exists.mp h
  funext c'
  unfold inkOn
  rw [canvasStrokes_setCanvasStrokes, hold]
  by_cases hc : c' = c
  · subst hc
    simp
  · simp [hc]

omit [Scalar K] in
theorem inkOn_modifyCanvasSurface (f : Surface K → Surface K) :
    (layer.modifyCanvasSurface c f).inkOn = layer.inkOn := by
  funext c'
  rw [inkOn, canvasStrokes_modifyCanvasSurface, inkOn]

omit [Scalar K] in
theorem inkOn_modifyInk {f : WindowInk K → WindowInk K}
    (hf : ∀ ink, layer.perWindow win = some ink → (f ink).strokes = ink.strokes) :
    (layer.modifyInk win f).inkOn = layer.inkOn := by
  funext c
  rw [inkOn, canvasStrokes_modifyInk hf, inkOn]

omit [Scalar K] in
theorem inkOn_writeStroke (addr : ℕ) (f : Stroke K → Stroke K) :
    (layer.writeStroke addr f).inkOn c = (layer.inkOn c).map fun s => if s.addr = addr then f s else s := by
  cases c with
  | none => rfl
  | some win => cases hink : layer.perWindow win <;> simp [inkOn, canvasStrokes, writeStroke, hink]

omit [Scalar K] in
theorem album_modifyCanvasSurface (f : Surface K → Surface K) :
    (layer.modifyCanvasSurface c f).album = layer.album := by
  have hink : (layer.modifyCanvasSurface c f).inkOn = layer.inkOn := inkOn_modifyCanvasSurface f
  unfold album
  rw [hink]
  cases c <;> rfl

omit [Scalar K] in
theorem album_setCanvas {strokes : List (Stroke K)} {f : Surface K → Surface K} (h : (layer.canvasStrokes c).isSome) :
    ((layer.setCanvasStrokes c strokes).modifyCanvasSurface c f).album =
      { layer.album with page := Function.update layer.inkOn c strokes } := by
  rw [album_modifyCanvasSurface, album, inkOn_setCanvasStrokes h]
  cases c <;> rfl

/-! ### The pen -/

/-- A window gets a record without strokes. -/
theorem inkOn_ensureWindowInk : (layer.ensureWindowInk win).inkOn = layer.inkOn := by
  unfold ensureWindowInk
  cases hink : layer.perWindow win with
  | some ink => rfl
  | none =>
    dsimp only
    split_ifs
    · rfl
    · funext c
      cases c with
      | none => rfl
      | some w =>
        by_cases hw : w = win
        · subst hw
          simp [inkOn, canvasStrokes, hink]
        · simp [inkOn, canvasStrokes, hw]

omit [Scalar K] in
theorem draws_openStroke {strokes : List (Stroke K)} (hstrokes : layer.canvasStrokes c = some strokes)
    (followScroll : Bool) : Draws (Stroke.growth K) layer.album (layer.openStroke c strokes followScroll).album where
  page c' := by
    let s : Stroke K := { strokeNew layer.nextStroke layer.rgba with followScroll := followScroll }
    have hink : (layer.openStroke c strokes followScroll).inkOn =
        Function.update layer.inkOn c (strokes ++ [s]) := inkOn_setCanvasStrokes (by rw [hstrokes]; rfl)
    have hold : layer.inkOn c = strokes := by rw [inkOn, hstrokes, Option.getD_some]
    change Leaf _ _ _ _ (layer.inkOn c') ((layer.openStroke c strokes followScroll).inkOn c')
    rw [hink]
    by_cases hc : c' = c
    · subst hc
      rw [Function.update_self, hold]
      refine .of_append rfl fun t ht => ?_
      rw [List.mem_singleton.mp ht]
      exact le_rfl
    · rw [Function.update_of_ne hc]
      exact .of_eq rfl
  next := Nat.le_succ _
  current n hn := .inr (Option.some.inj hn).le

/-- The stroke in flight gets a point. -/
theorem draws_writeStroke {addr : ℕ} (hcurrent : layer.currentStroke = some addr) (pt : InkPoint K) :
    Draws (Stroke.growth K) layer.album (layer.writeStroke addr fun s => strokeAppendPoint s pt).album where
  page _ := .of_map (Stroke.appendAt addr pt) (inkOn_writeStroke addr _) (Stroke.grows_appendAt addr pt)
    fun _ _ hs => Stroke.appendAt_of_ne fun haddr => hs (hcurrent.trans (congrArg some haddr.symm))
  next := le_rfl
  current _ hn := .inl hn

theorem draws_appendInkPoint (layer : MetaAnnotationLayer K) (c : Canvas) (pt : InkPoint K) (followScroll : Bool) :
    Draws (Stroke.growth K) layer.album (layer.appendInkPoint c pt followScroll).album := by
  unfold appendInkPoint
  cases hstrokes : layer.canvasStrokes c with
  | none => exact .refl
  | some strokes =>
    dsimp only
    cases hcurrent : layer.currentStroke with
    | none =>
      simp only [Option.isNone_none, if_true]
      exact (draws_openStroke hstrokes followScroll).trans (draws_writeStroke rfl pt)
    | some addr =>
      simp only [Option.isNone_some, Bool.false_eq_true, if_false, hcurrent]
      exact draws_writeStroke hcurrent pt

theorem draws_placeStroke (x y : K) (pressure tiltFactor : Option K) :
    Draws (Stroke.growth K) layer.album (layer.placeStroke x y pressure tiltFactor).album := by
  have hensured : ∀ picked : MetaAnnotationLayer K, picked.album = { layer.album with current := none } →
      ∀ win, (picked.ensureWindowInk win).album = { layer.album with current := none } := by
    intro picked hpicked win
    have hself : picked.ensureWindowInk win = { picked with perWindow := (picked.ensureWindowInk win).perWindow } :=
      ensureWindowInk_eq rfl rfl
    have hnext : (picked.ensureWindowInk win).nextStroke = picked.nextStroke := by rw [hself]
    have hcurrent : (picked.ensureWindowInk win).currentStroke = picked.currentStroke := by rw [hself]
    rw [← hpicked, album, inkOn_ensureWindowInk, hnext, hcurrent, album]
  have halbum : (layer.placeStroke x y pressure tiltFactor).album = { layer.album with current := none } := by
    unfold placeStroke
    cases layer.pickAnchorWindow x y with
    | none => rfl
    | some win => exact hensured _ rfl win
  rw [halbum]
  exact .of_page rfl rfl (.inr rfl)

theorem draws_beginStroke (x y : K) (pressure tiltFactor : Option K) (erase : Bool) :
    Draws (Stroke.growth K) layer.album (layer.beginStroke x y pressure tiltFactor erase).album := by
  have hplaced := layer.draws_placeStroke x y pressure tiltFactor
  unfold beginStroke
  generalize layer.placeStroke x y pressure tiltFactor = placed at hplaced
  cases erase with
  | true => exact hplaced
  | false =>
    simp only [Bool.false_eq_true, if_false]
    exact hplaced.trans (draws_appendInkPoint { placed with
      strokeFollowScroll := placed.pressFollowsScroll false
      lastInkAnchor := placed.strokeAnchor
      lastInkPresent := true } ..)

theorem draws_continueInk (lx ly pEnd tEnd : K) :
    Draws (Stroke.growth K) layer.album (layer.continueInk lx ly pEnd tEnd).album := by
  unfold continueInk
  split
  · dsimp only
    generalize hpainted : layer.modifyCanvasSurface layer.strokeAnchor _ = painted
    have halbum : painted.album = layer.album := hpainted ▸ album_modifyCanvasSurface _
    rw [← halbum]
    split_ifs
    · exact (draws_appendInkPoint ..).trans (draws_appendInkPoint ..)
    · exact draws_appendInkPoint ..
  · exact .refl

/-! ### Calls -/

omit [Scalar K] in
theorem draws_of_drawing (h : layer'.drawing = layer.drawing) : Draws (Stroke.growth K) layer.album layer'.album := by
  rw [album_of_drawing h]
  exact .refl

omit [Scalar K] in
/-- The pen is lifted. -/
theorem draws_of_lift {followScroll : Bool} (h : layer'.drawing = layer.drawing.lift followScroll) :
    Draws (Stroke.growth K) layer.album layer'.album := by
  have hpage : layer'.canvasStrokes = layer.canvasStrokes := congrArg Drawing.strokes h
  exact .of_page (funext fun c => congrArg (·.getD []) (congrFun hpage c)) (congrArg Drawing.next h)
    (.inr (congrArg Drawing.current h))

omit [Scalar K] in
theorem draws_sealStroke (followScroll : Bool) :
    Draws (Stroke.growth K) layer.album (layer.sealStroke followScroll).album := draws_of_lift rfl

omit [Scalar K] in
theorem draws_setActive (active : Bool) : Draws (Stroke.growth K) layer.album (layer.setActive active).album := by
  unfold setActive
  rw [album_of_drawing drawing_updateActorVisibility]
  cases active with
  | true => exact .refl
  | false => exact .of_page rfl rfl (.inr rfl)

omit [Scalar K] in
theorem draws_setPaused (paused : Bool) : Draws (Stroke.growth K) layer.album (layer.setPaused paused).album := by
  unfold setPaused
  dsimp only
  rw [album_of_drawing drawing_updateActorVisibility]
  split_ifs
  · exact draws_sealStroke layer.strokeFollowScroll
  · exact .refl
  · exact draws_sealStroke layer.strokeFollowScroll
  · exact .refl

omit [Scalar K] in
/-- A record is rewritten with its strokes, and the stroke in flight may be sealed. -/
theorem draws_modifyInk {f : WindowInk K → WindowInk K}
    (hf : ∀ ink, layer.perWindow win = some ink → (f ink).strokes = ink.strokes) :
    Draws (Stroke.growth K) layer.album (layer.modifyInk win f).album :=
  .of_page (inkOn_modifyInk hf) rfl (.inl rfl)

theorem draws_setEditorRegionOf (x y w h : ℤ) :
    Draws (Stroke.growth K) layer.album (layer.setEditorRegionOf x y w h win).album := by
  have hself : layer.ensureWindowInk win = { layer with perWindow := (layer.ensureWindowInk win).perWindow } :=
    ensureWindowInk_eq rfl rfl
  have hensured : Draws (Stroke.growth K) layer.album (layer.ensureWindowInk win).album :=
    .of_page inkOn_ensureWindowInk (by rw [hself]; rfl) (.inl (by rw [hself]; rfl))
  refine hensured.trans ?_
  unfold setEditorRegionOf
  dsimp only
  generalize layer.ensureWindowInk win = ensured
  split
  · exact .refl
  next ink hink =>
    generalize hregion : (if w ≤ 0 ∨ h ≤ 0 then _ else _ : WindowInk K) = region
    have hstrokes : region.strokes = ink.strokes := by
      rw [← hregion]
      split_ifs <;> rfl
    generalize hrepainted : (if ink.hasEditorRegion || region.hasEditorRegion then _ else _ : WindowInk K) = repainted
    have hstrokes' : repainted.strokes = ink.strokes := by
      rw [← hrepainted]
      split_ifs <;> exact hstrokes
    have hmodified : Draws (Stroke.growth K) ensured.album (ensured.modifyInk win fun _ => repainted).album :=
      draws_modifyInk fun old hold => hstrokes'.trans (by rw [Option.some.inj (hink.symm.trans hold)])
    split_ifs
    · exact hmodified.trans (draws_sealStroke false)
    · exact hmodified

theorem draws_setScrollOf (scrollX scrollY : ℤ) :
    Draws (Stroke.growth K) layer.album (layer.setScrollOf scrollX scrollY win).album := by
  unfold setScrollOf
  split
  · exact .refl
  next ink hink =>
    split_ifs with hsame
    · exact .refl
    dsimp only
    generalize hscrolled : WindowInk.mk _ ink.strokes _ _ _ _ _ _ _ _ _ = scrolled
    have hmodified : Draws (Stroke.growth K) layer.album (layer.modifyInk win fun _ => scrolled).album :=
      draws_modifyInk fun old hold => by rw [← hscrolled, Option.some.inj (hink.symm.trans hold)]
    split_ifs
    · exact hmodified.trans (draws_sealStroke false)
    · exact hmodified

omit [Scalar K] in
theorem draws_foldl {f : MetaAnnotationLayer K → WindowId → MetaAnnotationLayer K}
    (hf : ∀ layer win, Draws (Stroke.growth K) layer.album (f layer win).album) (wins : List WindowId) :
    Draws (Stroke.growth K) layer.album (wins.foldl f layer).album := by
  induction wins generalizing layer with
  | nil => exact .refl
  | cons win wins ih => exact (hf layer win).trans ih

theorem draws_setWindowEditorRegion (pid : ℕ) (x y w h : ℤ) :
    Draws (Stroke.growth K) layer.album (layer.setWindowEditorRegion pid x y w h).album := by
  unfold setWindowEditorRegion
  dsimp only
  split_ifs
  · exact .refl
  · rw [album_of_drawing drawing_scheduleRecompose]
    exact draws_foldl (fun _ _ => draws_setEditorRegionOf x y w h) _

theorem draws_setWindowScroll (pid : ℕ) (scrollX scrollY : ℤ) :
    Draws (Stroke.growth K) layer.album (layer.setWindowScroll pid scrollX scrollY).album := by
  unfold setWindowScroll
  dsimp only
  split_ifs
  · exact .refl
  · rw [album_of_drawing drawing_scheduleRecompose]
    exact draws_foldl (fun _ _ => draws_setScrollOf scrollX scrollY) _

theorem draws_onStageSizeChanged (width height : ℤ) :
    Draws (Stroke.growth K) layer.album (layer.onStageSizeChanged width height).album := by
  have hbuffers : (layer.recreateBuffers width height).album = layer.album := by
    unfold recreateBuffers
    split_ifs
    · rfl
    · dsimp only
      rw [album_of_drawing drawing_scheduleRecompose]
      exact album_congr (funext fun c => by cases c <;> rfl) rfl rfl
  unfold onStageSizeChanged
  rw [← hbuffers]
  exact draws_sealStroke _

omit [Scalar K] in
theorem draws_onSignal {handler : MetaAnnotationLayer K → MetaAnnotationLayer K}
    (h : Draws (Stroke.growth K) layer.album (handler layer).album) :
    Draws (Stroke.growth K) layer.album (layer.onSignal win handler).album := by
  unfold onSignal
  split_ifs
  · exact h
  · exact .refl

theorem draws_windowFrameChanged (frame : MtkRectangle) :
    Draws (Stroke.growth K) layer.album (layer.windowFrameChanged win frame).album := by
  have hresized : ∀ layer : MetaAnnotationLayer K,
      Draws (Stroke.growth K) layer.album (layer.onWindowSizeChanged win).album := by
    intro layer
    unfold onWindowSizeChanged windowInkResizeToFrame
    rw [album_of_drawing drawing_scheduleRecompose]
    dsimp only
    split_ifs
    · exact .refl
    · refine draws_modifyInk fun ink _ => ?_
      split_ifs <;> rfl
  unfold windowFrameChanged
  dsimp only
  generalize hmoved : layer.setDisplay _ = moved
  have halbum : moved.album = layer.album := hmoved ▸ album_of_drawing (drawing_setDisplay _)
  rw [← halbum]
  have hshifted : (moved.onSignal win (·.onWindowPositionChanged)).album = moved.album :=
    album_of_drawing (drawing_onSignal fun _ => drawing_scheduleRecompose)
  split_ifs
  · rw [← hshifted]
    exact draws_onSignal (hresized _)
  · exact draws_onSignal (hresized _)
  · rw [hshifted]
    exact .refl
  · exact .refl

end MetaAnnotationLayer

end Annotations
