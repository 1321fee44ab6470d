import Annotations.Tracing.Layer

/-! Beginning and continuing a stroke, as moves of the drawing. -/

namespace Annotations

open Sheets

variable {K : Type} [Scalar K]

namespace MetaAnnotationLayer

variable {layer : MetaAnnotationLayer K} {L : Permit K} {c : Canvas} {win : WindowId}
  {event : ClutterEvent K}

/-! ### Storing points -/

omit [Scalar K] in
/-- A write through the stroke pointer leaves the surfaces and the frames alone. -/
theorem drawing_writeStroke {addr : ℕ} {f : Stroke K → Stroke K}
    {strokes : Canvas → Option (List (Stroke K))}
    (hstrokes : (layer.writeStroke addr f).canvasStrokes = strokes) :
    (layer.writeStroke addr f).drawing = { layer.drawing with strokes := strokes } := by
  refine Drawing.ext rfl rfl rfl rfl rfl rfl rfl rfl hstrokes (funext fun c => ?_) (funext fun c => ?_)
  · cases c with
    | none => rfl
    | some win => simp [drawing, canvasSurface, writeStroke, Function.comp_def]
  · cases c with
    | none => rfl
    | some win =>
      simp only [drawing, anchorInk, writeStroke, Option.bind_some, Option.map_map]
      rfl

/-- With a stroke in flight, a point extends it. -/
theorem drawing_appendInkPoint_some (hwf : WellFormed layer.sheets) {before : List (Stroke K)}
    {s : Stroke K} (hcur : layer.currentStroke = some s.addr)
    (hstrokes : layer.canvasStrokes layer.strokeAnchor = some (before ++ [s])) (pt : InkPoint K)
    (followScroll : Bool) :
    (layer.appendInkPoint layer.strokeAnchor pt followScroll).drawing =
      { layer.drawing with
        strokes := Function.update layer.canvasStrokes layer.strokeAnchor
          (some (before ++ [strokeAppendPoint s pt])) } := by
  obtain ⟨before', s', hstrokes', _, _, hwrite⟩ := (strokeInFlight_of_wellFormed hwf hcur).isLast
  rw [hstrokes, Option.some.injEq] at hstrokes'
  obtain ⟨rfl, hs⟩ := List.append_inj' hstrokes' rfl
  obtain rfl : s = s' := by simpa using hs
  rw [← drawing_writeStroke (hwrite fun s => strokeAppendPoint s pt)]
  simp only [appendInkPoint, hstrokes, hcur, Option.isNone_some, Bool.false_eq_true, if_false]
  rfl

/-- Without a stroke in flight, a point opens one. -/
theorem drawing_appendInkPoint_none (hwf : WellFormed layer.sheets) (hdown : layer.strokeActive)
    {strokes : List (Stroke K)} (hcur : layer.currentStroke = none)
    (hstrokes : layer.canvasStrokes layer.strokeAnchor = some strokes) (pt : InkPoint K) :
    (layer.appendInkPoint layer.strokeAnchor pt layer.strokeFollowScroll).drawing =
      layer.drawing.openWith [pt] strokes := by
  let s : Stroke K := { strokeNew layer.nextStroke layer.rgba with followScroll := layer.strokeFollowScroll }
  let opened := layer.openStroke layer.strokeAnchor strokes layer.strokeFollowScroll
  have hcanvas : (layer.canvasStrokes layer.strokeAnchor).isSome := by rw [hstrokes]; rfl
  have hset : (layer.setCanvasStrokes layer.strokeAnchor (strokes ++ [s])).drawing = _ :=
    drawing_setCanvasStrokes hcanvas
  have hdrawing : opened.drawing = { layer.drawing with
      strokes := Function.update layer.canvasStrokes layer.strokeAnchor (some (strokes ++ [s]))
      current := some layer.nextStroke
      next := layer.nextStroke + 1 } :=
    congrArg (fun d : Drawing K =>
      { d with current := some layer.nextStroke, next := layer.nextStroke + 1 }) hset
  have hwf' : WellFormed opened.sheets := by
    have hstart := hwf.start hdown []
    rw [← sheets_openStroke hstrokes] at hstart
    exact ⟨hstart.roomy, hstart.anchored, hstart.recalled, hstart.distinct, hstart.inFlight⟩
  have hopened : opened.canvasStrokes opened.strokeAnchor = some (strokes ++ [s]) := by
    have hanchor : opened.strokeAnchor = layer.strokeAnchor := congrArg Drawing.anchor hdrawing
    have hall : opened.canvasStrokes = _ := congrArg Drawing.strokes hdrawing
    rw [hall, hanchor]
    exact Function.update_self ..
  have happend : layer.appendInkPoint layer.strokeAnchor pt layer.strokeFollowScroll =
      opened.appendInkPoint opened.strokeAnchor pt layer.strokeFollowScroll := by
    have hanchor : opened.strokeAnchor = layer.strokeAnchor := congrArg Drawing.anchor hdrawing
    rw [hanchor] at hopened ⊢
    simp only [appendInkPoint, hstrokes, hopened, hcur, Option.isNone_none, if_true]
    rfl
  have hcurrent : opened.currentStroke = some s.addr := rfl
  rw [happend, drawing_appendInkPoint_some hwf' hcurrent hopened, hdrawing]
  refine Drawing.ext rfl rfl rfl rfl rfl rfl rfl rfl ?_ rfl rfl
  have hall : opened.canvasStrokes = _ := congrArg Drawing.strokes hdrawing
  have hanchor : opened.strokeAnchor = layer.strokeAnchor := congrArg Drawing.anchor hdrawing
  rw [hall, hanchor, Function.update_idem]
  rfl

/-- Two points open a stroke through both. -/
theorem drawing_appendInkPoint_seeded (hwf : WellFormed layer.sheets) (hdown : layer.strokeActive)
    {strokes : List (Stroke K)} (hcur : layer.currentStroke = none)
    (hstrokes : layer.canvasStrokes layer.strokeAnchor = some strokes) (pPrev pNew : InkPoint K)
    (followScroll : Bool) :
    ((layer.appendInkPoint layer.strokeAnchor pPrev layer.strokeFollowScroll).appendInkPoint
      layer.strokeAnchor pNew followScroll).drawing = layer.drawing.openWith [pPrev, pNew] strokes := by
  generalize hseeded : layer.appendInkPoint layer.strokeAnchor pPrev layer.strokeFollowScroll = seeded
  have hopened : seeded.drawing = layer.drawing.openWith [pPrev] strokes :=
    hseeded ▸ drawing_appendInkPoint_none hwf hdown hcur hstrokes pPrev
  have hwf' : WellFormed seeded.sheets := by
    rw [← hseeded, sheets_appendInkPoint_none hwf hcur]
    exact hwf.start hdown _
  have hanchor : seeded.strokeAnchor = layer.strokeAnchor := congrArg Drawing.anchor hopened
  have hcurrent : seeded.currentStroke = some (layer.drawing.sketch [pPrev]).addr :=
    congrArg Drawing.current hopened
  have hall : seeded.canvasStrokes = _ := congrArg Drawing.strokes hopened
  have hlast : seeded.canvasStrokes seeded.strokeAnchor =
      some (strokes ++ [layer.drawing.sketch [pPrev]]) := by
    rw [hall, hanchor]
    exact Function.update_self ..
  rw [← hanchor, drawing_appendInkPoint_some hwf' hcurrent hlast, hopened, hanchor, hall]
  refine Drawing.ext rfl rfl rfl rfl rfl rfl rfl rfl ?_ rfl rfl
  exact Function.update_idem ..

/-! ### The pen -/

omit [Scalar K] in
theorem drawing_frame_anchor :
    layer.drawing.frame layer.drawing.anchor = (layer.anchorInk layer.strokeAnchor).map WindowInk.frame := rfl

/-- A stroke under way stores the position of the pen moved by the offset. -/
theorem drawing_stored (tip : InkPoint K) : layer.drawing.stored tip = tip.moved layer.followOffset := by
  have hfollow : layer.drawing.follow = layer.strokeFollowScroll := rfl
  unfold Drawing.stored followOffset
  rw [drawing_frame_anchor, hfollow]
  cases layer.anchorInk layer.strokeAnchor <;> cases layer.strokeFollowScroll <;> rfl

theorem seedPoint_eq : layer.seedPoint = layer.drawing.stored layer.drawing.tip := (drawing_stored _).symm

/-- A press stores the position of the pen. -/
theorem pressPoint_eq : layer.pressPoint = layer.drawing.pressed layer.drawing.tip := by
  have hfollow : layer.drawing.follow = layer.strokeFollowScroll := rfl
  unfold pressPoint Drawing.pressed
  rw [drawing_frame_anchor, hfollow]
  cases layer.anchorInk layer.strokeAnchor <;> cases layer.strokeFollowScroll <;> rfl

/-- Where an event takes the pen. -/
def nextTip (layer : MetaAnnotationLayer K) (stageX stageY : K) (pressure tiltFactor : Option K) :
    InkPoint K :=
  let here := layer.convertStageToLocal stageX stageY
  ⟨here.1, here.2, pressure.getD layer.lastPressure, tiltFactor.getD layer.lastTiltFactor,
    layer.ledger.clock⟩

/-! ### Continuing -/

/-- A canvas that ink can go to has a surface. -/
def AnchorReady (layer : MetaAnnotationLayer K) : Prop :=
  (layer.canvasSurface layer.strokeAnchor).isSome

omit [Scalar K] in
theorem canvasSurface_setCanvasStrokes (strokes : List (Stroke K)) :
    (layer.setCanvasStrokes c strokes).canvasSurface = layer.canvasSurface := by
  funext c'
  cases c with
  | none => cases c' <;> rfl
  | some win =>
    cases c' with
    | none => rfl
    | some w =>
      by_cases hw : w = win
      · subst hw
        simp [setCanvasStrokes, canvasSurface, modifyInk, Function.comp_def]
      · simp [setCanvasStrokes, canvasSurface, modifyInk, hw]

/-- Storing a point paints nothing. -/
theorem canvasSurface_appendInkPoint (pt : InkPoint K) (followScroll : Bool) :
    (layer.appendInkPoint c pt followScroll).canvasSurface = layer.canvasSurface := by
  have hwrite : ∀ (l : MetaAnnotationLayer K) addr f ledger,
      ({ l.writeStroke addr f with ledger := ledger } : MetaAnnotationLayer K).canvasSurface =
        l.canvasSurface := by
    intro l addr f ledger
    funext c
    cases c with
    | none => rfl
    | some win => simp [canvasSurface, writeStroke, Function.comp_def]
  unfold appendInkPoint
  split
  · rfl
  next strokes hstrokes =>
    dsimp only
    split_ifs
    · exact (hwrite _ _ _ _).trans (canvasSurface_setCanvasStrokes _)
    · split
      · rfl
      · exact hwrite _ _ _ _

theorem canvasSurface_continueInk {surface : Surface K} {strokes : List (Stroke K)}
    (hsurface : layer.canvasSurface layer.strokeAnchor = some surface)
    (hstrokes : layer.canvasStrokes layer.strokeAnchor = some strokes) (tip : InkPoint K) :
    (layer.continueInk tip.x tip.y tip.pressure tip.tiltFactor).canvasSurface layer.strokeAnchor =
      some { surface with ops := surface.ops ++ [layer.drawing.segment tip] } := by
  have hpainted : (layer.modifyCanvasSurface layer.strokeAnchor fun target =>
      { target with ops := target.ops ++ [layer.drawing.segment tip] }).drawing = _ :=
    drawing_modifyCanvasSurface _
  have hmodified := congrFun (congrArg Drawing.surface hpainted) layer.strokeAnchor
  simp only [hsurface, Option.map_some, Function.update_self] at hmodified
  simp only [continueInk, hsurface, hstrokes, canvasSurface_appendInkPoint]
  split_ifs
  · rw [canvasSurface_appendInkPoint]
    exact hmodified
  · exact hmodified

/-- Inking to `tip` stores a point of a stroke that follows the scroll which the replay takes
elsewhere, or goes on from one. -/
def Blurs (layer : MetaAnnotationLayer K) (tip : InkPoint K) : Prop :=
  layer.currentStroke = none ∧ layer.drawing.Blurs layer.seedPoint tip ∨
    ∃ before s q, layer.currentStroke = some s.addr ∧
      layer.canvasStrokes layer.strokeAnchor = some (before ++ [s]) ∧ s.points.getLast? = some q ∧
        layer.drawing.Blurs q tip

theorem not_blurs_of_not_follow (hfollow : layer.drawing.follow = false) (tip : InkPoint K) : ¬ layer.Blurs tip := by
  rintro (⟨_, h, _⟩ | ⟨_, _, _, _, _, _, h, _⟩) <;> simp [hfollow] at h

/-- Painting a segment and storing it extends the stroke in flight, or starts one, and
leaves no single point. -/
theorem traces_continueInk (hwf : WellFormed layer.sheets) (hs : Sound layer.drawing)
    (hready : layer.AnchorReady)
    (hdown : layer.strokeActive) (tip : InkPoint K) (hink : L.ink) (htrace : L.trace layer.strokeAnchor tip)
    (hstamp : tip.stamp = layer.ledger.clock) (hleak : layer.drawing.Leaks tip → L.leak)
    (hblur : layer.Blurs tip → L.blur)
    (htint : ∀ before s, layer.canvasStrokes layer.strokeAnchor = some (before ++ [s]) →
      layer.currentStroke = some s.addr → s.rgba ≠ layer.rgba → L.tint) :
    let inked := { (layer.continueInk tip.x tip.y tip.pressure tip.tiltFactor).drawing with tip := tip }
    Traces L layer.drawing inked ∧ ¬ inked.Stranded := by
  intro inked
  obtain ⟨surface, hsurface⟩ := Option.isSome_iff_exists.mp hready
  obtain ⟨strokes, hstrokes⟩ := Option.isSome_iff_exists.mp (isSome_ink ▸ hwf.anchored :
    (layer.canvasStrokes layer.strokeAnchor).isSome)
  let painted := layer.modifyCanvasSurface layer.strokeAnchor fun target =>
    { target with ops := target.ops ++ [layer.drawing.segment tip] }
  have hpainted : painted.drawing = { layer.drawing with
      surface := Function.update layer.canvasSurface layer.strokeAnchor
        (some { surface with ops := surface.ops ++ [layer.drawing.segment tip] }) } := by
    have hmodify : painted.drawing = _ := drawing_modifyCanvasSurface _
    rw [hmodify, hsurface]
    rfl
  have hwf' : WellFormed painted.sheets := by
    have hsheets : painted.sheets = layer.sheets := sheets_modifyCanvasSurface _
    rwa [hsheets]
  have hanchor : painted.strokeAnchor = layer.strokeAnchor := congrArg Drawing.anchor hpainted
  have hfollow : painted.strokeFollowScroll = layer.strokeFollowScroll :=
    congrArg Drawing.follow hpainted
  have hcur' : painted.currentStroke = layer.currentStroke := congrArg Drawing.current hpainted
  have hall : painted.canvasStrokes = layer.canvasStrokes := congrArg Drawing.strokes hpainted
  have hstrokes' : painted.canvasStrokes painted.strokeAnchor = some strokes := by
    rw [hall, hanchor, hstrokes]
  have hnew : (⟨tip.x, tip.y, tip.pressure, tip.tiltFactor, layer.ledger.clock⟩ : InkPoint K).moved
      layer.followOffset = layer.drawing.stored tip := by
    rw [drawing_stored, ← hstamp]
  let seeded := if painted.currentStroke.isNone then
      painted.appendInkPoint layer.strokeAnchor layer.seedPoint painted.strokeFollowScroll
    else painted
  have hcontinue : layer.continueInk tip.x tip.y tip.pressure tip.tiltFactor =
      seeded.appendInkPoint layer.strokeAnchor (layer.drawing.stored tip) seeded.strokeFollowScroll := by
    simp only [continueInk, hsurface, hstrokes, hnew, seeded]
    rfl
  simp only [inked, hcontinue]
  cases hcur : layer.currentStroke with
  | none =>
    have hdown' : painted.strokeActive := (congrArg Drawing.down hpainted).trans hdown
    have hseeded : seeded = painted.appendInkPoint painted.strokeAnchor layer.seedPoint
        painted.strokeFollowScroll := by
      simp only [seeded, hcur', hcur, hanchor, Option.isNone_none, if_true]
    have hopened := drawing_appendInkPoint_seeded hwf' hdown' (hcur'.trans hcur) hstrokes'
      layer.seedPoint (layer.drawing.stored tip) seeded.strokeFollowScroll
    rw [← hseeded, hanchor] at hopened
    rw [hopened, hpainted, seedPoint_eq]
    have hseed : layer.drawing.Blurs (layer.drawing.stored layer.drawing.tip) tip → L.blur := by
      rw [← seedPoint_eq]
      exact fun h => hblur (.inl ⟨hcur, h⟩)
    refine ⟨(Move.resume strokes surface tip hink htrace hstamp hdown hcur hstrokes hsurface hleak hseed).traces,
      not_stranded_of_last (Function.update_self ..) fun q => ?_⟩
    simp
  | some addr =>
    obtain ⟨before, s, hlast, rfl, _, _⟩ := (strokeInFlight_of_wellFormed hwf hcur).isLast
    have hlast' : painted.canvasStrokes painted.strokeAnchor = some (before ++ [s]) := by
      rw [hall, hanchor, hlast]
    have hseeded : seeded = painted := by
      simp only [seeded, hcur', hcur, Option.isNone_some, Bool.false_eq_true, if_false]
    rw [hseeded, ← hanchor, drawing_appendInkPoint_some hwf' (hcur'.trans hcur) hlast', hpainted, hanchor,
      hall]
    have hend : ∀ q, s.points.getLast? = some q → layer.drawing.Blurs q tip → L.blur := fun q hq h =>
      hblur (.inr ⟨before, s, q, hcur, hlast, hq, h⟩)
    refine ⟨(Move.extend before s surface tip hink htrace hstamp hdown hcur hlast hsurface hleak hend
      (htint before s hlast hcur)).traces, not_stranded_of_last (Function.update_self ..) fun q => ?_⟩
    have hne : 0 < s.points.length := List.length_pos_of_ne_nil (hs.nonempty _ _ hlast s (by simp))
    intro hsingle
    have hlength := congrArg List.length hsingle
    rw [strokeAppendPoint_points, List.length_append, List.length_singleton, List.length_singleton] at hlength
    omega

/-- The eraser hits a stroke of the anchor canvas on its way to the point. -/
def hitsStroke (layer : MetaAnnotationLayer K) (tip : InkPoint K) : Bool :=
  ((layer.canvasStrokes layer.strokeAnchor).getD []).any
    (strokeHitBySegment (layer.anchorInk layer.strokeAnchor) layer.strokeLastX layer.strokeLastY
      tip.x tip.y (eraserRadius tip.pressure tip.tiltFactor))

/-- Erasing seals the stroke in flight, and repaints the canvas if a stroke was hit. -/
theorem traces_continueErase (hwf : WellFormed layer.sheets) (hready : layer.AnchorReady)
    (tip : InkPoint K) (hrepaint : L.repaint)
    (hstrand : layer.hitsStroke tip = false → layer.drawing.Stranded → L.strand) :
    Traces L layer.drawing
      (layer.continueErase tip.x tip.y tip.pressure tip.tiltFactor).drawing := by
  obtain ⟨surface, hsurface⟩ := Option.isSome_iff_exists.mp hready
  obtain ⟨strokes, hstrokes⟩ := Option.isSome_iff_exists.mp (isSome_ink ▸ hwf.anchored :
    (layer.canvasStrokes layer.strokeAnchor).isSome)
  generalize hleft : eraseStrokesHitBySegment strokes layer.strokeLastX layer.strokeLastY tip.x tip.y
    (eraserRadius tip.pressure tip.tiltFactor) (layer.anchorInk layer.strokeAnchor) = left
  have hhits : layer.hitsStroke tip = true ↔ 0 < left.2 := by
    rw [← hleft, eraseStrokesHitBySegment_snd_pos, hitsStroke, hstrokes, Option.getD_some]
  have hcontinue : layer.continueErase tip.x tip.y tip.pressure tip.tiltFactor =
      if 0 < left.2 then
        (layer.dropStroke.setCanvasStrokes layer.strokeAnchor left.1).modifyCanvasSurface
          layer.strokeAnchor fun target =>
            rasterizeAllStrokesWithInk target left.1 (layer.anchorInk layer.strokeAnchor)
      else layer.dropStroke := by
    have hsurface' : layer.dropStroke.canvasSurface layer.dropStroke.strokeAnchor = some surface :=
      hsurface
    have hstrokes' : layer.dropStroke.canvasStrokes layer.dropStroke.strokeAnchor = some strokes :=
      hstrokes
    simp only [continueErase, hsurface', hstrokes', ← hleft]
    rfl
  rw [hcontinue]
  split_ifs with hhit
  · have hsub : left.1.Sublist strokes := hleft ▸ eraseStrokesHitBySegment_sublist ..
    have hcanvas : (layer.dropStroke.canvasStrokes layer.strokeAnchor).isSome := by
      have hdrop : layer.dropStroke.canvasStrokes layer.strokeAnchor = some strokes := hstrokes
      rw [hdrop]
      rfl
    have hsurface' : layer.dropStroke.canvasSurface layer.strokeAnchor = some surface := hsurface
    rw [drawing_setCanvas hcanvas, hsurface', Option.map_some, rasterizeAllStrokesWithInk_eq]
    refine Traces.dropRepaint hrepaint hstrokes hsub (fun target htarget => ?_) nofun rfl
    rw [← Option.some.inj htarget]
    rfl
  · refine (Move.drop (hstrand ?_)).traces
    rw [← Bool.not_eq_true, hhits]
    exact hhit

/-- The stroke in flight has another colour than the pen. -/
def Tints (layer : MetaAnnotationLayer K) : Prop :=
  ∃ before s, layer.canvasStrokes layer.strokeAnchor = some (before ++ [s]) ∧
    layer.currentStroke = some s.addr ∧ s.rgba ≠ layer.rgba

/-- What continuing a stroke to `tip` takes. -/
structure Continuable (L : Permit K) (layer : MetaAnnotationLayer K) (tip : InkPoint K) (erase : Bool) :
    Prop where
  trace : L.trace layer.strokeAnchor tip
  ink : erase = false → L.ink
  leak : erase = false → layer.drawing.Leaks tip → L.leak
  blur : erase = false → layer.Blurs tip → L.blur
  tint : erase = false → layer.Tints → L.tint
  repaint : erase = true → L.repaint
  strand : erase = true → layer.hitsStroke tip = false → layer.drawing.Stranded → L.strand

theorem drawing_continueStroke (hwf : WellFormed layer.sheets) (x y : K) (pressure tiltFactor : Option K)
    (erase : Bool) {tip : InkPoint K} (htip : layer.nextTip x y pressure tiltFactor = tip) :
    (layer.continueStroke x y pressure tiltFactor erase).drawing =
      { (if erase then layer.continueErase tip.x tip.y tip.pressure tip.tiltFactor
        else layer.continueInk tip.x tip.y tip.pressure tip.tiltFactor).drawing with tip := tip } := by
  generalize hcontinued : (if erase = true then layer.continueErase tip.x tip.y tip.pressure tip.tiltFactor
    else layer.continueInk tip.x tip.y tip.pressure tip.tiltFactor) = continued
  have hclock : continued.ledger.clock = layer.ledger.clock := by
    rw [← hcontinued]
    split_ifs
    · obtain ⟨ink, _, heq⟩ := layer.sheets_continueErase tip.x tip.y tip.pressure tip.tiltFactor
      exact congrArg State.clock heq
    · rcases sheets_continueInk hwf tip.x tip.y tip.pressure tip.tiltFactor with heq | heq
      · exact congrArg State.clock heq
      · refine (congrArg State.clock heq).trans ?_
        cases layer.currentStroke <;> rfl
  subst htip
  have hstroke : layer.continueStroke x y pressure tiltFactor erase =
      ({ continued with
        strokeLastX := (layer.nextTip x y pressure tiltFactor).x
        strokeLastY := (layer.nextTip x y pressure tiltFactor).y
        lastPressure := (layer.nextTip x y pressure tiltFactor).pressure
        lastTiltFactor := (layer.nextTip x y pressure tiltFactor).tiltFactor
        ledger := { continued.ledger with strokeLastStamp := continued.ledger.clock } } :
        MetaAnnotationLayer K).scheduleRecompose := by
    rw [← hcontinued]
    rfl
  rw [hstroke, drawing_scheduleRecompose]
  refine Drawing.ext rfl rfl rfl rfl rfl ?_ rfl rfl rfl rfl rfl
  exact congrArg (fun n : ℕ => { layer.nextTip x y pressure tiltFactor with stamp := n }) hclock

/-- Continuing a stroke moves the pen, and leaves no single point. -/
theorem traces_continueStroke (hwf : WellFormed layer.sheets) (hs : Sound layer.drawing)
    (hready : layer.AnchorReady) (hdown : layer.strokeActive) (x y : K) (pressure tiltFactor : Option K)
    (erase : Bool) (hL : Continuable L layer (layer.nextTip x y pressure tiltFactor) erase) :
    let continued := layer.continueStroke x y pressure tiltFactor erase
    Traces L layer.drawing continued.drawing ∧ ¬ continued.drawing.Stranded := by
  intro continued
  generalize htip : layer.nextTip x y pressure tiltFactor = tip at hL
  simp only [continued, drawing_continueStroke hwf _ _ _ _ _ htip]
  have hstamp : tip.stamp = layer.ledger.clock := by rw [← htip]; rfl
  cases erase with
  | true =>
    have herase := traces_continueErase hwf hready tip (hL.repaint rfl) (hL.strand rfl)
    obtain ⟨ink, _, heq⟩ := layer.sheets_continueErase tip.x tip.y tip.pressure tip.tiltFactor
    simp only [if_true]
    generalize layer.continueErase tip.x tip.y tip.pressure tip.tiltFactor = erased at herase heq
    have hcur : erased.currentStroke = none := congrArg State.current heq
    have hdown' : erased.strokeActive := (congrArg State.down heq).trans hdown
    have hanchor : erased.strokeAnchor = layer.strokeAnchor := congrArg State.anchor heq
    have hclock : erased.ledger.clock = layer.ledger.clock := congrArg State.clock heq
    have htrace : L.trace erased.strokeAnchor tip := hanchor.symm ▸ hL.trace
    have hhover := Move.hover (d := erased.drawing) tip htrace (hstamp.trans hclock.symm) hdown' hcur
    exact ⟨herase.trans hhover.traces, not_stranded_of_current hcur⟩
  | false =>
    exact traces_continueInk hwf hs hready hdown tip (hL.ink rfl) hL.trace hstamp (hL.leak rfl) (hL.blur rfl)
      fun before s hstrokes hcur hne => hL.tint rfl ⟨before, s, hstrokes, hcur, hne⟩

/-! ### Pressing -/

/-- A window with a frame gets a blank record. -/
theorem traces_ensureWindowInk : Traces L layer.drawing (layer.ensureWindowInk win).drawing := by
  unfold ensureWindowInk
  cases hink : layer.perWindow win with
  | some ink => exact .refl
  | none =>
    dsimp only
    split_ifs
    · exact .refl
    · have habsent : layer.drawing.strokes (some win) = none := by
        simp [drawing, canvasStrokes, hink]
      rw [drawing_updateRecord]
      exact (Move.attach win _ _ habsent).traces

/-- A record that is set up strands no point. -/
theorem stranded_ensureWindowInk (h : (layer.ensureWindowInk win).drawing.Stranded) :
    layer.drawing.Stranded := by
  unfold ensureWindowInk at h
  cases hink : layer.perWindow win with
  | some ink => simpa only [hink] using h
  | none =>
    simp only [hink] at h
    split_ifs at h
    · exact h
    · rw [drawing_updateRecord] at h
      exact h.of_attach

/-- A press keeps the record of the window it picks, or sets it up blank. -/
theorem placeStroke_picked {win : WindowId} {x y : K} (hpick : layer.pickAnchorWindow x y = some win)
    (pressure tiltFactor : Option K) :
    let placed := layer.placeStroke x y pressure tiltFactor
    placed.perWindow = (layer.ensureWindowInk win).perWindow ∧
      placed.strokeLastX = ((layer.frameRect win).toLocal x y).1 ∧
      placed.strokeLastY = ((layer.frameRect win).toLocal x y).2 := by
  have hplace : ({ layer.setStrokeAnchor (some win) with
      currentStroke := none
      strokeFollowScroll := false } : MetaAnnotationLayer K).ensureWindowInk win =
      { layer.setStrokeAnchor (some win) with
        currentStroke := none
        strokeFollowScroll := false
        perWindow := (layer.ensureWindowInk win).perWindow } := ensureWindowInk_eq rfl rfl
  simp only [placeStroke, hpick, hplace, true_and]
  exact ⟨rfl, rfl⟩

/-- Where a press puts the pen. -/
def placedTip (layer : MetaAnnotationLayer K) (x y : K) (pressure tiltFactor : Option K) : InkPoint K :=
  (layer.placeStroke x y pressure tiltFactor).tip

theorem placedTip_stamp (x y : K) (pressure tiltFactor : Option K) :
    (layer.placedTip x y pressure tiltFactor).stamp = layer.ledger.clock := by
  simp only [placedTip, tip, placeStroke]
  split
  · rw [ensureWindowInk_eq rfl rfl]
    rfl
  · rfl

theorem placeStroke_clock (x y : K) (pressure tiltFactor : Option K) :
    (layer.placeStroke x y pressure tiltFactor).ledger.clock = layer.ledger.clock := by
  simp only [placeStroke]
  split
  · rw [ensureWindowInk_eq rfl rfl]
    rfl
  · rfl

theorem drawing_placeStroke (x y : K) (pressure tiltFactor : Option K) (followScroll : Bool) :
    ∃ ensured : MetaAnnotationLayer K, Traces L layer.drawing ensured.drawing ∧
      (ensured.drawing.Stranded → layer.drawing.Stranded) ∧
      (ensured.canvasStrokes (layer.pickAnchorWindow x y)).isSome ∧
      ensured.ledger.clock = layer.ledger.clock ∧
      (layer.placeStroke x y pressure tiltFactor).drawing.frame = ensured.drawing.frame ∧
      ({ layer.placeStroke x y pressure tiltFactor with strokeFollowScroll := followScroll } :
        MetaAnnotationLayer K).drawing =
        { ensured.drawing with
          anchor := layer.pickAnchorWindow x y
          current := none
          follow := followScroll
          down := true
          tip := layer.placedTip x y pressure tiltFactor } := by
  unfold placedTip
  cases hpick : layer.pickAnchorWindow x y with
  | none =>
    refine ⟨layer, .refl, id, rfl, rfl, ?_, ?_⟩
    · simp only [placeStroke, hpick]
      rfl
    · simp only [placeStroke, hpick]
      rfl
  | some win =>
    obtain ⟨_, hwidth, hheight⟩ := pickAnchorWindow_eq_some hpick
    have hrecord := layer.ensureWindowInk_perWindow_isSome hwidth hheight
    have hself : layer.ensureWindowInk win =
        { layer with perWindow := (layer.ensureWindowInk win).perWindow } := ensureWindowInk_eq rfl rfl
    have hplace : ({ layer.setStrokeAnchor (some win) with
        currentStroke := none
        strokeFollowScroll := false } : MetaAnnotationLayer K).ensureWindowInk win =
        { layer.setStrokeAnchor (some win) with
          currentStroke := none
          strokeFollowScroll := false
          perWindow := (layer.ensureWindowInk win).perWindow } := ensureWindowInk_eq rfl rfl
    refine ⟨layer.ensureWindowInk win, traces_ensureWindowInk, stranded_ensureWindowInk, ?_, ?_, ?_, ?_⟩
    · rwa [canvasStrokes, Option.isSome_map]
    · rw [hself]
    · simp only [placeStroke, hpick, hplace]
      rw [hself]
      rfl
    · simp only [placeStroke, hpick, hplace]
      rw [hself]
      rfl

/-- Whether a press starts a stroke that follows the scroll. -/
def pressFollows (layer : MetaAnnotationLayer K) (x y : K) (pressure tiltFactor : Option K)
    (erase : Bool) : Bool :=
  (layer.placeStroke x y pressure tiltFactor).pressFollowsScroll erase

/-- Only where there is a region. -/
theorem hasRegion_of_pressFollows {x y : K} {pressure tiltFactor : Option K} {erase : Bool}
    (h : layer.pressFollows x y pressure tiltFactor erase) :
    ∃ f, (layer.placeStroke x y pressure tiltFactor).drawing.frame (layer.pickAnchorWindow x y) = some f ∧
      f.hasRegion := by
  have hanchor : (layer.placeStroke x y pressure tiltFactor).strokeAnchor = layer.pickAnchorWindow x y :=
    placeStroke_strokeAnchor ..
  generalize hplaced : layer.placeStroke x y pressure tiltFactor = placed at hanchor
  simp only [pressFollows, hplaced, pressFollowsScroll, hanchor] at h
  have hframe : placed.drawing.frame (layer.pickAnchorWindow x y) =
      (placed.anchorInk (layer.pickAnchorWindow x y)).map WindowInk.frame := rfl
  rw [hframe]
  cases hink : placed.anchorInk (layer.pickAnchorWindow x y) with
  | none => simp [hink] at h
  | some ink =>
    simp only [hink, Bool.and_eq_true] at h
    exact ⟨ink.frame, rfl, h.1.2⟩

/-- What a press takes. -/
structure Pressable (L : Permit K) (layer : MetaAnnotationLayer K) (x y : K)
    (pressure tiltFactor : Option K) (erase : Bool) : Prop where
  press : L.press (layer.pickAnchorWindow x y) (layer.pressFollows x y pressure tiltFactor erase)
    (layer.placedTip x y pressure tiltFactor)
  strand : layer.drawing.Stranded → L.strand

theorem traces_placeStroke {x y : K} {pressure tiltFactor : Option K} {erase : Bool}
    (hL : Pressable L layer x y pressure tiltFactor erase) :
    Traces L layer.drawing
      ({ layer.placeStroke x y pressure tiltFactor with
        strokeFollowScroll := layer.pressFollows x y pressure tiltFactor erase } :
        MetaAnnotationLayer K).drawing := by
  obtain ⟨ensured, htraces, hstranded, hcanvas, hclock, hframe, hplaced⟩ :=
    layer.drawing_placeStroke (L := L) x y pressure tiltFactor
      (layer.pressFollows x y pressure tiltFactor erase)
  rw [hplaced]
  have hstamp : (layer.placedTip x y pressure tiltFactor).stamp = ensured.drawing.clock :=
    (placedTip_stamp ..).trans hclock.symm
  refine htraces.trans (Move.press (d := ensured.drawing) (layer.pickAnchorWindow x y) _ _ hL.press
    hstamp hcanvas (fun hfollow => ?_) fun h => hL.strand (hstranded h)).traces
  rw [← hframe]
  exact hasRegion_of_pressFollows hfollow

/-- Remembering the anchor and storing the point of the press is a dot. -/
theorem traces_dot (hwf : WellFormed layer.sheets) (hdown : layer.strokeActive)
    (hcur : layer.currentStroke = none)
    (hpress : L.press layer.strokeAnchor layer.strokeFollowScroll layer.tip)
    (hstamp : layer.tip.stamp = layer.ledger.clock) :
    let remembering := layer.setLastInkAnchor layer.strokeAnchor true
    Traces L layer.drawing (remembering.appendInkPoint remembering.strokeAnchor remembering.pressPoint
      remembering.strokeFollowScroll).drawing := by
  intro remembering
  obtain ⟨strokes, hstrokes⟩ := Option.isSome_iff_exists.mp (isSome_ink ▸ hwf.anchored :
    (layer.canvasStrokes layer.strokeAnchor).isSome)
  have hwf' : WellFormed remembering.sheets := by
    refine ⟨hwf.roomy, hwf.anchored, fun c hc => ?_, hwf.distinct, hwf.inFlight⟩
    obtain rfl : layer.strokeAnchor = c := Option.some.inj hc
    exact hwf.anchored
  have hstrokes' : remembering.canvasStrokes remembering.strokeAnchor = some strokes := by
    rw [canvasStrokes_setLastInkAnchor]
    exact hstrokes
  rw [drawing_appendInkPoint_none hwf' hdown hcur hstrokes', pressPoint_eq, drawing_setLastInkAnchor]
  exact (Move.dot strokes hpress hstamp hdown hcur hstrokes).traces

/-- Beginning a stroke is a press, and in ink mode the first dot. -/
theorem traces_beginStroke (hwf : WellFormed layer.sheets) (hlive : layer.sheets.live) {x y : K}
    {pressure tiltFactor : Option K} {erase : Bool}
    (hL : Pressable L layer x y pressure tiltFactor erase) :
    Traces L layer.drawing (layer.beginStroke x y pressure tiltFactor erase).drawing := by
  have hplace := traces_placeStroke hL
  have hwf' := (moves_placeStroke (L := fun _ => True) trivial trivial hlive x y pressure tiltFactor
    (layer.pressFollows x y pressure tiltFactor erase)).wellFormed hwf
  have hcur : (layer.placeStroke x y pressure tiltFactor).currentStroke = none :=
    placeStroke_currentStroke ..
  unfold beginStroke
  dsimp only
  split_ifs
  · exact hplace
  · refine hplace.trans ?_
    have hpress := hL.press
    rw [← placeStroke_strokeAnchor x y pressure tiltFactor] at hpress
    have hstamp : (layer.placeStroke x y pressure tiltFactor).tip.stamp =
        (layer.placeStroke x y pressure tiltFactor).ledger.clock :=
      (placedTip_stamp ..).trans (placeStroke_clock ..).symm
    exact traces_dot hwf' rfl hcur hpress hstamp

end MetaAnnotationLayer

end Annotations
