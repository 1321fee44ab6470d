import Annotations.History.StrokeModel

/-! Painting the stroke model. A repaint is a list of calls on a Cairo context and of `_drawStroke`;
what it comes to is which strokes are drawn, in what order and inside which clip. -/

namespace Annotations.History

variable {K : Type} [Scalar K]

/-- A rectangle in draw-area coordinates. -/
structure ClipBox (K : Type) where
  x : K
  y : K
  w : K
  h : K
  deriving DecidableEq

/-- The rectangle of a window. -/
structure ClipRect (K : Type) where
  seq : ℤ
  box : ClipBox K
  deriving DecidableEq

inductive CairoOp (K : Type) where
  | save
  | restore
  | setOperatorClear
  | setOperatorOver
  | paint
  | setSourceRGBA (rgba : List K)
  | setLineWidth (w : K)
  | setLineCapRound
  | setLineJoinRound
  | moveTo (x y : K)
  | lineTo (x y : K)
  | stroke
  | arc (x y radius : K)
  | fill
  | rectangle (box : ClipBox K)
  | clip

/-- `pressureToLineWidth`. -/
def pressureToLineWidth (pressure : K) : K :=
  let p := if pressure < 0.08 then 0.08 else pressure
  let p := if 1 < p then 1 else p
  0.9 + (7 - 0.9) * p

/-- `_drawStroke`. -/
def drawStroke (stroke : Stroke K) : List (CairoOp K) :=
  match stroke.pts with
  | [] => []
  | [q] =>
    let rad := 0.5 * pressureToLineWidth q.p
    let rad := if rad < 0.5 then 0.5 else rad
    [.setSourceRGBA stroke.rgba, .arc q.x q.y rad, .fill]
  | pts =>
    [.setSourceRGBA stroke.rgba, .setLineCapRound, .setLineJoinRound] ++
      (pts.zip pts.tail).flatMap fun seg =>
        let w := 0.5 * (pressureToLineWidth seg.1.p + pressureToLineWidth seg.2.p)
        [.setLineWidth w, .moveTo seg.1.x seg.1.y, .lineTo seg.2.x seg.2.y, .stroke]

/-- A stroke object: a committed one, by its place, or the one in progress. -/
inductive StrokeRef where
  | committed (i : ℕ)
  | current
  deriving DecidableEq

/-- A call in `paint`. -/
inductive PaintStep (K : Type) where
  | cairo (op : CairoOp K)
  | drawStroke (ref : StrokeRef) (stroke : Stroke K)

namespace StrokeModel

variable (m : StrokeModel K)

/-- `drawEraserPreview`. -/
def drawEraserPreview : List (PaintStep K) :=
  match m.eraserPath with
  | some (p :: q :: rest) =>
    let ops : List (CairoOp K) :=
      [.save, .setSourceRGBA [1, 0.2, 0.2, 0.35], .setLineWidth 2, .setLineCapRound, .moveTo p.x p.y] ++
        (q :: rest).map (fun r => .lineTo r.x r.y) ++ [.stroke, .restore]
    ops.map .cairo
  | _ => []

/-- The objects of `this.strokes`, and of `this.current`. -/
def committedRefs : List (StrokeRef × Stroke K) := m.strokes.zipIdx.map fun p => (.committed p.2, p.1)

def currentRef : List (StrokeRef × Stroke K) := (m.current.map fun s => (StrokeRef.current, s)).toList

/-- A loop over strokes that draws those of the window. -/
def drawAll (refs : List (StrokeRef × Stroke K)) : List (PaintStep K) := refs.map fun p => .drawStroke p.1 p.2

def ofWindow (seq : ℤ) (refs : List (StrokeRef × Stroke K)) : List (StrokeRef × Stroke K) :=
  refs.filter fun p => p.2.windowSeq = seq

/-- `paint`. -/
def paint (clipRects : Option (List (ClipRect K))) : List (PaintStep K) :=
  [.cairo .save, .cairo .setOperatorClear, .cairo .paint, .cairo .restore, .cairo .setOperatorOver] ++
    match clipRects with
    | none | some [] => drawAll m.committedRefs ++ drawAll m.currentRef ++ m.drawEraserPreview
    | some rects =>
      drawAll (ofWindow (-1) m.committedRefs) ++
        rects.flatMap (fun r =>
          [.cairo .save, .cairo (.rectangle r.box), .cairo .clip] ++ drawAll (ofWindow r.seq m.committedRefs) ++
            drawAll (ofWindow r.seq m.currentRef) ++ [.cairo .restore]) ++
        drawAll (ofWindow (-1) m.currentRef) ++ m.drawEraserPreview

end StrokeModel

/-! ### The clip of a Cairo context -/

/-- The boxes whose intersection is the clip, those of the saved states, and the boxes of the path. -/
structure Cairo (K : Type) where
  clip : List (ClipBox K)
  saved : List (List (ClipBox K))
  path : List (ClipBox K)

namespace Cairo

/-- A context without a clip. -/
def fresh : Cairo K := ⟨[], [], []⟩

/-- What a call does to the clip. -/
def exec (c : Cairo K) : CairoOp K → Cairo K
  | .save => { c with saved := c.clip :: c.saved }
  | .restore => { c with clip := c.saved.headD c.clip, saved := c.saved.tail }
  | .rectangle box => { c with path := c.path ++ [box] }
  | .clip => { c with clip := c.clip ++ c.path, path := [] }
  | .stroke | .fill => { c with path := [] }
  | _ => c

/-- The calls of a step. -/
def step (c : Cairo K) : PaintStep K → Cairo K
  | .cairo op => c.exec op
  | .drawStroke _ stroke => (drawStroke stroke).foldl exec c

/-- The strokes drawn, each with the clip in force. -/
def draws (c : Cairo K) : List (PaintStep K) → List (StrokeRef × List (ClipBox K))
  | [] => []
  | s :: rest => (match s with
      | .cairo _ => []
      | .drawStroke ref _ => [(ref, c.clip)]) ++ (c.step s).draws rest

variable {c : Cairo K} {refs : List (StrokeRef × Stroke K)} {steps rest : List (PaintStep K)}

omit [Scalar K] in
theorem foldl_exec_of_forall {ops : List (CairoOp K)} (h : ∀ op ∈ ops, c.exec op = c) : ops.foldl exec c = c := by
  induction ops with
  | nil => rfl
  | cons op rest ih =>
    rw [List.foldl_cons, h op (List.mem_cons_self ..)]
    exact ih fun op' h' => h op' (List.mem_cons_of_mem _ h')

/-- A stroke is drawn without a change of the clip. -/
theorem foldl_exec_drawStroke (hpath : c.path = []) (stroke : Stroke K) : (drawStroke stroke).foldl exec c = c := by
  have hclear : ({ c with path := [] } : Cairo K) = c := by rw [← hpath]
  refine foldl_exec_of_forall ?_
  unfold drawStroke
  split
  · simp
  · simp [exec, hclear]
  · intro op hop
    rcases List.mem_append.mp hop with hop | hop
    · simp only [List.mem_cons, List.not_mem_nil, or_false] at hop
      rcases hop with rfl | rfl | rfl <;> rfl
    · obtain ⟨seg, -, hop⟩ := List.mem_flatMap.mp hop
      simp only [List.mem_cons, List.not_mem_nil, or_false] at hop
      rcases hop with rfl | rfl | rfl | rfl <;> first | rfl | exact hclear

theorem draws_drawAll (hpath : c.path = []) :
    c.draws (StrokeModel.drawAll refs ++ rest) = refs.map (fun p => (p.1, c.clip)) ++ c.draws rest := by
  induction refs with
  | nil => rfl
  | cons p refs ih =>
    have hstep : c.step (.drawStroke p.1 p.2) = c := foldl_exec_drawStroke hpath p.2
    change (p.1, c.clip) :: (c.step (.drawStroke p.1 p.2)).draws (StrokeModel.drawAll refs ++ rest) = _
    rw [hstep, ih]
    rfl

/-- What a window's rectangle is around. -/
theorem draws_clipped (hpath : c.path = []) (box : ClipBox K) (refs' : List (StrokeRef × Stroke K)) :
    c.draws ([.cairo .save, .cairo (.rectangle box), .cairo .clip] ++ StrokeModel.drawAll refs ++
        StrokeModel.drawAll refs' ++ [.cairo .restore] ++ rest) =
      (refs ++ refs').map (fun p => (p.1, c.clip ++ [box])) ++ c.draws rest := by
  have hinside : c.draws ([.cairo .save, .cairo (.rectangle box), .cairo .clip] ++ StrokeModel.drawAll refs ++
        StrokeModel.drawAll refs' ++ [.cairo .restore] ++ rest) =
      (⟨c.clip ++ [box], c.clip :: c.saved, []⟩ : Cairo K).draws
        (StrokeModel.drawAll refs ++ (StrokeModel.drawAll refs' ++ (.cairo .restore :: rest))) := by
    simp [draws, step, exec, hpath]
  have hrestore : (⟨c.clip ++ [box], c.clip :: c.saved, []⟩ : Cairo K).draws (.cairo .restore :: rest) = c.draws rest := by
    change ((⟨c.clip, c.saved, []⟩ : Cairo K)).draws rest = _
    rw [← hpath]
  rw [hinside, draws_drawAll rfl, draws_drawAll rfl, hrestore, List.map_append, List.append_assoc]

theorem draws_cairo (c : Cairo K) (ops : List (CairoOp K)) : c.draws (ops.map .cairo) = [] := by
  induction ops generalizing c with
  | nil => rfl
  | cons op rest ih => exact ih (c.exec op)

end Cairo

namespace StrokeModel

variable (m : StrokeModel K) (rects : List (ClipRect K))

/-- What a repaint draws, in order. -/
def painted (clipRects : Option (List (ClipRect K))) : List (StrokeRef × List (ClipBox K)) :=
  Cairo.fresh.draws (m.paint clipRects)

theorem draws_drawEraserPreview (c : Cairo K) : c.draws m.drawEraserPreview = [] := by
  unfold drawEraserPreview
  split
  · exact Cairo.draws_cairo c _
  · rfl

theorem draws_rects (rest : List (PaintStep K)) :
    Cairo.fresh.draws (rects.flatMap (fun r =>
        [.cairo .save, .cairo (.rectangle r.box), .cairo .clip] ++ drawAll (ofWindow r.seq m.committedRefs) ++
          drawAll (ofWindow r.seq m.currentRef) ++ [.cairo .restore]) ++ rest) =
      rects.flatMap (fun r => (ofWindow r.seq m.committedRefs ++ ofWindow r.seq m.currentRef).map fun p => (p.1, [r.box])) ++
        Cairo.fresh.draws rest := by
  induction rects with
  | nil => rfl
  | cons r rects ih =>
    rw [List.flatMap_cons, List.flatMap_cons, List.append_assoc, Cairo.draws_clipped rfl, ih, List.append_assoc]
    rfl

theorem painted_nil : m.painted (some []) = (m.committedRefs ++ m.currentRef).map fun p => (p.1, []) := by
  have hstart : m.painted (some []) =
      Cairo.fresh.draws (drawAll m.committedRefs ++ (drawAll m.currentRef ++ m.drawEraserPreview)) := by
    rw [← List.append_assoc]
    rfl
  rw [hstart, Cairo.draws_drawAll rfl, Cairo.draws_drawAll rfl, draws_drawEraserPreview, List.append_nil, List.map_append]
  rfl

theorem painted_of_ne_nil (h : rects ≠ []) :
    m.painted (some rects) =
      (ofWindow (-1) m.committedRefs).map (fun p => (p.1, [])) ++
        rects.flatMap (fun r => (ofWindow r.seq m.committedRefs ++ ofWindow r.seq m.currentRef).map fun p => (p.1, [r.box])) ++
        (ofWindow (-1) m.currentRef).map (fun p => (p.1, [])) := by
  obtain ⟨r, rest, rfl⟩ := List.exists_cons_of_ne_nil h
  have hstart : m.painted (some (r :: rest)) = Cairo.fresh.draws (drawAll (ofWindow (-1) m.committedRefs) ++
      ((r :: rest).flatMap (fun r =>
          [.cairo .save, .cairo (.rectangle r.box), .cairo .clip] ++ drawAll (ofWindow r.seq m.committedRefs) ++
            drawAll (ofWindow r.seq m.currentRef) ++ [.cairo .restore]) ++
        (drawAll (ofWindow (-1) m.currentRef) ++ m.drawEraserPreview))) := by
    rw [← List.append_assoc, ← List.append_assoc]
    rfl
  rw [hstart, Cairo.draws_drawAll rfl, draws_rects, Cairo.draws_drawAll rfl, draws_drawEraserPreview, List.append_nil,
    List.append_assoc]
  rfl

/-! ### Which strokes -/

/-- The stroke object, if there is one. -/
def strokeAt : StrokeRef → Option (Stroke K)
  | .committed i => m.strokes[i]?
  | .current => m.current

variable {m} {rects} {ref : StrokeRef} {s : Stroke K} {clip : List (ClipBox K)} {seq : ℤ}

omit [Scalar K] in
theorem mem_committedRefs : (ref, s) ∈ m.committedRefs ↔ (∃ i, ref = .committed i) ∧ m.strokeAt ref = some s := by
  unfold committedRefs
  simp only [List.mem_map, List.mem_zipIdx_iff_getElem?, Prod.exists, Prod.mk.injEq]
  constructor
  · rintro ⟨s', i, hget, rfl, rfl⟩
    exact ⟨⟨i, rfl⟩, hget⟩
  · rintro ⟨⟨i, rfl⟩, hget⟩
    exact ⟨s, i, hget, rfl, rfl⟩

omit [Scalar K] in
theorem mem_currentRef : (ref, s) ∈ m.currentRef ↔ ref = .current ∧ m.strokeAt ref = some s := by
  unfold currentRef
  simp only [Option.mem_toList, Option.map_eq_some_iff, Prod.mk.injEq]
  constructor
  · rintro ⟨s', hcurrent, rfl, rfl⟩
    exact ⟨rfl, hcurrent⟩
  · rintro ⟨rfl, hcurrent⟩
    exact ⟨s, hcurrent, rfl, rfl⟩

omit [Scalar K] in
theorem mem_refs : (ref, s) ∈ m.committedRefs ++ m.currentRef ↔ m.strokeAt ref = some s := by
  rw [List.mem_append, mem_committedRefs, mem_currentRef]
  cases ref with
  | committed i => simp
  | current => simp

omit [Scalar K] in
theorem nodup_refs : ((m.committedRefs ++ m.currentRef).map Prod.fst).Nodup := by
  have hcommitted : (m.committedRefs.map Prod.fst).Nodup := by
    unfold committedRefs
    rw [List.map_map]
    have hindices : (m.strokes.zipIdx.map (Prod.fst ∘ fun p => (StrokeRef.committed p.2, p.1))) =
        (m.strokes.zipIdx.map Prod.snd).map StrokeRef.committed := by
      rw [List.map_map]
      rfl
    rw [hindices, List.zipIdx_map_snd]
    exact List.Nodup.map (fun i j h => StrokeRef.committed.inj h) List.nodup_range'
  have hcurrent : (m.currentRef.map Prod.fst).Nodup := by
    unfold currentRef
    cases m.current <;> simp
  rw [List.map_append]
  refine List.nodup_append.mpr ⟨hcommitted, hcurrent, ?_⟩
  rintro ref href ref' href' rfl
  obtain ⟨⟨_, s⟩, hs, rfl⟩ := List.mem_map.mp href
  obtain ⟨⟨_, s'⟩, hs', rfl⟩ := List.mem_map.mp href'
  obtain ⟨i, hi⟩ := (mem_committedRefs.mp hs).1
  have hcur := (mem_currentRef.mp hs').1
  simp_all

omit [Scalar K] in
theorem mem_ofWindow {refs : List (StrokeRef × Stroke K)} :
    (ref, s) ∈ ofWindow seq refs ↔ (ref, s) ∈ refs ∧ s.windowSeq = seq := by
  simp [ofWindow]

theorem mem_painted (h : rects ≠ []) :
    (ref, clip) ∈ m.painted (some rects) ↔
      ∃ s, m.strokeAt ref = some s ∧ (s.windowSeq = -1 ∧ clip = [] ∨ ∃ r ∈ rects, s.windowSeq = r.seq ∧ clip = [r.box]) := by
  have hrefs : ∀ {seq : ℤ} {s : Stroke K}, (ref, s) ∈ ofWindow seq m.committedRefs ∨ (ref, s) ∈ ofWindow seq m.currentRef ↔
      m.strokeAt ref = some s ∧ s.windowSeq = seq := by
    intro seq s
    rw [mem_ofWindow, mem_ofWindow, ← or_and_right, ← List.mem_append, mem_refs]
  rw [painted_of_ne_nil m rects h]
  simp only [List.mem_append, List.mem_map, List.mem_flatMap, Prod.exists, Prod.mk.injEq]
  constructor
  · rintro ((⟨ref', s, hs, rfl, rfl⟩ | ⟨r, hr, ref', s, hs, rfl, rfl⟩) | ⟨ref', s, hs, rfl, rfl⟩)
    · obtain ⟨hat, hseq⟩ := hrefs.mp (.inl hs)
      exact ⟨s, hat, .inl ⟨hseq, rfl⟩⟩
    · obtain ⟨hat, hseq⟩ := hrefs.mp hs
      exact ⟨s, hat, .inr ⟨r, hr, hseq, rfl⟩⟩
    · obtain ⟨hat, hseq⟩ := hrefs.mp (.inr hs)
      exact ⟨s, hat, .inl ⟨hseq, rfl⟩⟩
  · rintro ⟨s, hat, ⟨hseq, rfl⟩ | ⟨r, hr, hseq, rfl⟩⟩
    · rcases hrefs.mpr ⟨hat, hseq⟩ with hs | hs
      · exact .inl (.inl ⟨ref, s, hs, rfl, rfl⟩)
      · exact .inr ⟨ref, s, hs, rfl, rfl⟩
    · exact .inl (.inr ⟨r, hr, ref, s, hrefs.mpr ⟨hat, hseq⟩, rfl, rfl⟩)

/-- Every stroke is drawn for one window at most. -/
theorem nodup_painted (hseq : (rects.map ClipRect.seq).Nodup) (hnonneg : ∀ r ∈ rects, 0 ≤ r.seq) :
    ((m.painted (some rects)).map Prod.fst).Nodup := by
  rcases eq_or_ne rects [] with rfl | hne
  · rw [painted_nil, List.map_map]
    exact nodup_refs
  have hperm : ((m.painted (some rects)).map Prod.fst).Perm
      (((-1) :: rects.map ClipRect.seq).flatMap fun seq => (ofWindow seq (m.committedRefs ++ m.currentRef)).map Prod.fst) := by
    rw [painted_of_ne_nil m rects hne, List.flatMap_cons, List.flatMap_map]
    simp only [ofWindow, List.filter_append, List.map_append, List.map_map, List.map_flatMap, Function.comp_def]
    rw [List.append_assoc, List.append_assoc]
    exact List.Perm.append_left _ List.perm_append_comm
  rw [hperm.nodup_iff, List.nodup_flatMap]
  constructor
  · intro seq _
    exact nodup_refs.sublist (List.filter_sublist.map Prod.fst)
  · have hall : ((-1) :: rects.map ClipRect.seq).Nodup := by
      refine List.nodup_cons.mpr ⟨fun hmem => ?_, hseq⟩
      obtain ⟨r, hr, hminus⟩ := List.mem_map.mp hmem
      have hpos := hnonneg r hr
      omega
    refine hall.imp ?_
    intro seq seq' hdiff ref href href'
    obtain ⟨⟨_, s⟩, hs, rfl⟩ := List.mem_map.mp href
    obtain ⟨⟨_, s'⟩, hs', heq⟩ := List.mem_map.mp href'
    obtain rfl := heq
    obtain ⟨hmem, hwindow⟩ := mem_ofWindow.mp hs
    obtain ⟨hmem', hwindow'⟩ := mem_ofWindow.mp hs'
    have hsame : s = s' := Option.some.inj ((mem_refs.mp hmem).symm.trans (mem_refs.mp hmem'))
    exact hdiff (hwindow.symm.trans (hsame ▸ hwindow'))

/-! ### The strokes of absent windows -/

/-- What a repaint is to draw: no stroke twice, a stroke of the desktop without a clip, and a stroke of
a window just when its rectangle is there, inside it. -/
structure PaintsRight (m : StrokeModel K) (rects : List (ClipRect K)) : Prop where
  once : ((m.painted (some rects)).map Prod.fst).Nodup
  desktop : ∀ ref s, m.strokeAt ref = some s → s.windowSeq = -1 →
    ∀ clip, (ref, clip) ∈ m.painted (some rects) ↔ clip = []
  bound : ∀ ref s, m.strokeAt ref = some s → s.windowSeq ≠ -1 →
    ∀ clip, (ref, clip) ∈ m.painted (some rects) ↔ ∃ r ∈ rects, r.seq = s.windowSeq ∧ clip = [r.box]

/-- A repaint is right unless there is no rectangle at all and some stroke is bound to a window. -/
theorem paintsRight_iff (hseq : (rects.map ClipRect.seq).Nodup) (hnonneg : ∀ r ∈ rects, 0 ≤ r.seq) :
    PaintsRight m rects ↔ (rects = [] → ∀ ref s, m.strokeAt ref = some s → s.windowSeq = -1) := by
  constructor
  · rintro hright rfl ref s hat
    by_contra hbound
    have hdrawn : (ref, []) ∈ m.painted (some []) := by
      rw [painted_nil]
      exact List.mem_map.mpr ⟨(ref, s), mem_refs.mpr hat, rfl⟩
    obtain ⟨r, hr, -⟩ := (hright.bound ref s hat hbound []).mp hdrawn
    cases hr
  · intro hempty
    refine ⟨nodup_painted hseq hnonneg, ?_, ?_⟩
    · intro ref s hat hdesktop clip
      rcases eq_or_ne rects [] with rfl | hne
      · rw [painted_nil]
        constructor
        · intro hmem
          obtain ⟨_, -, heq⟩ := List.mem_map.mp hmem
          exact (Prod.mk.inj heq).2.symm
        · rintro rfl
          exact List.mem_map.mpr ⟨(ref, s), mem_refs.mpr hat, rfl⟩
      · rw [mem_painted hne]
        constructor
        · rintro ⟨s', hat', ⟨-, hclip⟩ | ⟨r, hr, hwindow, -⟩⟩
          · exact hclip
          · have hpos := hnonneg r hr
            obtain rfl := Option.some.inj (hat.symm.trans hat')
            omega
        · rintro rfl
          exact ⟨s, hat, .inl ⟨hdesktop, rfl⟩⟩
    · intro ref s hat hbound clip
      rcases eq_or_ne rects [] with rfl | hne
      · exact absurd (hempty rfl ref s hat) hbound
      · rw [mem_painted hne]
        constructor
        · rintro ⟨s', hat', ⟨hdesktop, -⟩ | ⟨r, hr, hwindow, hclip⟩⟩
          · obtain rfl := Option.some.inj (hat.symm.trans hat')
            exact absurd hdesktop hbound
          · obtain rfl := Option.some.inj (hat.symm.trans hat')
            exact ⟨r, hr, hwindow.symm, hclip⟩
        · rintro ⟨r, hr, hwindow, rfl⟩
          exact ⟨s, hat, .inr ⟨r, hr, hwindow.symm, rfl⟩⟩

/-- A stroke on a window that is there. -/
theorem paintsRight_iff_present :
    let m : StrokeModel ℚ := { empty with strokes := [⟨[0, 0, 0, 1], [⟨150, 150, 1⟩], 7⟩] }
    let rects : List (ClipRect ℚ) := [⟨7, ⟨100, 100, 400, 300⟩⟩]
    PaintsRight m rects ↔ (rects = [] → ∀ ref s, m.strokeAt ref = some s → s.windowSeq = -1) :=
  paintsRight_iff (by decide) (by decide)

end StrokeModel

end Annotations.History
