import Annotations.Tracing.Permits

/-! Strokes under a scroll, in exact arithmetic. A stroke that follows it was laid point by
point under one editor region and one scroll; under any other it is painted, and hit by
the eraser, where the points were laid, moved by the difference. -/

namespace Annotations

open Runs

variable {K : Type} [Scalar K]

/-! ### The hit test moves along -/

section Moving
variable (v : K × K)

theorem pointToSegmentDistSq_add (px py aX aY bX bY : K) :
    pointToSegmentDistSq (px + v.1) (py + v.2) (aX + v.1) (aY + v.2) (bX + v.1) (bY + v.2) =
      pointToSegmentDistSq px py aX aY bX bY := by
  have hfoot : ∀ p a t w : K, p + w - (a + w + t) = p - (a + t) := fun p a t w => by ring
  simp only [pointToSegmentDistSq, add_sub_add_right_eq_sub, hfoot]

theorem segmentToSegmentDist_add (aX aY bX bY cX cY dX dY : K) :
    segmentToSegmentDist (aX + v.1) (aY + v.2) (bX + v.1) (bY + v.2) (cX + v.1) (cY + v.2)
        (dX + v.1) (dY + v.2) =
      segmentToSegmentDist aX aY bX bY cX cY dX dY := by
  simp only [segmentToSegmentDist, add_sub_add_right_eq_sub, pointToSegmentDistSq_add]

/-- The box moved by `v`. -/
def StrokeBbox.shift (b : StrokeBbox K) : StrokeBbox K :=
  ⟨b.minX + v.1, b.minY + v.2, b.maxX + v.1, b.maxY + v.2⟩

/-- The stroke moved by `v`. -/
def Stroke.shift (s : Stroke K) : Stroke K :=
  { s with points := s.points.map (·.shift v), bbox := s.bbox.map (·.shift v) }

theorem InkPoint.shift_x (p : InkPoint K) : (p.shift v).x = p.x + v.1 := rfl

theorem InkPoint.shift_y (p : InkPoint K) : (p.shift v).y = p.y + v.2 := rfl

/-- Both branches of a choice of coordinates move. -/
theorem ite_add_right (c : Prop) [Decidable c] (a b w : K) :
    (if c then a + w else b + w) = (if c then a else b) + w :=
  (apply_ite (· + w) c a b).symm

theorem strokeAppendPoint_shift (s : Stroke K) (p : InkPoint K) :
    strokeAppendPoint (s.shift v) (p.shift v) = (strokeAppendPoint s p).shift v := by
  have hwidth : inkPointMaxHalfWidth (p.shift v) = inkPointMaxHalfWidth p := rfl
  cases hbox : s.bbox <;>
    simp [strokeAppendPoint, Stroke.shift, StrokeBbox.shift, InkPoint.shift_x, InkPoint.shift_y, hbox,
      hwidth, ite_add_right, add_sub_right_comm, add_right_comm p.x v.1, add_right_comm p.y v.2]

theorem eraserMissesBbox_shift (s : Stroke K) (aX aY bX bY r : K) :
    eraserMissesBbox (s.shift v) (aX + v.1) (aY + v.2) (bX + v.1) (bY + v.2) r =
      eraserMissesBbox s aX aY bX bY r := by
  cases hbox : s.bbox <;>
    simp [eraserMissesBbox, Stroke.shift, StrokeBbox.shift, hbox, ite_add_right, add_sub_right_comm,
      add_right_comm]

/-- An eraser that moves with the stroke hits it or misses it as before. -/
theorem strokeHitByEraser_shift (s : Stroke K) (aX aY bX bY r : K) :
    strokeHitByEraser (s.shift v) (aX + v.1) (aY + v.2) (bX + v.1) (bY + v.2) r =
      strokeHitByEraser s aX aY bX bY r := by
  have hpoints : (s.shift v).points = s.points.map (·.shift v) := rfl
  unfold strokeHitByEraser
  rw [hpoints, eraserMissesBbox_shift]
  rcases s.points with _ | ⟨p, _ | ⟨q, points⟩⟩
  · rfl
  · simp only [List.map_cons, List.map_nil, InkPoint.shift, pointToSegmentDistSq_add]
  · have hzip : ((p :: q :: points).map (·.shift v)).zip ((q :: points).map (·.shift v)) =
        ((p :: q :: points).zip (q :: points)).map (Prod.map (·.shift v) (·.shift v)) := List.zip_map ..
    simp only [List.map_cons, List.tail_cons] at hzip ⊢
    rw [hzip, List.any_map]
    simp only [Function.comp_def, Prod.map_fst, Prod.map_snd, InkPoint.shift_x, InkPoint.shift_y,
      segmentToSegmentDist_add]

theorem InkPoint.shift_shift (p : InkPoint K) (w : K × K) : (p.shift v).shift w = p.shift (v + w) := by
  simp [InkPoint.shift, add_assoc]

theorem Stroke.shift_shift (s : Stroke K) (w : K × K) : (s.shift v).shift w = s.shift (v + w) := by
  have hbox : ∀ b : StrokeBbox K, (b.shift v).shift w = b.shift (v + w) := fun b => by
    simp [StrokeBbox.shift, add_assoc]
  simp [Stroke.shift, InkPoint.shift_shift, hbox, Function.comp_def]

end Moving

/-! ### Strokes in content space -/

/-- A stroke like `s` through other points. -/
def Stroke.through (s : Stroke K) (points : List (InkPoint K)) : Stroke K :=
  points.foldl strokeAppendPoint { strokeNew s.addr s.rgba with followScroll := s.followScroll }

theorem Stroke.through_concat (s : Stroke K) (points : List (InkPoint K)) (p : InkPoint K) :
    s.through (points ++ [p]) = strokeAppendPoint (s.through points) p := List.foldl_concat ..

theorem Stroke.through_shift (s : Stroke K) (points : List (InkPoint K)) (v : K × K) :
    s.through (points.map (·.shift v)) = (s.through points).shift v := by
  induction points using List.reverseRecOn with
  | nil => rfl
  | append_singleton points p ih =>
    rw [List.map_append, List.map_singleton, Stroke.through_concat, Stroke.through_concat, ih,
      strokeAppendPoint_shift]

namespace Frame

/-- How far ink that was laid under `f₀` is moved under `f₁`: with the region, and against
the scroll. -/
def displacement (f₀ f₁ : Frame K) : K × K :=
  (f₁.editorX - f₀.editorX - (f₁.scrollX - f₀.scrollX), f₁.editorY - f₀.editorY - (f₁.scrollY - f₀.scrollY))

section Exact
variable [ExactFloats K] {f : Frame K}

theorem Stores.eq_shift {q p : InkPoint K} (h : f.Stores q p) : p = q.shift f.contentOffset := by
  rcases h with rfl | rfl
  · simp only [pressed, InkPoint.shift, contentOffset, Scalar.toFloat_of_exact, sub_add_eq_add_sub, add_sub_assoc]
  · simp only [stored, InkPoint.moved, InkPoint.shift, contentOffset, Scalar.toFloat_of_exact, Option.elim_some]

theorem translation_followContext : f.followContext.translation = (f.editorX - f.scrollX, f.editorY - f.scrollY) := by
  simp only [CairoContext.translation, followContext, Scalar.toFloat_of_exact]

theorem contentOffset_add_translation (f₀ f₁ : Frame K) :
    f₀.contentOffset + f₁.followContext.translation = f₀.displacement f₁ := by
  rw [translation_followContext]
  ext <;> simp only [contentOffset, displacement, Prod.fst_add, Prod.snd_add] <;> ring

end Exact

end Frame

/-- Inside the region, the replay of a stroke covers what the stroke drawn where it is
rendered covers. -/
theorem mem_inkOf_follow {f : Frame K} {s : Stroke K} {p : K × K} :
    p ∈ inkOf (rasterizeStrokeOnCr f.followContext s) ↔ p ∈ f.region ∧
      p ∈ inkOf (rasterizeStrokeOnCr cairoCreate (s.shift f.followContext.translation)) := by
  generalize hv : f.followContext.translation = v
  have hpoints : (s.shift v).points = s.points.map (·.shift v) := rfl
  have hrgba : (s.shift v).rgba = s.rgba := rfl
  have hzip : ∀ l l' : List (InkPoint K), p ∈ inkOf (List.zipWith (drawInkSegment f.followContext s.rgba) l l') ↔
      p ∈ f.region ∧ p ∈ inkOf (List.zipWith (drawInkSegment cairoCreate s.rgba) (l.map (·.shift v)) (l'.map (·.shift v))) := by
    intro l l'
    induction l generalizing l' with
    | nil => simp
    | cons a l ih =>
      cases l' with
      | nil => simp
      | cons b l' =>
        have hcons : ∀ (op : PaintOp K) ops, inkOf (op :: ops) = op.inked ∪ inkOf ops := fun op ops => by
          rw [← List.singleton_append, inkOf_append, inkOf_singleton]
        simp only [List.map_cons, List.zipWith_cons_cons, hcons, Set.mem_union, ih l', and_or_left]
        refine or_congr_left ?_
        rw [mem_inked_follow s.rgba, hv]
  unfold rasterizeStrokeOnCr
  rw [hpoints, hrgba]
  rcases s.points with _ | ⟨a, _ | ⟨b, points⟩⟩
  · simp
  · exact hzip [a] [a]
  · exact hzip (a :: b :: points) (b :: points)

/-- Every stroke has the box that drawing it through its points gives it. -/
def Boxed (d : Drawing K) : Prop := d.Every fun _ s => s = s.through s.points

section Boxes
variable {L : Permit K} {d e : Drawing K}

theorem sketch_boxed (points : List (InkPoint K)) :
    d.sketch points = (d.sketch points).through (d.sketch points).points := by
  rw [Stroke.through, d.sketch_points, d.sketch_addr, d.sketch_rgba, d.sketch_followScroll]
  rfl

theorem Traces.boxed (ht : Traces L d e) (h : Boxed d) : Boxed e := by
  refine ht.invariant (P := Boxed) (fun u v hm hu => hm.every hu (fun _ _ _ _ => sketch_boxed _)
    (fun _ _ _ _ _ _ => sketch_boxed _) fun before s tip _ _ _ _ _ _ _ hs => ?_) h
  have hsame : ∀ p, (strokeAppendPoint s p).through = s.through := fun p => rfl
  rw [hsame, strokeAppendPoint_points, Stroke.through_concat, ← hs]

end Boxes

namespace MetaAnnotationLayer

variable {start : MetaAnnotationLayer K} {ops : List (LayerOp K)} {k m : ℕ} {layer : MetaAnnotationLayer K}

/-- The point is the position of an event of the run, in the coordinates of the window,
and the record of the window had the frame `f` when the event was handled. -/
structure LaidDown (start : MetaAnnotationLayer K) (ops : List (LayerOp K)) (win : WindowId)
    (q : InkPoint K) (f : Frame K) : Prop where
  event : ∃ event nowUs, ops[q.stamp]? = some (.handleEvent event nowUs) ∧
    q.x = event.x - ((stateAt step start ops q.stamp).frameRect win).x ∧
    q.y = event.y - ((stateAt step start ops q.stamp).frameRect win).y
  frame : ((stateAt step start ops q.stamp).perWindow win).map WindowInk.frame = some f

/-- Points on a window are laid down there. -/
def LaidOn (start : MetaAnnotationLayer K) (ops : List (LayerOp K)) (c : Canvas) (q : InkPoint K)
    (f : Frame K) : Prop := ∃ win, c = some win ∧ LaidDown start ops win q f

omit [Scalar K] in
theorem frame_eq_some {c : Canvas} {f : Frame K} (h : layer.drawing.frame c = some f) :
    ∃ win, c = some win ∧ (layer.perWindow win).map WindowInk.frame = some f := by
  cases c with
  | none => cases h
  | some win => exact ⟨win, rfl, h⟩

theorem placedTip_local [ExactFloats K] {win : WindowId} {event : ClutterEvent K}
    (hpick : layer.pickAnchorWindow event.x event.y = some win) :
    (layer.placedTip event.x event.y event.getPressure event.getTiltFactor).x =
        event.x - (layer.frameRect win).x ∧
      (layer.placedTip event.x event.y event.getPressure event.getTiltFactor).y =
        event.y - (layer.frameRect win).y := by
  have hlocal := (placeStroke_picked hpick event.getPressure event.getTiltFactor).2
  simp only [MtkRectangle.toLocal, Scalar.toFloat_of_exact] at hlocal
  exact hlocal

theorem eventTip_local [ExactFloats K] {win : WindowId} {event : ClutterEvent K} (hanchor : layer.strokeAnchor = some win) :
    (layer.eventTip event).x = event.x - (layer.frameRect win).x ∧
      (layer.eventTip event).y = event.y - (layer.frameRect win).y := by
  simp [eventTip, nextTip, convertStageToLocal, MtkRectangle.toLocal, hanchor]

/-- A point of the event that the run handles now. -/
theorem laidDown_of_stamp {win : WindowId} {q : InkPoint K} {f : Frame K} {event : ClutterEvent K} {nowUs : ℤ}
    (hstamp : q.stamp = k) (hget : ops[k]? = some (.handleEvent event nowUs))
    (hlocal : q.x = event.x - ((stateAt step start ops k).frameRect win).x ∧
      q.y = event.y - ((stateAt step start ops k).frameRect win).y)
    (hframe : ((stateAt step start ops k).perWindow win).map WindowInk.frame = some f) :
    LaidDown start ops win q f := by
  subst hstamp
  exact ⟨⟨event, nowUs, hget, hlocal⟩, hframe⟩

/-- The points of all strokes that follow the scroll are laid down, each stroke under one
frame. -/
theorem placed_stateAt [ExactFloats K] (hstart : Kept start) (hclock : start.ledger.clock = 0)
    (hplaced : Placed (LaidOn start ops) start.drawing) (hm : m ≤ ops.length) :
    Placed (LaidOn start ops) (stateAt step start ops m).drawing := by
  have hinv := stateAt_kept (P := fun _ layer => Placed (LaidOn start ops) layer.drawing) hstart hclock
    hplaced (fun k op hget hkept hclock hplaced => ?_) hm
  · exact hinv.2.2
  · have htraces := traces_exec hkept.wellFormed hkept.sound hkept.surfaced op
    have hnext := htraces.placed hkept.sound ?_ ?_ ?_ ?_ hplaced
    · exact ⟨hnext.stored, hnext.tip⟩
    · rintro c q q' f f' ⟨win, rfl, hq⟩ ⟨win', hwin, hq'⟩ hstamp
      obtain rfl := Option.some.inj hwin
      have hframe := hq.frame
      rw [hstamp] at hframe
      exact Option.some.inj (hframe.symm.trans hq'.frame)
    · intro c tip f hL hregion hf
      obtain ⟨win, rfl, hframe⟩ := frame_eq_some hf
      cases op with
      | handleEvent event nowUs =>
        obtain ⟨_, hpick, _, rfl⟩ := hL
        exact ⟨win, rfl, laidDown_of_stamp ((placedTip_stamp ..).trans hclock) hget (placedTip_local hpick.symm) hframe⟩
      | call call => exact absurd hL id
      | setChromePressActive id => exact absurd hL fun h => h
      | clearChromePress => exact absurd hL id
    · intro c tip f hL hregion hf
      obtain ⟨win, rfl, hframe⟩ := frame_eq_some hf
      cases op with
      | handleEvent event nowUs =>
        obtain ⟨_, hanchor, rfl⟩ := hL
        exact ⟨win, rfl, laidDown_of_stamp hclock hget (eventTip_local hanchor.symm) hframe⟩
      | call call => exact absurd hL id
      | setChromePressActive id => exact absurd hL fun h => h
      | clearChromePress => exact absurd hL id
    · intro c tip hL hreframe
      cases op with
      | handleEvent event nowUs => exact hreframe
      | call call => exact hL.elim id id
      | setChromePressActive id => exact hreframe
      | clearChromePress => exact hreframe

theorem placed_new {display : MetaDisplay} {input : AnnotationInput K} {width height : ℤ}
    {Q : Canvas → InkPoint K → Frame K → Prop} :
    Placed Q (metaAnnotationLayerNew display input width height).drawing where
  stored := every_new _
  tip := by
    have hdown : (metaAnnotationLayerNew display input width height).strokeActive = false := by
      unfold metaAnnotationLayerNew onStageSizeChanged
      rfl
    intro h
    have hactive : (metaAnnotationLayerNew display input width height).strokeActive = true := h
    simp [hdown] at hactive

theorem boxed_stateAt {display : MetaDisplay} {input : AnnotationInput K} {width height : ℤ} (k : ℕ) :
    Boxed (stateAt step (metaAnnotationLayerNew display input width height) ops k).drawing := by
  have hinv : Kept (stateAt step (metaAnnotationLayerNew display input width height) ops k) ∧
      Boxed (stateAt step (metaAnnotationLayerNew display input width height) ops k).drawing :=
    run_invariant (P := fun layer => Kept layer ∧ Boxed layer.drawing)
      (fun layer op h => ⟨kept_step h.1 op,
        (traces_exec h.1.wellFormed h.1.sound h.1.surfaced op).boxed h.2⟩) ⟨kept_new, every_new _⟩
  exact hinv.2

/-! ### The four code paths -/

/-- The rasterizer paints the strokes in order. -/
theorem ops_rasterizeAllStrokesWithInk_split (target : Surface K) (before after : List (Stroke K)) (s : Stroke K)
    (ink : WindowInk K) :
    (rasterizeAllStrokesWithInk target (before ++ s :: after) (some ink)).ops =
      (rasterizeAllStrokesWithInk target before (some ink)).ops ++ printStroke (some ink.frame) s ++
        (rasterizeAllStrokesWithInk target after (some ink)).ops := by
  simp only [rasterizeAllStrokesWithInk_eq, printed, Option.map_some, List.flatMap_append,
    List.flatMap_cons, List.append_assoc]

/-- A stroke that follows the scroll is painted inside the region, where the translation
takes it. -/
theorem inkOf_printStroke_follow {f : Frame K} {s : Stroke K} (hfollow : s.followScroll)
    (hregion : f.hasRegion) :
    inkOf (printStroke (some f) s) =
      f.region ∩ inkOf (rasterizeStrokeOnCr cairoCreate (s.shift f.followContext.translation)) := by
  ext p
  simp only [printStroke, hfollow, hregion, if_true]
  exact mem_inkOf_follow

/-- The eraser hits a stroke that follows the scroll where it is painted, if it has an end
in the region. -/
theorem strokeHitBySegment_follow [ExactFloats K] {ink : WindowInk K} {s : Stroke K} (hfollow : s.followScroll)
    (aX aY bX bY r : K) :
    strokeHitBySegment (some ink) aX aY bX bY r s = true ↔
      (hasRegion (some ink) ∧ (ink.editorContains aX aY ∨ ink.editorContains bX bY)) ∧
        strokeHitByEraser (s.shift ink.frame.followContext.translation) aX aY bX bY r := by
  have hmoved := strokeHitByEraser_shift ink.frame.followContext.translation s (aX - ink.editorX + ink.scrollX)
    (aY - ink.editorY + ink.scrollY) (bX - ink.editorX + ink.scrollX) (bY - ink.editorY + ink.scrollY) r
  have hback : ∀ x e w : K, x - e + w + (e - w) = x := fun x e w => by ring
  have hhit : strokeHitByEraser s (aX - ink.editorX + ink.scrollX) (aY - ink.editorY + ink.scrollY)
      (bX - ink.editorX + ink.scrollX) (bY - ink.editorY + ink.scrollY) r =
      strokeHitByEraser (s.shift ink.frame.followContext.translation) aX aY bX bY r := by
    rw [← hmoved]
    simp only [Frame.translation_followContext, WindowInk.frame, hback]
  unfold strokeHitBySegment
  simp only [hfollow, if_true, WindowInk.toContent, Scalar.toFloat_of_exact, hhit]
  cases hasRegion (some ink) <;> cases ink.editorContains aX aY <;> cases ink.editorContains bX bY <;> simp

/-- The positions that points were taken to content space from. -/
theorem exists_laid [ExactFloats K] {Q : InkPoint K → Frame K → Prop} {f : Frame K} {points : List (InkPoint K)}
    (h : ∀ p ∈ points, ∃ q, Q q f ∧ f.Stores q p) :
    ∃ laid : List (InkPoint K), points = laid.map (·.shift f.contentOffset) ∧ ∀ q ∈ laid, Q q f := by
  induction points with
  | nil => exact ⟨[], rfl, by simp⟩
  | cons p points ih =>
    obtain ⟨laid, hlaid, hall⟩ := ih fun p hp => h p (List.mem_cons_of_mem _ hp)
    obtain ⟨q, hq, hstores⟩ := h p List.mem_cons_self
    exact ⟨q :: laid, by rw [List.map_cons, ← hlaid, hstores.eq_shift], List.forall_mem_cons.mpr ⟨hq, hall⟩⟩

/-- Ink that follows the scroll was laid under one region origin and one scroll, and is
painted and erased where it was laid, moved with the region and against the scroll. -/
theorem followScroll_coherent [ExactFloats K] (display : MetaDisplay) (input : AnnotationInput K) (width height : ℤ)
    (ops : List (LayerOp K)) (m : ℕ) (hm : m ≤ ops.length) (win : WindowId) (ink : WindowInk K)
    (hink : (stateAt step (metaAnnotationLayerNew display input width height) ops m).perWindow win = some ink)
    (s : Stroke K) (hs : s ∈ ink.strokes) (hfollow : s.followScroll) :
    ∃ (f₀ : Frame K) (laid : List (InkPoint K)),
      s.points = laid.map (·.shift f₀.contentOffset) ∧
      (∀ q ∈ laid, LaidDown (metaAnnotationLayerNew display input width height) ops win q f₀) ∧
      (ink.frame = f₀ → laid.map (·.shift (f₀.displacement ink.frame)) = laid) ∧
      let rendered := s.through (laid.map (·.shift (f₀.displacement ink.frame)))
      (hasRegion (some ink) → ∀ target before after, ink.strokes = before ++ s :: after →
        ∃ painted, (rasterizeAllStrokesWithInk target ink.strokes (some ink)).ops =
            (rasterizeAllStrokesWithInk target before (some ink)).ops ++ painted ++
              (rasterizeAllStrokesWithInk target after (some ink)).ops ∧
          inkOf painted = ink.frame.region ∩ inkOf (rasterizeStrokeOnCr cairoCreate rendered)) ∧
      ∀ aX aY bX bY r, s ∉ (eraseStrokesHitBySegment ink.strokes aX aY bX bY r (some ink)).1 ↔
        (hasRegion (some ink) ∧ (ink.editorContains aX aY ∨ ink.editorContains bX bY)) ∧
          strokeHitByEraser rendered aX aY bX bY r := by
  have hplaced : Placed (LaidOn (metaAnnotationLayerNew display input width height) ops)
      (stateAt step (metaAnnotationLayerNew display input width height) ops m).drawing :=
    placed_stateAt kept_new clock_new placed_new hm
  have hboxed : Boxed (stateAt step (metaAnnotationLayerNew display input width height) ops m).drawing :=
    boxed_stateAt m
  generalize stateAt step (metaAnnotationLayerNew display input width height) ops m = layer
    at hink hplaced hboxed
  have hstrokes : layer.drawing.strokes (some win) = some ink.strokes := by
    simp [drawing, canvasStrokes, hink]
  obtain ⟨f₀, _, hpoints⟩ := hplaced.stored (some win) _ hstrokes s hs hfollow
  obtain ⟨laid, hlaid, hdown⟩ := exists_laid hpoints
  have hrendered : s.shift ink.frame.followContext.translation =
      s.through (laid.map (·.shift (f₀.displacement ink.frame))) := by
    conv_lhs => rw [hboxed (some win) _ hstrokes s hs, hlaid]
    rw [← Stroke.through_shift, List.map_map, ← Frame.contentOffset_add_translation]
    simp only [Function.comp_def, InkPoint.shift_shift]
  refine ⟨f₀, laid, hlaid, fun q hq => ?_, fun hsame => ?_, fun hregion target before after hsplit => ?_,
    fun aX aY bX bY r => ?_⟩
  · obtain ⟨_, hwin, hq⟩ := hdown q hq
    obtain rfl := Option.some.inj hwin
    exact hq
  · have hstill : f₀.displacement f₀ = 0 := by
      ext <;> simp [Frame.displacement]
    simp [hsame, hstill, InkPoint.shift]
  · refine ⟨printStroke (some ink.frame) s, ?_, ?_⟩
    · rw [hsplit]
      exact ops_rasterizeAllStrokesWithInk_split target before after s ink
    · rw [← hrendered]
      exact inkOf_printStroke_follow hfollow hregion
  · rw [← hrendered, ← strokeHitBySegment_follow hfollow, eraseStrokesHitBySegment_fst]
    simp [hs]

/-- Ink inside the region, and then a scroll. -/
theorem followScroll_coherent_scrolled :
    let ops : List (LayerOp ℚ) := [.call (.setActive true), .call (.setWindowEditorRegion 1 1 1 2 2),
      .handleEvent (.pen .buttonPress 2 2 1 true) 0, .call (.setWindowScroll 1 0 3)]
    ∃ (ink : WindowInk ℚ) (s : Stroke ℚ) (f₀ : Frame ℚ) (laid : List (InkPoint ℚ)),
      s ∈ ink.strokes ∧ s.points = laid.map (·.shift f₀.contentOffset) ∧
      ∀ q ∈ laid, LaidDown (metaAnnotationLayerNew .oneWindow .initial 10 10) ops 0 q f₀ := by
  intro ops
  generalize hlayer : stateAt step (metaAnnotationLayerNew .oneWindow .initial 10 10) ops 4 = layer
  have hone : (layer.perWindow 0).map (fun ink => ink.strokes.map (·.followScroll)) = some [true] := by
    rw [← hlayer]
    decide +kernel
  obtain ⟨ink, hink, hfollows⟩ := Option.map_eq_some_iff.mp hone
  obtain ⟨s, hstrokes, hfollow⟩ := List.map_eq_singleton_iff.mp hfollows
  have hs : s ∈ ink.strokes := by simp [hstrokes]
  rw [← hlayer] at hink
  obtain ⟨f₀, laid, hpoints, hdown, _⟩ := followScroll_coherent _ _ _ _ ops 4 le_rfl 0 ink hink s hs hfollow
  exact ⟨ink, s, f₀, laid, hs, hpoints, hdown⟩

/-- An eraser that crosses the region from one side to the other, through the ink. -/
theorem not_erases_where_rendered :
    let ops : List (LayerOp ℚ) := [.call (.setActive true), .call (.setWindowEditorRegion 1 1 1 2 2),
      .handleEvent (.pen .buttonPress 2 2 1 true) 0]
    ∃ ink s, (stateAt step (metaAnnotationLayerNew .oneWindow .initial 10 10) ops 3).perWindow 0 = some ink ∧
      s ∈ ink.strokes ∧ s.followScroll ∧ hasRegion (some ink) ∧
      s ∈ (eraseStrokesHitBySegment ink.strokes 0 2 4 2 8 (some ink)).1 ∧
      strokeHitByEraser (s.shift ink.frame.followContext.translation) 0 2 4 2 8 := by
  intro ops
  generalize hlayer : stateAt step (metaAnnotationLayerNew .oneWindow .initial 10 10) ops 3 = layer
  have hone : (layer.perWindow 0).map (fun ink => (hasRegion (some ink), ink.strokes.map fun s =>
      (s.followScroll, strokeHitBySegment (some ink) 0 2 4 2 8 s,
        strokeHitByEraser (s.shift ink.frame.followContext.translation) 0 2 4 2 8))) =
      some (true, [(true, false, true)]) := by
    rw [← hlayer]
    decide +kernel
  obtain ⟨ink, hink, hdata⟩ := Option.map_eq_some_iff.mp hone
  obtain ⟨hregion, hdata⟩ := Prod.mk.inj hdata
  obtain ⟨s, hstrokes, hs⟩ := List.map_eq_singleton_iff.mp hdata
  obtain ⟨hfollow, hs⟩ := Prod.mk.inj hs
  obtain ⟨hmissed, hhit⟩ := Prod.mk.inj hs
  refine ⟨ink, s, hink, by simp [hstrokes], hfollow, hregion, ?_, hhit⟩
  rw [eraseStrokesHitBySegment_fst, hstrokes]
  simp [hmissed]

end MetaAnnotationLayer

end Annotations
