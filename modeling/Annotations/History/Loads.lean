import Annotations.History.Loading

/-! When loaded strokes do no harm. A stroke is well formed when it has four numbers for its colour and
points of numbers, and no method throws on such strokes or makes others of them. -/

namespace Annotations.History

open Js

variable {N : Type}

/-- A point of numbers. -/
structure IsPoint (v : Value N) : Prop where
  x : ∃ n, v.field "x" = .number n
  y : ∃ n, v.field "y" = .number n
  p : ∃ n, v.field "p" = .number n

/-- A stroke with an array of four numbers `rgba` and an array of points `pts`. -/
structure WellFormed (s : Value N) : Prop where
  rgba : ∃ r g b a fields, s.field "rgba" = .array [.number r, .number g, .number b, .number a] fields
  pts : ∃ pts fields, s.field "pts" = .array pts fields ∧ ∀ v ∈ pts, IsPoint v

variable {js : Engine N} {v s : Value N} {name : String}

/-! ### Reading -/

theorem get_number (h : ∃ n, v.field name = .number n) : ∃ n, v.get name = .ok (.number n) := by
  obtain ⟨n, hn⟩ := h
  exact ⟨n, by rw [Value.get_of_field hn (by simp), hn]⟩

theorem WellFormed.get (h : WellFormed s) (name : String) : s.get name = .ok (s.field name) := by
  obtain ⟨pts, fields, hpts, -⟩ := h.pts
  exact Value.get_of_field hpts (by simp) name

theorem isPoint_value (q : Pt N) : IsPoint q.value := ⟨⟨_, rfl⟩, ⟨_, rfl⟩, ⟨_, rfl⟩⟩

theorem wellFormed_value {s : Stroke N} (h : s.rgba.length = 4) : WellFormed (s.value js) := by
  obtain ⟨r, g, b, a, hrgba⟩ := List.length_eq_four.mp h
  refine ⟨⟨r, g, b, a, [], ?_⟩, s.pts.map Pt.value, [], rfl, fun v hv => ?_⟩
  · change Value.array (s.rgba.map .number) [] = _
    rw [hrgba]
    rfl
  · obtain ⟨q, -, rfl⟩ := List.mem_map.mp hv
    exact isPoint_value q

namespace Loaded

theorem yields_windowSeq (h : WellFormed s) : Yields (windowSeq js s) fun _ => True := by
  rw [windowSeq, h.get]
  exact yields_ok trivial

/-! ### The hit test -/

theorem minus_number (a b : N) : minus js (.number a) (.number b) = .ok (js.sub a b) := by
  simp [minus, js.toNumber_number]

theorem yields_pointSegmentDistSq (px py aX aY bX bY : N) :
    Yields (pointSegmentDistSq js (.number px) (.number py) (.number aX) (.number aY) (.number bX) (.number bY))
      fun _ => True := by
  simp only [pointSegmentDistSq, minus_number, js.plus_number, ok_bind]
  split
  · exact yields_ok trivial
  · exact yields_ok trivial

theorem yields_pointToPolylineDistSq (px py : N) {pts : List (Value N)} (hpts : ∀ v ∈ pts, IsPoint v) :
    Yields (pointToPolylineDistSq js (.number px) (.number py) pts) fun _ => True := by
  unfold pointToPolylineDistSq
  split
  · exact yields_ok trivial
  next q =>
    obtain ⟨x, hx⟩ := get_number (hpts q (by simp)).x
    obtain ⟨y, hy⟩ := get_number (hpts q (by simp)).y
    simp only [hx, hy, minus_number, ok_bind]
    exact yields_ok trivial
  · refine yields_foldlM trivial fun best _ seg hseg => ?_
    obtain ⟨h₁, h₂⟩ := List.of_mem_zip hseg
    obtain ⟨x₁, hx₁⟩ := get_number (hpts _ h₁).x
    obtain ⟨y₁, hy₁⟩ := get_number (hpts _ h₁).y
    obtain ⟨x₂, hx₂⟩ := get_number (hpts _ (List.mem_of_mem_tail h₂)).x
    obtain ⟨y₂, hy₂⟩ := get_number (hpts _ (List.mem_of_mem_tail h₂)).y
    simp only [hx₁, hy₁, hx₂, hy₂, ok_bind]
    exact (yields_pointSegmentDistSq px py x₁ y₁ x₂ y₂).bind fun d _ => yields_ok trivial

theorem yields_near {pts : List (Value N)} (hpts : ∀ v ∈ pts, IsPoint v) (hv : IsPoint v) :
    Yields (near js pts v) fun _ => True := by
  obtain ⟨x, hx⟩ := get_number hv.x
  obtain ⟨y, hy⟩ := get_number hv.y
  simp only [near, hx, hy, ok_bind]
  exact (yields_pointToPolylineDistSq x y hpts).bind fun d _ => yields_ok trivial

theorem yields_strokeHitByEraser (h : WellFormed s) (path : List (Pt N)) :
    Yields (strokeHitByEraser js s path) fun _ => True := by
  obtain ⟨pts, fields, hpts, hpoints⟩ := h.pts
  have hpath : ∀ v ∈ path.map Pt.value, IsPoint v := fun v hv => by
    obtain ⟨q, -, rfl⟩ := List.mem_map.mp hv
    exact isPoint_value q
  simp only [strokeHitByEraser, h.get, hpts, ok_bind]
  split
  · exact yields_ok trivial
  · refine (yields_anyM fun v hv => yields_near hpath (hpoints v hv)).bind fun hit _ => ?_
    split
    · exact yields_ok trivial
    · exact yields_anyM fun v hv => yields_near hpoints (hpath v hv)

/-! ### Drawing -/

theorem yields_pressureToLineWidth (p : N) : Yields (pressureToLineWidth js (.number p)) fun _ => True := by
  simp only [pressureToLineWidth, js.toNumber_number, ok_bind]
  exact yields_ok trivial

theorem yields_drawSegment {v w : Value N} (hv : IsPoint v) (hw : IsPoint w) :
    Yields (drawSegment js (v, w)) fun _ => True := by
  obtain ⟨x₁, hx₁⟩ := get_number hv.x
  obtain ⟨y₁, hy₁⟩ := get_number hv.y
  obtain ⟨p₁, hp₁⟩ := get_number hv.p
  obtain ⟨x₂, hx₂⟩ := get_number hw.x
  obtain ⟨y₂, hy₂⟩ := get_number hw.y
  obtain ⟨p₂, hp₂⟩ := get_number hw.p
  simp only [drawSegment, hx₁, hy₁, hp₁, hx₂, hy₂, hp₂, js.toNumber_number, ok_bind]
  exact (yields_pressureToLineWidth p₁).bind fun w₁ _ => (yields_pressureToLineWidth p₂).bind fun w₂ _ =>
    yields_ok trivial

theorem yields_drawStroke (h : WellFormed s) : Yields (drawStroke js s) fun _ => True := by
  obtain ⟨pts, fields, hpts, hpoints⟩ := h.pts
  obtain ⟨r, g, b, a, fields', hrgba⟩ := h.rgba
  have hcolor : (List.range 4).mapM (fun i => js.toNumber
      ([Value.number r, .number g, .number b, .number a].getD i .undefined)) = .ok [r, g, b, a] := by
    simp [List.range_succ, js.toNumber_number, pure, Except.pure]
  simp only [drawStroke, h.get, hpts, hrgba, Value.iterate, Value.elements, ok_bind, hcolor]
  split
  · exact yields_ok trivial
  split
  next hone =>
    obtain ⟨q, rfl⟩ := List.length_eq_one_iff.mp (of_decide_eq_true hone)
    have hq := hpoints q (by simp)
    obtain ⟨x, hx⟩ := get_number hq.x
    obtain ⟨y, hy⟩ := get_number hq.y
    obtain ⟨p, hp⟩ := get_number hq.p
    simp only [List.headD_cons, hx, hy, hp, js.toNumber_number, ok_bind]
    exact (yields_pressureToLineWidth p).bind fun w _ => yields_ok trivial
  next =>
    refine (yields_mapM (Q := fun _ => True) fun seg hseg => ?_).bind fun lines _ => yields_ok trivial
    obtain ⟨h₁, h₂⟩ := List.of_mem_zip hseg
    exact yields_drawSegment (hpoints _ h₁) (hpoints _ (List.mem_of_mem_tail h₂))

end Loaded

namespace LoadedModel

/-! ### Copying and moving -/

/-- A clone of a well-formed stroke is one. -/
theorem yields_cloneStroke (h : WellFormed s) : Yields (cloneStroke js s) WellFormed := by
  obtain ⟨pts, fields, hpts, hpoints⟩ := h.pts
  obtain ⟨r, g, b, a, fields', hrgba⟩ := h.rgba
  simp only [cloneStroke, h.get, hpts, hrgba, Value.iterate, Value.map, ok_bind]
  refine Yields.bind (P := fun v => ∃ items, v = .array items [] ∧ ∀ q ∈ items, IsPoint q) ?_ fun v hv => ?_
  · refine (yields_mapM (Q := IsPoint) fun q hq => ?_).bind fun items hitems => yields_ok ⟨items, rfl, hitems⟩
    obtain ⟨x, hx⟩ := get_number (hpoints q hq).x
    obtain ⟨y, hy⟩ := get_number (hpoints q hq).y
    obtain ⟨p, hp⟩ := get_number (hpoints q hq).p
    simp only [hx, hy, hp, ok_bind]
    exact yields_ok (isPoint_value ⟨x, y, p⟩)
  · obtain ⟨items, rfl, hitems⟩ := hv
    exact (Loaded.yields_windowSeq h).bind fun w _ => yields_ok ⟨⟨r, g, b, a, [], rfl⟩, items, [], rfl, hitems⟩

/-- A moved point is one. -/
theorem yields_translatePoint (dx dy : N) (hv : IsPoint v) : Yields (translatePoint js dx dy v) IsPoint := by
  obtain ⟨x, hx⟩ := hv.x
  obtain ⟨y, hy⟩ := hv.y
  obtain ⟨p, hp⟩ := hv.p
  obtain ⟨v', hset, hfield⟩ := Value.set_of_field hx (by simp) "x" (.number (js.add x dx))
  have hy' : v'.field "y" = .number y := by simpa [hfield] using hy
  obtain ⟨v'', hset', hfield'⟩ := Value.set_of_field hy' (by simp) "y" (.number (js.add y dy))
  have hget : v.get "x" = .ok (.number x) := by rw [Value.get_of_field hx (by simp), hx]
  have hget' : v'.get "y" = .ok (.number y) := by rw [Value.get_of_field hy' (by simp), hy']
  simp only [translatePoint, hget, js.plus_number, hset, hget', hset', ok_bind]
  refine yields_ok ⟨⟨js.add x dx, ?_⟩, ⟨js.add y dy, ?_⟩, ⟨p, ?_⟩⟩
  · simp [hfield', hfield]
  · simp [hfield']
  · simpa [hfield', hfield] using hp

theorem yields_translateStroke (dx dy : N) (h : WellFormed s) : Yields (translateStroke js dx dy s) WellFormed := by
  obtain ⟨pts, fields, hpts, hpoints⟩ := h.pts
  obtain ⟨r, g, b, a, fields', hrgba⟩ := h.rgba
  have hmove : Yields (pts.mapM (translatePoint js dx dy)) fun items => ∀ v ∈ items, IsPoint v :=
    yields_mapM fun v hv => yields_translatePoint dx dy (hpoints v hv)
  obtain ⟨items, hitems, hmoved⟩ := hmove
  have hforOf : (Value.array pts fields).forOf (translatePoint js dx dy) = .ok (.array items fields) := by
    simp only [Value.forOf, Value.iterate, ok_bind, hitems]
  obtain ⟨s', hset, hfield⟩ := Value.set_of_field hpts (by simp) "pts" (.array items fields)
  simp only [translateStroke, h.get, hpts, hforOf, hset, ok_bind]
  refine yields_ok ⟨⟨r, g, b, a, fields', ?_⟩, items, fields, ?_, hmoved⟩
  · simpa [hfield] using hrgba
  · simp [hfield]

/-! ### Calls -/

/-- The strokes of the model and of its snapshots are well formed, and its colours have four numbers. -/
structure Sound (m : LoadedModel N) : Prop where
  strokes : ∀ s ∈ m.strokes, WellFormed s
  undoStack : ∀ snapshot ∈ m.undoStack, ∀ s ∈ snapshot, WellFormed s
  current : ∀ s, m.current = some s → s.rgba.length = 4
  penRGBA : m.penRGBA.length = 4

variable {m : LoadedModel N} {path : List (Pt N)} {json : String}

theorem sound_empty : Sound (empty js) := ⟨by simp [empty], by simp [empty], by simp [empty], rfl⟩

theorem Sound.pushUndoState (h : m.Sound) :
    Yields (m.pushUndoState js) fun m' => m'.Sound ∧ m'.strokes = m.strokes ∧ m'.current = m.current ∧
      m'.eraserPath = m.eraserPath := by
  rw [LoadedModel.pushUndoState]
  refine (yields_mapM fun s hs => yields_cloneStroke (h.strokes s hs)).bind fun snapshot hsnapshot => ?_
  refine yields_ok ⟨⟨h.strokes, fun taken htaken => ?_, h.current, h.penRGBA⟩, rfl, rfl, rfl⟩
  rcases List.mem_append.mp (List.mem_of_mem_drop htaken) with htaken | htaken
  · exact h.undoStack taken htaken
  · obtain rfl := List.mem_singleton.mp htaken
    exact hsnapshot

theorem Sound.commitCurrent (h : m.Sound) : Yields (m.commitCurrent js) Sound := by
  unfold LoadedModel.commitCurrent
  split
  · exact yields_ok ⟨h.strokes, h.undoStack, by simp, h.penRGBA⟩
  next stroke hstroke =>
    split
    · exact yields_ok ⟨h.strokes, h.undoStack, by simp, h.penRGBA⟩
    · refine h.pushUndoState.bind fun m' hm' => ?_
      obtain ⟨hm', -, -, -⟩ := hm'
      refine yields_ok ⟨fun s hs => ?_, hm'.undoStack, by simp, hm'.penRGBA⟩
      rcases List.mem_append.mp hs with hs | hs
      · exact h.strokes s hs
      · obtain rfl := List.mem_singleton.mp hs
        exact wellFormed_value (h.current stroke hstroke)

theorem yields_keeps (h : WellFormed s) (m : LoadedModel N) (path : List (Pt N)) :
    Yields (m.keeps js path s) fun _ => True := by
  rw [keeps]
  refine Yields.bind (P := fun _ => True) ?_ fun other _ => ?_
  · split
    · exact (Loaded.yields_windowSeq h).bind fun w _ => yields_ok trivial
    · exact yields_ok trivial
  · split
    · exact yields_ok trivial
    · exact (Loaded.yields_strokeHitByEraser h path).bind fun hit _ => yields_ok trivial

theorem Sound.applyEraser (h : m.Sound) : Yields (m.applyEraser js) Sound := by
  unfold LoadedModel.applyEraser
  split
  · exact yields_ok h
  · exact yields_ok h
  next path _ _ =>
    refine (yields_filterM fun s hs => yields_keeps (h.strokes s hs) m path).bind fun strokes hstrokes => ?_
    exact yields_ok ⟨fun s hs => h.strokes s (hstrokes s hs), h.undoStack, h.current, h.penRGBA⟩

theorem Sound.beginStroke (h : m.Sound) (x y p : N) (windowSeq : ℤ) :
    Yields (m.beginStroke js x y p windowSeq) Sound := by
  rw [LoadedModel.beginStroke]
  refine h.commitCurrent.bind fun m' hm' => yields_ok ⟨hm'.strokes, hm'.undoStack, fun s hs => ?_, hm'.penRGBA⟩
  obtain rfl := Option.some.inj hs
  exact hm'.penRGBA

theorem Sound.beginErase (h : m.Sound) (x y : N) (windowSeq : ℤ) : Yields (m.beginErase js x y windowSeq) Sound := by
  rw [LoadedModel.beginErase]
  exact h.commitCurrent.bind fun m' hm' => yields_ok ⟨hm'.strokes, hm'.undoStack, by simp, hm'.penRGBA⟩

theorem Sound.appendErase (h : m.Sound) (x y : N) : Yields (m.appendErase js x y) Sound := by
  refine Sound.applyEraser (m := { m with eraserPath := some _ }) ?_
  exact ⟨h.strokes, h.undoStack, h.current, h.penRGBA⟩

theorem Sound.appendPoint (h : m.Sound) (x y p : N) : (m.appendPoint x y p).Sound := by
  refine ⟨h.strokes, h.undoStack, fun s hs => ?_, h.penRGBA⟩
  obtain ⟨s₀, hs₀, rfl⟩ := Option.map_eq_some_iff.mp hs
  exact h.current s₀ hs₀

theorem Sound.finishErase (h : m.Sound) : Yields (m.finishErase js) Sound := by
  unfold LoadedModel.finishErase
  split
  · exact yields_ok ⟨h.strokes, h.undoStack, h.current, h.penRGBA⟩
  · exact yields_ok ⟨h.strokes, h.undoStack, h.current, h.penRGBA⟩
  · refine h.pushUndoState.bind fun m' hm' => ?_
    refine hm'.1.applyEraser.bind fun m'' hm'' => ?_
    exact yields_ok ⟨hm''.strokes, hm''.undoStack, hm''.current, hm''.penRGBA⟩

theorem Sound.clearAll (h : m.Sound) : Yields (m.clearAll js) Sound := by
  rw [LoadedModel.clearAll]
  exact h.pushUndoState.bind fun m' hm' => yields_ok ⟨by simp, hm'.1.undoStack, by simp, hm'.1.penRGBA⟩

theorem Sound.undoOne (h : m.Sound) : m.undoOne.Sound := by
  unfold LoadedModel.undoOne
  split
  · exact h
  next strokes hstrokes =>
    refine ⟨h.undoStack strokes (List.mem_of_getLast? hstrokes), fun taken htaken => ?_, by simp, h.penRGBA⟩
    exact h.undoStack taken (List.mem_of_mem_dropLast htaken)

theorem Sound.translateAll (h : m.Sound) (dx dy : N) : Yields (m.translateAll js dx dy) Sound := by
  rw [LoadedModel.translateAll]
  refine (yields_mapM fun s hs => yields_translateStroke dx dy (h.strokes s hs)).bind fun strokes hstrokes => ?_
  refine yields_ok ⟨hstrokes, h.undoStack, fun s hs => ?_, h.penRGBA⟩
  obtain ⟨s₀, hs₀, rfl⟩ := Option.map_eq_some_iff.mp hs
  exact h.current s₀ hs₀

theorem Sound.drawWindow (h : m.Sound) (seq : ℤ) : Yields (m.drawWindow js seq) fun _ => True := by
  rw [LoadedModel.drawWindow]
  refine (yields_mapM (Q := fun _ => True) fun s hs => ?_).bind fun drawn _ => yields_ok trivial
  refine (Loaded.yields_windowSeq (h.strokes s hs)).bind fun w _ => ?_
  split
  · exact Loaded.yields_drawStroke (h.strokes s hs)
  · exact yields_ok trivial

theorem Sound.drawCurrent (h : m.Sound) (draws : Stroke N → Bool) : Yields (m.drawCurrent js draws) fun _ => True := by
  unfold LoadedModel.drawCurrent
  split
  next s hs =>
    split
    · exact Loaded.yields_drawStroke (wellFormed_value (h.current s hs))
    · exact yields_ok trivial
  next => exact yields_ok trivial

theorem Sound.paint (h : m.Sound) (clipRects : Option (List (ClipRect N))) :
    Yields (m.paint js clipRects) fun _ => True := by
  have hall : Yields (m.strokes.mapM (Loaded.drawStroke js)) fun _ => True :=
    (yields_mapM (Q := fun _ => True) fun s hs => Loaded.yields_drawStroke (h.strokes s hs)).mono fun _ _ => trivial
  unfold LoadedModel.paint
  split
  · exact hall.bind fun drawn _ => (h.drawCurrent _).bind fun current _ => yields_ok trivial
  · exact hall.bind fun drawn _ => (h.drawCurrent _).bind fun current _ => yields_ok trivial
  next rects _ _ =>
    refine (h.drawWindow (-1)).bind fun below _ => ?_
    refine (yields_mapM (Q := fun _ => True) fun r _ => ?_).bind fun inside _ => ?_
    · exact (h.drawWindow r.seq).bind fun drawn _ => (h.drawCurrent _).bind fun current _ => yields_ok trivial
    · exact (h.drawCurrent _).bind fun current _ => yields_ok trivial

/-! ### Loading -/

/-- If the text is JSON with an array of strokes, they are well formed. -/
def Benign (js : Engine N) (json : String) : Prop :=
  ∀ o items fields, js.parse json = .ok o → o.field "strokes" = .array items fields → ∀ s ∈ items, WellFormed s

theorem readStrokes_eq_some_iff {items : List (Value N)} : readStrokes js json = .ok (some items) ↔
    ∃ o fields, js.parse json = .ok o ∧ o.field "strokes" = .array items fields := by
  unfold readStrokes
  constructor
  · intro h
    cases hparse : js.parse json with
    | error e => simp [hparse, bind, Except.bind] at h
    | ok o =>
      cases hget : o.get "strokes" with
      | error e => simp [hparse, hget, bind, Except.bind] at h
      | ok v =>
        simp only [hparse, hget, ok_bind] at h
        split at h
        next strokes fields =>
          obtain ⟨rfl⟩ := h
          exact ⟨o, fields, rfl, Value.field_of_get hget⟩
        next => cases h
  · rintro ⟨o, fields, hparse, hstrokes⟩
    have hget : o.get "strokes" = .ok (.array items fields) := by
      rw [Value.get_of_field hstrokes (by simp), hstrokes]
    simp only [hparse, hget, ok_bind]

theorem Sound.deserialize (h : m.Sound) (hbenign : Benign js json) : (m.deserialize js json).Sound := by
  unfold LoadedModel.deserialize
  split
  next items hread =>
    obtain ⟨o, fields, hparse, hstrokes⟩ := readStrokes_eq_some_iff.mp hread
    exact ⟨hbenign o items fields hparse hstrokes, h.undoStack, h.current, h.penRGBA⟩
  next => exact h

/-- One call. -/
theorem Sound.call (h : m.Sound) (c : Call N) (hbenign : ∀ json, c = .deserialize json → Benign js json) :
    Yields (m.call js c) Sound := by
  cases c with
  | edit c =>
    cases c with
    | beginStroke x y p windowSeq => exact h.beginStroke x y p windowSeq
    | appendPoint x y p => exact yields_ok (h.appendPoint x y p)
    | commitCurrent => exact h.commitCurrent
    | beginErase x y windowSeq => exact h.beginErase x y windowSeq
    | appendErase x y => exact h.appendErase x y
    | finishErase => exact h.finishErase
    | clearAll => exact h.clearAll
    | undoOne => exact yields_ok h.undoOne
    | translateAll dx dy => exact h.translateAll dx dy
  | deserialize json => exact yields_ok (h.deserialize (hbenign json rfl))
  | paint clipRects => exact (h.paint clipRects).bind fun _ _ => yields_ok h

/-! ### Runs -/

theorem after_concat (calls : List (Call N)) (c : Call N) :
    after js (calls ++ [c]) = after js calls >>= fun m => m.call js c := by
  rw [after, List.foldlM_append]
  congr 1
  funext m
  simp

theorem strokes_deserialize {items : List (Value N)} (h : readStrokes js json = .ok (some items)) :
    (m.deserialize js json).strokes = items := by
  rw [deserialize, h]

theorem sound_after {calls : List (Call N)} (h : ∀ json, .deserialize json ∈ calls → Benign js json) :
    Yields (after js calls) Sound :=
  yields_foldlM sound_empty fun _ hm c hc => hm.call c fun json heq => h json (heq ▸ hc)

/-- The calls of a run return and their strokes are well formed just where every text that is loaded
is benign, and what is serialized is restored where JSON does not lose any of it. -/
theorem yields_wellFormed_iff (js : Engine N) (calls : List (Call N)) :
    ((∀ k, Yields (after js (calls.take k)) fun m => ∀ s ∈ m.strokes, WellFormed s) ↔
      ∀ json, .deserialize json ∈ calls → Benign js json) ∧
    ∀ m m' : LoadedModel N, js.parse (m.serialize js) = .ok m.json →
      (m'.deserialize js (m.serialize js)).strokes = m.strokes := by
  refine ⟨⟨fun h json hmem => ?_, fun h k => ?_⟩, fun m m' hparse => ?_⟩
  · intro o items fields hparse hstrokes
    obtain ⟨k, hk, hget⟩ := List.mem_iff_getElem.mp hmem
    obtain ⟨m, hafter, -⟩ := h k
    have hnext := h (k + 1)
    rw [List.take_succ_eq_append_getElem hk, hget, after_concat, hafter] at hnext
    obtain ⟨m', hm', hformed⟩ := hnext
    obtain rfl : m.deserialize js json = m' := Except.ok.inj hm'
    rwa [strokes_deserialize (readStrokes_eq_some_iff.mpr ⟨o, fields, hparse, hstrokes⟩)] at hformed
  · exact (sound_after fun json hmem => h json (List.mem_of_mem_take hmem)).mono fun m hm => hm.strokes
  · exact strokes_deserialize (readStrokes_eq_some_iff.mpr ⟨m.json, [], hparse, rfl⟩)

/-- Doubles, with a JSON that knows one text. Strings and objects are not used as numbers below. -/
def floats (text : String) (v : Value Float) : Engine Float where
  literal q := Float.ofInt q.num / Float.ofNat q.den
  add a b := a + b
  sub a b := a - b
  mul a b := a * b
  div a b := a / b
  lt a b := a < b
  le a b := a ≤ b
  eq a b := a == b
  infinity := 1 / 0
  toNumber v :=
    match v with
    | .number n => .ok n
    | .undefined => .ok (0 / 0)
    | .null => .ok 0
    | .bool b => .ok (if b then 1 else 0)
    | _ => .error .typeError
  plus v n :=
    match v with
    | .number m => .ok (.number (m + n))
    | .undefined => .ok (.number (0 / 0))
    | .null => .ok (.number n)
    | .bool b => .ok (.number ((if b then 1 else 0) + n))
    | _ => .error .typeError
  parse json := if json = text then .ok v else .error .syntaxError
  stringify _ := text
  toNumber_number _ := rfl
  plus_number _ _ := rfl

theorem parse_floats (text : String) (v : Value Float) : (floats text v).parse text = .ok v := if_pos rfl

/-- A dot, as it is stored. -/
def dot : Value Float :=
  .object [("rgba", .array [.number 0, .number 0, .number 0, .number 1] []),
    ("pts", .array [.object [("x", .number 1), ("y", .number 2), ("p", .number 0.5)]] []), ("windowSeq", .number (-1))]

theorem wellFormed_dot : WellFormed dot := by
  refine ⟨⟨0, 0, 0, 1, [], rfl⟩, _, [], rfl, fun v hv => ?_⟩
  obtain rfl := List.mem_singleton.mp hv
  exact ⟨⟨1, rfl⟩, ⟨2, rfl⟩, ⟨0.5, rfl⟩⟩

/-- The text of a model with a dot is loaded, and is that of the model. -/
theorem yields_wellFormed_iff_dot :
    let stroke := "\x7b\"rgba\":[0,0,0,1],\"pts\":[\x7b\"x\":1,\"y\":2,\"p\":0.5\x7d],\"windowSeq\":-1\x7d"
    let text := "\x7b\"strokes\":[" ++ stroke ++ "]\x7d"
    let js := floats text (.object [("strokes", .array [dot] [])])
    (∀ k, Yields (after js ([.deserialize text, .edit .clearAll].take k)) fun m => ∀ s ∈ m.strokes, WellFormed s) ∧
      ((empty js).deserialize js ({ empty js with strokes := [dot] }.serialize js)).strokes = [dot] := by
  intro stroke text js
  have hparse : js.parse text = .ok (.object [("strokes", .array [dot] [])]) := parse_floats _ _
  refine ⟨(yields_wellFormed_iff js _).1.mpr fun json hmem => ?_,
    (yields_wellFormed_iff js []).2 { empty js with strokes := [dot] } (empty js) hparse⟩
  obtain rfl : json = text := by simpa using hmem
  intro o items fields ho hstrokes
  obtain rfl := Except.ok.inj (hparse.symm.trans ho)
  obtain ⟨rfl, rfl⟩ := Value.array.inj hstrokes
  intro s hs
  obtain rfl := List.mem_singleton.mp hs
  exact wellFormed_dot

/-- An array with `null` in it is installed, and the next `clearAll` throws. -/
theorem not_wellFormed_null :
    let text := "\x7b\"strokes\":[null]\x7d"
    let js := floats text (.object [("strokes", .array [.null] [])])
    after js [.deserialize text] = .ok { empty js with strokes := [.null] } ∧ ¬ WellFormed (.null : Value Float) ∧
      after js [.deserialize text, .edit .clearAll] = .error .typeError := by
  intro text js
  have hparse : js.parse text = .ok (.object [("strokes", .array [.null] [])]) := parse_floats _ _
  have hread : readStrokes js text = .ok (some [.null]) := readStrokes_eq_some_iff.mpr ⟨_, [], hparse, rfl⟩
  have hloaded : (empty js).deserialize js text = { empty js with strokes := [.null] } := by rw [deserialize, hread]
  refine ⟨congrArg Except.ok hloaded, fun h => ?_, ?_⟩
  · obtain ⟨pts, fields, hpts, -⟩ := h.pts
    cases hpts
  · change ((empty js).deserialize js text).clearAll js = _
    rw [hloaded]
    rfl

end LoadedModel

end Annotations.History
