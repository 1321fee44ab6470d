import Annotations.Ink.Sheets

/-! The layer simulates the pen over sheets: the functions that begin
and continue a stroke are sequences of moves. -/

namespace Annotations

open Sheets

variable {K : Type}

namespace MetaAnnotationLayer

variable {layer : MetaAnnotationLayer K} {L : Kind → Prop} {c : Canvas} {win : WindowId}

section Quiet
variable (hq : L .quiet)
include hq

theorem moves_sealStroke (followScroll : Bool) :
    Moves L layer.sheets (layer.sealStroke followScroll).sheets :=
  (Move.lift none followScroll rfl).moves hq

theorem moves_forget : Moves L layer.sheets (layer.setLastInkAnchor none false).sheets :=
  Move.forget.moves hq

/-- Strokes may be removed from a canvas that the stroke in flight is not on. -/
theorem moves_setCanvasStrokes {strokes : List (Stroke K)}
    (hsub : strokes.Sublist ((layer.canvasStrokes c).getD []))
    (hcur : layer.currentStroke = none ∨ layer.strokeAnchor ≠ c) :
    Moves L layer.sheets (layer.setCanvasStrokes c strokes).sheets := by
  obtain ⟨ink, hink, hkeep, heq⟩ := sheets_setCanvasStrokes_shrinks hsub
  rw [heq]
  exact (Move.shrink ink hink (hcur.imp id hkeep)).moves hq

theorem moves_ensureWindowInk [Scalar K] (hwin : win ∈ layer.display.windows) :
    Moves L layer.sheets (layer.ensureWindowInk win).sheets := by
  unfold ensureWindowInk
  cases hink : layer.perWindow win with
  | some ink => exact .refl
  | none =>
    simp only
    split_ifs
    · exact .refl
    · have habsent : layer.sheets.ink (some win) = none := by simp [sheets, canvasStrokes, hink]
      have hroom : some win ∈ layer.sheets.room := fun w hw => Option.some.inj hw ▸ hwin
      convert (Move.attach (some win) habsent hroom).moves hq using 1
      refine State.ext rfl rfl rfl rfl rfl rfl (funext fun c => ?_) rfl rfl rfl rfl rfl
      cases c with
      | none => rfl
      | some w =>
        by_cases hw : w = win
        · subst hw
          simp [sheets, canvasStrokes, State.setInk]
        · simp [sheets, canvasStrokes, State.setInk, hw]

end Quiet

/-! ### Strokes -/

variable [Scalar K]

/-- Picking the anchor and starting the stroke there is a press, whatever coordinate
space is settled on afterwards. -/
theorem moves_placeStroke (hq : L .quiet) (hpen : L .pen) (hlive : layer.sheets.live)
    (x y : K) (pressure tiltFactor : Option K) (followScroll : Bool) :
    Moves L layer.sheets
      ({ layer.placeStroke x y pressure tiltFactor with strokeFollowScroll := followScroll } :
        MetaAnnotationLayer K).sheets := by
  cases hpick : layer.pickAnchorWindow x y with
  | none =>
    convert (Move.press none followScroll rfl hlive).moves hpen using 1
    simp only [placeStroke, hpick]
    rfl
  | some win =>
    obtain ⟨hwin, hwidth, hheight⟩ := pickAnchorWindow_eq_some hpick
    have hensure := moves_ensureWindowInk hq hwin
    have hink : ((layer.ensureWindowInk win).sheets.ink (some win)).isSome := by
      have hrecord := layer.ensureWindowInk_perWindow_isSome hwidth hheight
      rwa [isSome_ink, canvasStrokes, Option.isSome_map]
    have hself : layer.ensureWindowInk win =
        { layer with perWindow := (layer.ensureWindowInk win).perWindow } := ensureWindowInk_eq rfl rfl
    have hlive' : (layer.ensureWindowInk win).sheets.live := by rwa [hself]
    refine hensure.trans ?_
    convert (Move.press (some win) followScroll hink hlive').moves hpen using 1
    have hplace : ({ layer.setStrokeAnchor (some win) with
        currentStroke := none
        strokeFollowScroll := false } : MetaAnnotationLayer K).ensureWindowInk win =
        { layer.setStrokeAnchor (some win) with
          currentStroke := none
          strokeFollowScroll := false
          perWindow := (layer.ensureWindowInk win).perWindow } := ensureWindowInk_eq rfl rfl
    simp only [placeStroke, hpick, hplace]
    rw [hself]
    rfl

theorem placeStroke_currentStroke (x y : K) (pressure tiltFactor : Option K) :
    (layer.placeStroke x y pressure tiltFactor).currentStroke = none := by
  simp only [placeStroke]
  split
  · rw [ensureWindowInk_eq rfl rfl]
  · rfl

theorem placeStroke_strokeAnchor (x y : K) (pressure tiltFactor : Option K) :
    (layer.placeStroke x y pressure tiltFactor).strokeAnchor = layer.pickAnchorWindow x y := by
  simp only [placeStroke]
  split
  next hpick => rw [ensureWindowInk_eq rfl rfl, setStrokeAnchor, hpick]
  next hpick => rw [setStrokeAnchor, hpick]

/-- Appending a point leaves the stroke in flight where it is. -/
theorem appendInkPoint_strokeAnchor (pt : InkPoint K) (followScroll : Bool) :
    (layer.appendInkPoint c pt followScroll).strokeAnchor = layer.strokeAnchor ∧
      (layer.appendInkPoint c pt followScroll).strokeActive = layer.strokeActive := by
  unfold appendInkPoint
  split
  · exact ⟨rfl, rfl⟩
  · dsimp only
    split_ifs
    · cases c <;> exact ⟨rfl, rfl⟩
    · split <;> exact ⟨rfl, rfl⟩

/-- A press anchors the stroke to the window it picks. -/
theorem beginStroke_strokeAnchor (x y : K) (pressure tiltFactor : Option K) (erase : Bool) :
    (layer.beginStroke x y pressure tiltFactor erase).strokeAnchor = layer.pickAnchorWindow x y := by
  rw [← placeStroke_strokeAnchor x y pressure tiltFactor, beginStroke]
  dsimp only
  split_ifs
  · rfl
  · exact (appendInkPoint_strokeAnchor ..).1

theorem pressPoint_stamp : layer.pressPoint.stamp = layer.ledger.strokeLastStamp := by
  unfold pressPoint
  split
  · rfl
  · split_ifs <;> rfl

/-- Remembering the anchor and storing the point of the press is a dot. -/
theorem moves_dot (hpen : L .pen) (hwf : WellFormed layer.sheets) (hdown : layer.strokeActive)
    (hcur : layer.currentStroke = none) :
    let remembering := layer.setLastInkAnchor layer.strokeAnchor true
    Moves L layer.sheets (remembering.appendInkPoint remembering.strokeAnchor remembering.pressPoint
      remembering.strokeFollowScroll).sheets := by
  intro remembering
  have hwf' : WellFormed remembering.sheets := by
    refine ⟨hwf.roomy, hwf.anchored, fun c hc => ?_, hwf.distinct, hwf.inFlight⟩
    obtain rfl : layer.strokeAnchor = c := Option.some.inj hc
    exact hwf.anchored
  rw [sheets_appendInkPoint_none hwf' hcur, pressPoint_stamp]
  exact (Move.dot hdown hcur).moves hpen

/-- Beginning a stroke is a press, and in ink mode the first dot. -/
theorem moves_beginStroke (hq : L .quiet) (hpen : L .pen) (hlive : layer.sheets.live)
    (hwf : WellFormed layer.sheets) (x y : K) (pressure tiltFactor : Option K) (erase : Bool) :
    Moves L layer.sheets (layer.beginStroke x y pressure tiltFactor erase).sheets := by
  have hplace := moves_placeStroke hq hpen hlive x y pressure tiltFactor
    ((layer.placeStroke x y pressure tiltFactor).pressFollowsScroll erase)
  have hcur : (layer.placeStroke x y pressure tiltFactor).currentStroke = none :=
    placeStroke_currentStroke ..
  unfold beginStroke
  dsimp only
  split_ifs
  · exact hplace
  · exact hplace.trans (moves_dot hpen (hplace.wellFormed hwf) rfl hcur)

/-! ### Continuing -/

/-- Erasing drops the stroke in flight and removes strokes. -/
theorem sheets_continueErase (layer : MetaAnnotationLayer K) (x y pEnd tEnd : K) :
    ∃ ink, Shrinks layer.sheets.ink ink ∧ (layer.continueErase x y pEnd tEnd).sheets =
      { layer.sheets with current := none, ink := ink } := by
  have hsame : Shrinks layer.sheets.ink layer.sheets.ink := fun c =>
    ⟨Iff.rfl, List.Sublist.refl _⟩
  unfold continueErase
  dsimp only
  split
  next strokes _ hcanvas =>
    split_ifs
    · rw [sheets_modifyCanvasSurface]
      have hsub : (eraseStrokesHitBySegment strokes layer.strokeLastX layer.strokeLastY x y
          (eraserRadius pEnd tEnd) (layer.dropStroke.anchorInk layer.strokeAnchor)).1.Sublist
          ((layer.dropStroke.canvasStrokes layer.dropStroke.strokeAnchor).getD []) := by
        rw [hcanvas]
        exact eraseStrokesHitBySegment_sublist ..
      obtain ⟨ink, hink, _, heq⟩ := sheets_setCanvasStrokes_shrinks hsub
      exact ⟨ink, hink, heq⟩
    · exact ⟨_, hsame, rfl⟩
  · exact ⟨_, hsame, rfl⟩

/-- Storing a segment extends the stroke in flight, or starts one with both its ends. -/
theorem sheets_appendSegment (hwf : WellFormed layer.sheets) (hc : c = layer.strokeAnchor)
    (pPrev pNew : InkPoint K) :
    let seeded := if layer.currentStroke.isNone then
        layer.appendInkPoint c pPrev layer.strokeFollowScroll
      else layer
    (seeded.appendInkPoint c pNew seeded.strokeFollowScroll).sheets =
      match layer.currentStroke with
      | none => layer.sheets.start [pPrev.stamp, pNew.stamp]
      | some addr => { layer.sheets.write addr pNew.stamp with newest := some c } := by
  intro seeded
  subst hc
  cases hcur : layer.currentStroke with
  | none =>
    have hseed : seeded.sheets = layer.sheets.start [pPrev.stamp] := by
      simp only [seeded, hcur, Option.isNone_none, if_true]
      exact sheets_appendInkPoint_none hwf hcur
    have hcur' : seeded.currentStroke = some layer.nextStroke := congrArg State.current hseed
    have hcanvas : (seeded.canvasStrokes layer.strokeAnchor).isSome := by
      rw [← isSome_ink, hseed]
      exact isSome_start hwf.anchored _ _ hwf.anchored
    calc (seeded.appendInkPoint layer.strokeAnchor pNew seeded.strokeFollowScroll).sheets
        = { seeded.sheets.write layer.nextStroke pNew.stamp with
            newest := some layer.strokeAnchor } := sheets_appendInkPoint_some hcur' hcanvas
      _ = (layer.sheets.start [pPrev.stamp]).write layer.sheets.next pNew.stamp := by
          rw [hseed]
          rfl
      _ = layer.sheets.start [pPrev.stamp, pNew.stamp] := start_write hwf.distinct _ _
  | some addr =>
    have hseed : seeded = layer := by simp [seeded, hcur]
    have hcanvas : (layer.canvasStrokes layer.strokeAnchor).isSome := by
      rw [← isSome_ink]
      exact hwf.anchored
    rw [hseed]
    exact sheets_appendInkPoint_some hcur hcanvas

/-- Inking stores the segment in the stroke in flight, or in a new stroke that starts
at the previous pen position; without a target it stores nothing. -/
theorem sheets_continueInk (hwf : WellFormed layer.sheets) (x y pEnd tEnd : K) :
    (layer.continueInk x y pEnd tEnd).sheets = layer.sheets ∨
    (layer.continueInk x y pEnd tEnd).sheets = match layer.currentStroke with
      | none => layer.sheets.start [layer.sheets.last, layer.sheets.clock]
      | some addr =>
        { layer.sheets.write addr layer.sheets.clock with newest := some layer.strokeAnchor } := by
  unfold continueInk
  dsimp only
  split
  · right
    generalize hpainted : layer.modifyCanvasSurface _ _ = painted
    have hsheets : painted.sheets = layer.sheets := hpainted ▸ sheets_modifyCanvasSurface _
    have hcur : painted.currentStroke = layer.currentStroke := congrArg State.current hsheets
    have hanchor : layer.strokeAnchor = painted.strokeAnchor := congrArg State.anchor hsheets.symm
    have hsegment := sheets_appendSegment (hsheets ▸ hwf) hanchor layer.seedPoint
      (InkPoint.moved ⟨x, y, pEnd, tEnd, layer.ledger.clock⟩ layer.followOffset)
    rw [hsheets] at hsegment
    rw [← hcur]
    exact hsegment
  · exact .inl rfl

/-- Another canvas than the anchor is remembered as the undo target. -/
def remembersElsewhere (layer : MetaAnnotationLayer K) : Bool :=
  layer.lastInkPresent && layer.lastInkAnchor ≠ layer.strokeAnchor

/-- The event continues the stroke in flight. -/
def continues (layer : MetaAnnotationLayer K) (event : ClutterEvent K) : Bool :=
  layer.takesEvents && layer.strokeActive && match event.type with
    | .motion | .touchUpdate | .touchEnd => true
    | .buttonRelease => (layer.handleToolModifierPress event false).isNone
    | _ => false

/-- The event continues the stroke in flight in ink mode while another canvas than its
own is remembered as the undo target. -/
def inksElsewhere (layer : MetaAnnotationLayer K) (event : ClutterEvent K) : Bool :=
  layer.continues event && !layer.eraseIsActive event && layer.remembersElsewhere

omit [Scalar K] in
theorem recalls_of_not_remembersElsewhere (h : layer.remembersElsewhere = false) :
    layer.sheets.Recalls := by
  intro c hc
  cases hpresent : layer.lastInkPresent with
  | false => simp [sheets, hpresent] at hc
  | true =>
    simp only [sheets, hpresent, if_true, Option.some.injEq] at hc
    simp only [remembersElsewhere, hpresent, Bool.true_and, decide_eq_false_iff_not, not_not] at h
    exact hc.symm.trans h

/-- Continuing a stroke draws with the pen, and elsewhere than on the remembered canvas
only in ink mode. -/
theorem moves_continueStroke (hq : L .quiet) (hpen : L .pen) (hdown : layer.strokeActive)
    (hwf : WellFormed layer.sheets) (x y : K) (pressure tiltFactor : Option K) (erase : Bool)
    (hstray : erase = false → layer.remembersElsewhere → L .stray) :
    Moves L layer.sheets (layer.continueStroke x y pressure tiltFactor erase).sheets := by
  unfold continueStroke
  dsimp only
  rw [sheets_scheduleRecompose]
  generalize (layer.convertStageToLocal x y).1 = lx
  generalize (layer.convertStageToLocal x y).2 = ly
  generalize pressure.getD layer.lastPressure = pEnd
  generalize tiltFactor.getD layer.lastTiltFactor = tEnd
  cases erase with
  | true =>
    obtain ⟨ink, hink, heq⟩ := layer.sheets_continueErase lx ly pEnd tEnd
    have hdrop : Moves L layer.sheets { layer.sheets with current := none } := Move.drop.moves hq
    have hshrink : Moves L { layer.sheets with current := none }
        { layer.sheets with current := none, ink := ink } :=
      Move.moves (Move.shrink ink hink (.inl rfl)) hq
    have hhover : Moves L { layer.sheets with current := none, ink := ink }
        { layer.sheets with current := none, ink := ink, last := layer.sheets.clock } :=
      Move.moves (Move.hover hdown) hpen
    refine (hdrop.trans hshrink).trans ?_
    convert hhover using 1
    exact congrArg (fun s : State Canvas => { s with last := s.clock }) heq
  | false =>
    have hkind : ∃ k, L k ∧ (k = .pen ∧ layer.sheets.Recalls ∨ k = .stray) := by
      cases hs : layer.remembersElsewhere with
      | true => exact ⟨.stray, hstray rfl hs, .inr rfl⟩
      | false => exact ⟨.pen, hpen, .inl ⟨rfl, recalls_of_not_remembersElsewhere hs⟩⟩
    obtain ⟨k, hk, hkind⟩ := hkind
    rcases sheets_continueInk hwf lx ly pEnd tEnd with heq | heq
    · convert (Move.hover (s := layer.sheets) hdown).moves hpen using 1
      exact congrArg (fun s : State Canvas => { s with last := s.clock }) heq
    · cases hcur : layer.currentStroke with
      | none =>
        rw [hcur] at heq
        convert (Move.resume (s := layer.sheets) k hkind hdown hcur).moves hk using 1
        exact congrArg (fun s : State Canvas => { s with last := s.clock }) heq
      | some addr =>
        rw [hcur] at heq
        convert (Move.line (s := layer.sheets) k hkind addr hdown hcur).moves hk using 1
        exact congrArg (fun s : State Canvas => { s with last := s.clock }) heq

end MetaAnnotationLayer

end Annotations
