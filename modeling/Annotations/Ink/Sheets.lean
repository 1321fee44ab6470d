import Annotations.Layer.Step
import Annotations.Sheets.Invariants

/-! The layer as a pen over sheets: the canvases of a layer, read off its fields, and
what the building blocks of its functions do to them. -/

namespace Annotations

open Sheets

variable {K : Type}

def Stroke.line (s : Stroke K) : Line := ⟨s.addr, s.followScroll, s.points.map (·.stamp)⟩

namespace MetaAnnotationLayer

section Abstraction
variable (layer : MetaAnnotationLayer K)

/-- The sheets of a layer. Only a window that is managed has room for one. -/
def sheets : State Canvas where
  live := layer.active && !layer.paused
  down := layer.strokeActive
  anchor := layer.strokeAnchor
  current := layer.currentStroke
  follow := layer.strokeFollowScroll
  remembered := if layer.lastInkPresent then some layer.lastInkAnchor else none
  ink := fun c => (layer.canvasStrokes c).map (·.map Stroke.line)
  next := layer.nextStroke
  clock := layer.ledger.clock
  last := layer.ledger.strokeLastStamp
  newest := layer.ledger.newestInk
  room := {c | ∀ win, c = some win → win ∈ layer.display.windows}

end Abstraction

variable {layer : MetaAnnotationLayer K} {L : Kind → Prop} {c : Canvas} {win : WindowId}

theorem line_of_every {P : Line → Prop} (h : layer.sheets.Every P) {strokes : List (Stroke K)}
    (hstrokes : layer.canvasStrokes c = some strokes) {s : Stroke K} (hs : s ∈ strokes) :
    P s.line := by
  refine h c (strokes.map Stroke.line) ?_ _ (List.mem_map_of_mem hs)
  simp [sheets, hstrokes]

/-! ### Functions that leave the sheets alone -/

theorem canvasStrokes_modifyInk {f : WindowInk K → WindowInk K}
    (hf : ∀ ink, layer.perWindow win = some ink → (f ink).strokes = ink.strokes) :
    (layer.modifyInk win f).canvasStrokes = layer.canvasStrokes := by
  funext c
  cases c with
  | none => rfl
  | some w =>
    by_cases hw : w = win
    · subst hw
      cases hrec : layer.perWindow w with
      | none => simp [canvasStrokes, modifyInk, hrec]
      | some ink => simp [canvasStrokes, modifyInk, hrec, hf ink hrec]
    · simp [canvasStrokes, modifyInk, hw]

@[simp] theorem currentStroke_setCanvasStrokes (strokes : List (Stroke K)) :
    (layer.setCanvasStrokes c strokes).currentStroke = layer.currentStroke := by
  cases c <;> rfl

@[simp] theorem currentStroke_modifyCanvasSurface (f : Surface K → Surface K) :
    (layer.modifyCanvasSurface c f).currentStroke = layer.currentStroke := by
  cases c <;> rfl

@[simp] theorem canvasStrokes_modifyCanvasSurface (f : Surface K → Surface K) :
    (layer.modifyCanvasSurface c f).canvasStrokes = layer.canvasStrokes := by
  cases c with
  | none => exact funext fun c => by cases c <;> rfl
  | some win => exact canvasStrokes_modifyInk fun _ _ => rfl

theorem sheets_modifyInk {f : WindowInk K → WindowInk K}
    (hf : ∀ ink, layer.perWindow win = some ink → (f ink).strokes = ink.strokes) :
    (layer.modifyInk win f).sheets = layer.sheets := by
  simp only [sheets, canvasStrokes_modifyInk hf]
  rfl

@[simp] theorem sheets_modifyCanvasSurface (f : Surface K → Surface K) :
    (layer.modifyCanvasSurface c f).sheets = layer.sheets := by
  cases c with
  | none => rfl
  | some win => exact sheets_modifyInk fun _ _ => rfl

@[simp] theorem canvasStrokes_scheduleRecompose :
    layer.scheduleRecompose.canvasStrokes = layer.canvasStrokes := by
  rw [scheduleRecompose_eq]
  exact funext fun c => by cases c <;> rfl

@[simp] theorem currentStroke_scheduleRecompose :
    layer.scheduleRecompose.currentStroke = layer.currentStroke := by
  rw [scheduleRecompose_eq]

@[simp] theorem sheets_scheduleRecompose : layer.scheduleRecompose.sheets = layer.sheets := by
  unfold scheduleRecompose
  split_ifs <;> rfl

@[simp] theorem sheets_recompose : layer.recompose.sheets = layer.sheets := by
  unfold recompose
  split
  · rfl
  · split_ifs <;> rfl

@[simp] theorem sheets_dropIdle : layer.dropIdle.sheets = layer.sheets := rfl

theorem sheets_updateActorVisibility : layer.updateActorVisibility.sheets = layer.sheets := by
  unfold updateActorVisibility
  split_ifs
  · exact sheets_recompose.trans sheets_dropIdle
  · rfl
  · rfl

theorem sheets_recomposeIdleCb : layer.recomposeIdleCb.sheets = layer.sheets := by
  unfold recomposeIdleCb
  split_ifs
  · exact sheets_recompose
  · rfl

/-- A display with the same windows on it leaves the same room. -/
theorem sheets_setDisplay {display : MetaDisplay} (h : display.windows = layer.display.windows) :
    (layer.setDisplay display).sheets = layer.sheets := by
  simp only [sheets, setDisplay, h]
  rfl

theorem canvasStrokes_setCanvasStrokes (strokes : List (Stroke K)) (c' : Canvas) :
    (layer.setCanvasStrokes c strokes).canvasStrokes c' =
      if c' = c then (layer.canvasStrokes c).map fun _ => strokes else layer.canvasStrokes c' := by
  cases c with
  | none => cases c' <;> simp [setCanvasStrokes, canvasStrokes]
  | some win =>
    cases c' with
    | none => simp [setCanvasStrokes, canvasStrokes, modifyInk]
    | some w =>
      by_cases hw : w = win
      · subst hw
        simp [setCanvasStrokes, canvasStrokes, modifyInk, Function.comp_def]
      · simp [setCanvasStrokes, canvasStrokes, modifyInk, hw]

theorem sheets_setCanvasStrokes (strokes : List (Stroke K)) :
    (layer.setCanvasStrokes c strokes).sheets =
      { layer.sheets with ink := fun c' => if c' = c then
          (layer.sheets.ink c).map fun _ => strokes.map Stroke.line else layer.sheets.ink c' } := by
  have hsheets : (layer.setCanvasStrokes c strokes).sheets = { layer.sheets with
      ink := fun c' => ((layer.setCanvasStrokes c strokes).canvasStrokes c').map (·.map Stroke.line) } := by
    cases c <;> rfl
  rw [hsheets]
  refine State.ext rfl rfl rfl rfl rfl rfl (funext fun c' => ?_) rfl rfl rfl rfl rfl
  simp only [canvasStrokes_setCanvasStrokes]
  split_ifs
  · simp [sheets, Function.comp_def]
  · rfl

/-- Only the ink changes, and it shrinks when strokes are removed. -/
theorem sheets_setCanvasStrokes_shrinks {strokes : List (Stroke K)}
    (hsub : strokes.Sublist ((layer.canvasStrokes c).getD [])) :
    ∃ ink, Shrinks layer.sheets.ink ink ∧ (layer.strokeAnchor ≠ c →
      ink layer.strokeAnchor = layer.sheets.ink layer.strokeAnchor) ∧
      (layer.setCanvasStrokes c strokes).sheets = { layer.sheets with ink := ink } := by
  refine ⟨_, fun c' => ?_, fun hne => ?_, sheets_setCanvasStrokes strokes⟩
  · by_cases hc : c' = c
    · subst hc
      cases hcanvas : layer.canvasStrokes c' with
      | none => simp [sheets, hcanvas]
      | some strokes' =>
        rw [hcanvas, Option.getD_some] at hsub
        simpa [sheets, hcanvas] using hsub.map Stroke.line
    · simp [hc]
  · simp [hne]

theorem sheets_sealStroke (followScroll : Bool) :
    (layer.sealStroke followScroll).sheets = layer.sheets.lift none followScroll := rfl

@[simp] theorem canvasStrokes_setLastInkAnchor (anchor : Canvas) (present : Bool) :
    (layer.setLastInkAnchor anchor present).canvasStrokes = layer.canvasStrokes :=
  funext fun c => by cases c <;> rfl

theorem sheets_forget : (layer.setLastInkAnchor none false).sheets =
    { layer.sheets with remembered := none } := rfl

theorem canvasStrokes_writeStroke {addr : ℕ} {f : Stroke K → Stroke K} :
    (layer.writeStroke addr f).canvasStrokes c = (layer.canvasStrokes c).map
      (List.map fun s : Stroke K => if s.addr = addr then f s else s) := by
  cases c with
  | none => rfl
  | some win => simp [canvasStrokes, writeStroke, Function.comp_def]

/-- A write through the stroke pointer that adds one point. -/
theorem sheets_writeStroke {f : Stroke K → Stroke K} {addr p : ℕ}
    (hf : ∀ s, (f s).line = { s.line with stamps := s.line.stamps ++ [p] }) :
    (layer.writeStroke addr f).sheets = layer.sheets.write addr p := by
  have hmap : ∀ strokes : List (Stroke K),
      (strokes.map fun s => if s.addr = addr then f s else s).map Stroke.line =
        (strokes.map Stroke.line).map fun m =>
          if m.addr = addr then { m with stamps := m.stamps ++ [p] } else m := by
    intro strokes
    rw [List.map_map, List.map_map]
    refine List.map_congr_left fun s _ => ?_
    by_cases haddr : s.addr = addr
    · have hline := hf s
      simpa [haddr, Stroke.line] using hline
    · simp [haddr, Stroke.line]
  refine State.ext rfl rfl rfl rfl rfl rfl (funext fun c => ?_) rfl rfl rfl rfl rfl
  cases c with
  | none => simp [sheets, canvasStrokes, writeStroke, State.write, hmap]
  | some win =>
    cases hink : layer.perWindow win <;>
      simp [sheets, canvasStrokes, writeStroke, State.write, hink, hmap]

/-! ### Adding points -/

theorem isSome_ink : (layer.sheets.ink c).isSome = (layer.canvasStrokes c).isSome := Option.isSome_map

/-- Opening a stroke on the anchor canvas starts a line without points. -/
theorem sheets_openStroke {strokes : List (Stroke K)}
    (hcanvas : layer.canvasStrokes layer.strokeAnchor = some strokes) :
    { (layer.openStroke layer.strokeAnchor strokes layer.strokeFollowScroll).sheets with
      newest := some layer.strokeAnchor } = layer.sheets.start [] := by
  have hopen : (layer.openStroke layer.strokeAnchor strokes layer.strokeFollowScroll).sheets =
      { (layer.setCanvasStrokes layer.strokeAnchor (strokes ++ [{ strokeNew layer.nextStroke layer.rgba
          with followScroll := layer.strokeFollowScroll }])).sheets with
        current := some layer.nextStroke
        next := layer.nextStroke + 1 } := rfl
  have hink : layer.sheets.ink layer.strokeAnchor = some (strokes.map Stroke.line) := by
    simp [sheets, hcanvas]
  rw [hopen, sheets_setCanvasStrokes]
  refine State.ext rfl rfl rfl rfl rfl rfl (funext fun c => ?_) rfl rfl rfl rfl rfl
  have hanchor : layer.sheets.anchor = layer.strokeAnchor := rfl
  by_cases hc : c = layer.strokeAnchor
  · subst hc
    simp [State.start, hanchor, hink, Stroke.line, strokeNew]
    exact ⟨rfl, rfl⟩
  · simp [State.start, hanchor, hc]

section Append
variable [Scalar K]

/-- The stroke in flight, when there is one, receives the point. -/
theorem sheets_appendInkPoint_some {pt : InkPoint K} {followScroll : Bool} {addr : ℕ}
    (hcur : layer.currentStroke = some addr) (hcanvas : (layer.canvasStrokes c).isSome) :
    (layer.appendInkPoint c pt followScroll).sheets =
      { layer.sheets.write addr pt.stamp with newest := some c } := by
  obtain ⟨strokes, hstrokes⟩ := Option.isSome_iff_exists.mp hcanvas
  rw [← sheets_writeStroke (f := fun s => strokeAppendPoint s pt) fun s => by simp [Stroke.line]]
  simp only [appendInkPoint, hstrokes, hcur, Option.isNone_some, Bool.false_eq_true, if_false]
  rfl

/-- Without a stroke in flight the point starts one. -/
theorem sheets_appendInkPoint_none {pt : InkPoint K} (hwf : WellFormed layer.sheets)
    (hcur : layer.currentStroke = none) :
    (layer.appendInkPoint layer.strokeAnchor pt layer.strokeFollowScroll).sheets =
      layer.sheets.start [pt.stamp] := by
  have hanchored : (layer.canvasStrokes layer.strokeAnchor).isSome := isSome_ink ▸ hwf.anchored
  obtain ⟨strokes, hstrokes⟩ := Option.isSome_iff_exists.mp hanchored
  have hopen := sheets_openStroke hstrokes
  have hwrite : ((layer.openStroke layer.strokeAnchor strokes layer.strokeFollowScroll).writeStroke
      layer.nextStroke fun s => strokeAppendPoint s pt).sheets =
      (layer.openStroke layer.strokeAnchor strokes layer.strokeFollowScroll).sheets.write
        layer.nextStroke pt.stamp := sheets_writeStroke fun s => by simp [Stroke.line]
  have happend : (layer.appendInkPoint layer.strokeAnchor pt layer.strokeFollowScroll).sheets =
      { ((layer.openStroke layer.strokeAnchor strokes layer.strokeFollowScroll).writeStroke
          layer.nextStroke fun s => strokeAppendPoint s pt).sheets with
        newest := some layer.strokeAnchor } := by
    simp only [appendInkPoint, hstrokes, hcur, Option.isNone_none, if_true]
    rfl
  calc (layer.appendInkPoint layer.strokeAnchor pt layer.strokeFollowScroll).sheets
      = ({ (layer.openStroke layer.strokeAnchor strokes layer.strokeFollowScroll).sheets with
          newest := some layer.strokeAnchor } : State Canvas).write layer.nextStroke pt.stamp := by
        rw [happend, hwrite]
        rfl
    _ = (layer.sheets.start []).write layer.sheets.next pt.stamp := by rw [hopen]; rfl
    _ = layer.sheets.start [pt.stamp] := start_write hwf.distinct [] pt.stamp

end Append

end MetaAnnotationLayer

end Annotations
