import Annotations.Dock.Contacts
import Annotations.Ink.Simulation

/-! No swallowed stroke. A chrome press in flight is that of a contact which is still
down, as long as the layer is active when that contact ends, so that a press with no
other contact down reaches the layer and begins a stroke. -/

namespace Annotations

open Runs

variable {K : Type} [Scalar K]

namespace MetaAnnotationLayer

variable {layer layer' : MetaAnnotationLayer K} {event : ClutterEvent K} {nowUs : ℤ}
  {contacts : Contacts} {c : Canvas}

/-! ### A press that is handled begins a stroke -/

/-- A stroke is in flight at the anchor picked at the event, and in ink mode it is a new
one with the point of the event. -/
structure BeginsStroke (layer : MetaAnnotationLayer K) (event : ClutterEvent K)
    (layer' : MetaAnnotationLayer K) : Prop where
  strokeActive : layer'.strokeActive
  strokeAnchor : layer'.strokeAnchor = layer.pickAnchorWindow event.x event.y
  inks : layer.eraseIsActive event = false → ∃ strokes s,
    layer'.canvasStrokes layer'.strokeAnchor = some (strokes ++ [s]) ∧
    layer'.currentStroke = some s.addr ∧ s.addr = layer.nextStroke ∧ s.points.length = 1

/-- Without a stroke in flight, appending a point opens a stroke with that point. -/
theorem appendInkPoint_opens {pt : InkPoint K} {followScroll : Bool}
    (hcur : layer.currentStroke = none) (hcanvas : (layer.canvasStrokes c).isSome) :
    ∃ strokes s, (layer.appendInkPoint c pt followScroll).canvasStrokes c = some (strokes ++ [s]) ∧
      (layer.appendInkPoint c pt followScroll).currentStroke = some s.addr ∧
      s.addr = layer.nextStroke ∧ s.points.length = 1 := by
  obtain ⟨strokes, hstrokes⟩ := Option.isSome_iff_exists.mp hcanvas
  have happend : (layer.appendInkPoint c pt followScroll).canvasStrokes c =
      ((layer.openStroke c strokes followScroll).writeStroke layer.nextStroke
        fun s => strokeAppendPoint s pt).canvasStrokes c := by
    simp only [appendInkPoint, hstrokes, hcur, Option.isNone_none, if_true]
    cases c <;> rfl
  have hcur' : (layer.appendInkPoint c pt followScroll).currentStroke = some layer.nextStroke := by
    simp only [appendInkPoint, hstrokes, hcur, Option.isNone_none, if_true]
    rfl
  obtain ⟨s, haddr, hpoints, hopen⟩ : ∃ s : Stroke K, s.addr = layer.nextStroke ∧ s.points = [] ∧
      (layer.openStroke c strokes followScroll).canvasStrokes c = some (strokes ++ [s]) := by
    refine ⟨{ strokeNew layer.nextStroke layer.rgba with followScroll := followScroll }, rfl, rfl, ?_⟩
    have hset : ∀ strokes', (layer.setCanvasStrokes c strokes').canvasStrokes c = some strokes' := by
      intro strokes'
      rw [canvasStrokes_setCanvasStrokes, if_pos rfl, hstrokes, Option.map_some]
    cases c with
    | none => rfl
    | some win => exact hset _
  refine ⟨strokes.map fun s => if s.addr = layer.nextStroke then strokeAppendPoint s pt else s,
    strokeAppendPoint s pt, ?_, by rw [hcur', strokeAppendPoint_addr, haddr], haddr, by simp [hpoints]⟩
  rw [happend, canvasStrokes_writeStroke, hopen, Option.map_some, List.map_append,
    List.map_singleton, if_pos haddr]

theorem placeStroke_nextStroke (x y : K) (pressure tiltFactor : Option K) :
    (layer.placeStroke x y pressure tiltFactor).nextStroke = layer.nextStroke := by
  simp only [placeStroke]
  split
  · rw [ensureWindowInk_eq rfl rfl]
    rfl
  · rfl

/-- The anchor that is picked has a canvas. -/
theorem isSome_placeStroke (x y : K) (pressure tiltFactor : Option K) :
    ((layer.placeStroke x y pressure tiltFactor).canvasStrokes
      (layer.pickAnchorWindow x y)).isSome := by
  cases hpick : layer.pickAnchorWindow x y with
  | none => rfl
  | some win =>
    obtain ⟨_, hwidth, hheight⟩ := pickAnchorWindow_eq_some hpick
    have hperWindow : (layer.placeStroke x y pressure tiltFactor).perWindow =
        (layer.ensureWindowInk win).perWindow := by
      simp only [placeStroke, hpick]
      exact ensureWindowInk_perWindow_congr rfl rfl
    rw [canvasStrokes, Option.isSome_map, hperWindow]
    exact layer.ensureWindowInk_perWindow_isSome hwidth hheight

/-- `begin_stroke` begins a stroke. -/
theorem beginStroke_begins (layer : MetaAnnotationLayer K) (x y : K) (pressure tiltFactor : Option K) (erase : Bool) :
    let begun := layer.beginStroke x y pressure tiltFactor erase
    begun.strokeActive ∧ begun.strokeAnchor = layer.pickAnchorWindow x y ∧
      (erase = false → ∃ strokes s, begun.canvasStrokes (layer.pickAnchorWindow x y) =
        some (strokes ++ [s]) ∧ begun.currentStroke = some s.addr ∧ s.addr = layer.nextStroke ∧
        s.points.length = 1) := by
  intro begun
  have hbegun : begun = layer.beginStroke x y pressure tiltFactor erase := rfl
  have hanchor : (layer.placeStroke x y pressure tiltFactor).strokeAnchor = layer.pickAnchorWindow x y :=
    placeStroke_strokeAnchor ..
  have hcanvas : ((layer.placeStroke x y pressure tiltFactor).canvasStrokes
      (layer.pickAnchorWindow x y)).isSome := isSome_placeStroke ..
  have hnext : (layer.placeStroke x y pressure tiltFactor).nextStroke = layer.nextStroke :=
    placeStroke_nextStroke ..
  have hcur : (layer.placeStroke x y pressure tiltFactor).currentStroke = none :=
    placeStroke_currentStroke ..
  have hactive : (layer.placeStroke x y pressure tiltFactor).strokeActive := rfl
  unfold beginStroke at hbegun
  generalize layer.placeStroke x y pressure tiltFactor = placed at *
  cases erase with
  | true =>
    simp only [if_true] at hbegun
    rw [hbegun]
    exact ⟨hactive, hanchor, nofun⟩
  | false =>
    simp only [Bool.false_eq_true, if_false] at hbegun
    generalize hready : MetaAnnotationLayer.setLastInkAnchor _ _ _ = ready at hbegun
    have hsame : ready.strokeAnchor = placed.strokeAnchor ∧ ready.strokeActive = placed.strokeActive ∧
        ready.currentStroke = placed.currentStroke ∧ ready.nextStroke = placed.nextStroke := by
      rw [← hready]
      exact ⟨rfl, rfl, rfl, rfl⟩
    have hstrokes : ready.canvasStrokes = placed.canvasStrokes := by
      rw [← hready]
      exact canvasStrokes_setLastInkAnchor ..
    obtain ⟨hanchor', hactive', hcur', hnext'⟩ := hsame
    have hpicked : ready.strokeAnchor = layer.pickAnchorWindow x y := hanchor'.trans hanchor
    rw [hbegun]
    refine ⟨?_, ?_, fun _ => ?_⟩
    · rw [(appendInkPoint_strokeAnchor ..).2, hactive', hactive]
    · rw [(appendInkPoint_strokeAnchor ..).1, hpicked]
    · rw [hpicked, ← hnext, ← hnext']
      exact appendInkPoint_opens (hcur'.trans hcur) (by rwa [hstrokes])

/-- A press that is handled begins a stroke. -/
theorem beginsStroke_pressAt : BeginsStroke layer event (layer.pressAt event nowUs) := by
  obtain ⟨hactive, hanchor, hinks⟩ := layer.beginStroke_begins event.x event.y event.getPressure
    event.getTiltFactor (layer.eraseIsActive event)
  refine ⟨hactive, hanchor, fun herase => ?_⟩
  have hstrokes := hinks herase
  rw [← hanchor] at hstrokes
  obtain ⟨strokes, s, hcanvas, hrest⟩ := hstrokes
  refine ⟨strokes, s, ?_, hrest⟩
  rw [← hcanvas]
  exact congrFun (funext fun c => by cases c <;> rfl) _

/-- A press that the layer takes is handled as one. -/
theorem handleEvent_of_activates (htakes : layer.takesEvents) (hactivates : event.activates) :
    (layer.handleEvent event nowUs).1 = layer.pressAt event nowUs := by
  rcases ClutterEvent.activates_iff.mp hactivates with ⟨hpress, hbutton⟩ | hbegin
  · have hmodifier : layer.handleToolModifierPress event true = none := by
      simp [handleToolModifierPress, hbutton]
    simp [handleEvent, htakes, hpress, handleButtonPress, hbutton, hmodifier]
  · simp [handleEvent, htakes, hbegin]

/-! ### The chrome press is that of a contact that is down -/

/-- The layer has its surface, and a chrome press in flight is that of a contact that is
down. -/
structure OwnerDown (p : MetaAnnotationLayer K × Contacts) : Prop where
  surfaced : p.1.surface.isSome
  owned : p.1.chromePressId.isSome → ∃ contact, p.2.owner = some contact ∧ p.2.down contact ∧
    contact.Pressed K

/-- The contact that pressed a region ends while the layer is active. Runs are of events that are
routed; an end that a grab of the stage withholds from the router is not among them. -/
def EndsActive (p : MetaAnnotationLayer K × Contacts) (op : Op K) : Prop :=
  ∀ contact, p.1.chromePressId.isSome → p.2.owner = some contact → op.Lifts contact → p.1.active

/-- A contact that is down stays down unless the operation ends it. -/
theorem down_see {op : Op K} {contact : Contact} (hdown : contacts.down contact)
    (hop : ¬ op.Lifts contact) : (contacts.see layer op).down contact := by
  cases op with
  | call c => exact hdown
  | route event nowUs =>
    simp only [Contacts.see]
    split_ifs with _ _ hlifts
    · exact hdown
    · by_cases hcontact : contact = event.contact <;> simp [hcontact, hdown]
    · have hne : contact ≠ event.contact := fun heq => hop ⟨hlifts, heq.symm⟩
      rwa [Function.update_of_ne hne]
    · exact hdown

theorem down_see_of_lands {id : String} (hlands : layer.lands event = some id) :
    (contacts.see layer (.route event nowUs)).down event.contact := by
  obtain ⟨hroutes, hactivates, _⟩ := lands_eq_some hlands
  have htargets : metaAnnotationEventTargetsOverlay event := (Bool.and_eq_true _ _ ▸ hroutes).2
  simp [Contacts.see, htargets, hactivates]

theorem surface_opStep {op : Op K} (h : layer.surface.isSome) : (layer.opStep op).surface.isSome := by
  cases op with
  | call c =>
    have hdock : (layer.opStep (.call c)).surface.isSome = (layer.dock.call c).surfaced :=
      congrArg Dock.surfaced (dock_opStep_call c)
    rw [hdock]
    cases c with
    | stageSizeChanged width height => simp [Dock.call, dock, h]
    | _ => exact h
  | route event nowUs =>
    cases layer.routing event nowUs with
    | ignored _ hrouted => rwa [opStep_route hrouted]
    | landed _ _ hrouted => rwa [opStep_route hrouted]
    | ended _ _ _ _ _ hrouted => rwa [opStep_route hrouted]
    | swallowed _ _ _ _ _ hrouted => rwa [opStep_route hrouted]
    | handled _ _ _ hrouted =>
      rw [opStep_route hrouted]
      exact (congrArg Dock.surfaced (dock_handleEvent event nowUs)).trans h

/-- One step keeps the owner of the chrome press down. -/
theorem ownerDown_step {p : MetaAnnotationLayer K × Contacts} {op : Op K} (h : OwnerDown p)
    (hop : EndsActive p op) : OwnerDown (watch opStep Contacts.see p op) := by
  obtain ⟨layer, contacts⟩ := p
  refine ⟨surface_opStep h.surfaced, fun hsome => ?_⟩
  dsimp only [watch] at hsome ⊢
  obtain ⟨id, hid⟩ := Option.isSome_iff_exists.mp hsome
  cases op with
  | call c =>
    have hpressed : layer.chromePressId.isSome := by simp [chromePressId_call hid]
    exact h.owned hpressed
  | route event nowUs =>
    cases hlands : layer.lands event with
    | some id' =>
      exact ⟨event.contact, by simp [Contacts.see, hlands], down_see_of_lands hlands,
        pressed_of_lands hlands⟩
    | none =>
      have hpressed : layer.chromePressId.isSome := by simp [chromePressId_route hlands hid]
      obtain ⟨contact, howner, hdown, hpress⟩ := h.owned hpressed
      have howner' : (contacts.see layer (.route event nowUs)).owner = some contact := by
        simpa [Contacts.see, hlands] using howner
      refine ⟨contact, howner', down_see hdown fun hlifts => ?_, hpress⟩
      have hactive := hop contact hpressed howner hlifts
      exact not_lifts_of_pressed hactive hpress hsome hlands hlifts

/-- No stroke is swallowed: a chrome press in flight is that of a contact that is down,
and a press on the overlay, with the layer active and not paused, outside every chrome
region and with no contact down, begins a stroke. -/
structure NoSwallowedStroke (layer : MetaAnnotationLayer K) (contacts : Contacts) : Prop where
  owned : layer.chromePressId.isSome → ∃ contact, contacts.owner = some contact ∧ contacts.down contact
  begins : ∀ event nowUs, event.activates → metaAnnotationEventTargetsOverlay event →
    layer.active → layer.paused = false → layer.pickChromeRegion event.x event.y = none →
    (∀ contact, contacts.down contact = false) →
    BeginsStroke layer event (layer.opStep (.route event nowUs))

theorem noSwallowedStroke_of_ownerDown (h : OwnerDown (layer, contacts)) :
    NoSwallowedStroke layer contacts := by
  refine ⟨fun hpressed => ?_, fun event nowUs hactivates htargets hactive hpaused hpick hup => ?_⟩
  · obtain ⟨contact, howner, hdown, _⟩ := h.owned hpressed
    exact ⟨contact, howner, hdown⟩
  · have hnone : layer.chromePressId = none := by
      by_contra hpressed
      obtain ⟨contact, _, hdown, _⟩ := h.owned (Option.isSome_iff_ne_none.mpr hpressed)
      simp [hup contact] at hdown
    have htakes : layer.takesEvents := by simp [takesEvents, hactive, hpaused, h.surfaced]
    cases layer.routing event nowUs with
    | ignored hroutes => simp [routes, hactive, htargets] at hroutes
    | landed id hlands => simp [(lands_eq_some hlands).2.2] at hpick
    | ended _ _ _ hpressed => simp [hnone] at hpressed
    | swallowed _ _ _ hpressed => simp [hnone] at hpressed
    | handled _ _ _ hrouted =>
      rw [opStep_route hrouted, handleEvent_of_activates htakes hactivates]
      have hbegins : BeginsStroke layer event (layer.pressAt event nowUs) := beginsStroke_pressAt
      exact ⟨hbegins.strokeActive, hbegins.strokeAnchor, hbegins.inks⟩

/-- No stroke is swallowed in any state of a run in which the contact that pressed a
chrome region ends while the layer is active. -/
theorem noSwallowedStroke_of_endsActive (display : MetaDisplay) (input : AnnotationInput K)
    (width height : ℤ) (hwidth : 1 ≤ width) (hheight : 1 ≤ height) (ops : List (Op K))
    (hops : Along (watch opStep Contacts.see) EndsActive
      (metaAnnotationLayerNew display input width height, Contacts.none) ops) :
    let p := run (watch opStep Contacts.see)
      (metaAnnotationLayerNew display input width height, Contacts.none) ops
    NoSwallowedStroke p.1 p.2 := by
  refine noSwallowedStroke_of_ownerDown (hops.invariant (P := OwnerDown)
    (fun p op h hop => ownerDown_step h hop) ⟨?_, fun hpressed => ?_⟩)
  · have hsurfaced : (metaAnnotationLayerNew display input width height).surface.isSome =
        (1 ≤ width && 1 ≤ height) := congrArg Dock.surfaced dock_new
    simp [hsurfaced, hwidth, hheight]
  · have hnone : (metaAnnotationLayerNew display input width height).chromePressId = none :=
      congrArg Dock.pressed dock_new
    simp [hnone] at hpressed

theorem noSwallowedStroke_of_endsActive_docked :
    let p := run (watch opStep Contacts.see) (metaAnnotationLayerNew .bare .initial 10 10, Contacts.none)
      [.call (.setActive true), .call (.setChromeRegions [("dock", ⟨0, 0, 2, 2⟩)]),
        .route (.pen .buttonPress 1 1 1 true) 0, .route (.pen .buttonRelease 5 5 1 false) 1]
    NoSwallowedStroke p.1 p.2 := by
  refine noSwallowedStroke_of_endsActive .bare .initial 10 10 (by decide) (by decide) _
    ⟨fun _ _ _ h => h.elim, fun _ _ _ h => h.elim, fun _ _ _ h => ?_, fun _ _ _ _ => ?_, trivial⟩
  · exact absurd h.1 (by decide)
  · decide +kernel

/-- A dock press that ends while the layer is not active: the next press is swallowed. -/
theorem not_noSwallowedStroke_deactivated :
    let p := run (watch opStep Contacts.see) (metaAnnotationLayerNew .bare .initial 10 10, Contacts.none)
      [.call (.setActive true), .call (.setChromeRegions [("dock", ⟨0, 0, 2, 2⟩)]),
        .route (.pen .buttonPress 1 1 1 true) 0, .call (.setActive false),
        .route (.pen .buttonRelease 1 1 1 false) 1, .call (.setActive true)]
    ¬ NoSwallowedStroke p.1 p.2 := by
  intro p h
  obtain ⟨contact, howner, hdown⟩ := h.owned (by decide +kernel)
  have howner' : p.2.owner = some (ClutterEvent.pen .buttonPress 1 1 1 true).contact := by decide +kernel
  obtain rfl : (ClutterEvent.pen .buttonPress 1 1 1 true).contact = contact :=
    Option.some.inj (howner'.symm.trans howner)
  revert hdown
  decide +kernel

end MetaAnnotationLayer

end Annotations
