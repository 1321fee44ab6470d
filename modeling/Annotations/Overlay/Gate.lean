import Annotations.Overlay.Deferral

/-! The deferred first ink over whole runs. A watch goes along with a run and sees only what happens
on the screen: it is shut when the overlay is shown and when a pen leaves the range, notes a press
that the session swallows until the press is released, and opens at a drag of that press. Ink
waits for it, and for contact of the pen, as long as no step meets one of four hazards: a pen that
enters the range or hovers is taken for a press, a release is lost, or a leaving of the range is. -/

namespace Annotations.Overlay

open History Runs

variable {K : Type} [Scalar K] [FloorRing K]

/-- The event of an action. -/
def OverlaySession.Action.event? : OverlaySession.Action K → Option (Event K)
  | .captured event | .press event | .motion event | .release event => some event
  | .toggle | .clicked _ | .undoClicked => none

namespace OverlaySession

variable (s : OverlaySession K) (i : Step K)

/-- The stage position that the session takes the event of a step to be at. -/
def stepXY : Option (K × K) :=
  match i.action with
  | .captured event => s.capturedXY i.env event
  | .press event | .motion event | .release event => s.handlerXY i.env event
  | .toggle | .clicked _ | .undoClicked => none

/-- The event of a step, if the overlay is shown and the capture has not seen the event before. -/
def noticed : Option (Event K) :=
  match i.action with
  | .captured event => if s.visible && !decide (event.id ∈ s.penCapHandled) then some event else none
  | .press event | .motion event | .release event => if s.visible then some event else none
  | .toggle | .clicked _ | .undoClicked => none

end OverlaySession

open OverlaySession

/-- The watch: whether ink may start, where the swallowed press is that has not been released, and
the buttons of the pen that are down, the tip among them. -/
structure Gate (K : Type) where
  inkOpen : Bool
  held : Option (K × K)
  pressed : List ℕ

namespace Gate

/-- No ink, and no press yet. -/
def shut : Gate K := ⟨false, none, []⟩

variable (g : Gate K) (s : OverlaySession K) (i : Step K) (event : Event K)

/-- A press that the session stops and keeps the position of. -/
def swallow : Gate K :=
  match s.stepXY i with
  | none => g
  | some p =>
    if (s.handle i).1 = .stop ∧ (s.step i).penDeferredAnchorStageXY = some p then { g with held := some p } else g

/-- A motion opens the gate when it is far enough from the press. -/
def dragTo : Gate K :=
  match g.held, s.stepXY i with
  | some a, some m => if penInkDragUnlock2 ≤ distSqFrom m a then { g with inkOpen := true } else g
  | _, _ => g

/-- A press is released, wherever that is. -/
def letGo : Gate K :=
  { g with
    held := none
    pressed := g.pressed.filter (· ≠ event.button) }

/-- What the event of a pen does to the watch. -/
def onPen : Gate K :=
  match event.eventType with
  | some .proximityOut => shut
  | some .buttonPress | some .touchBegin => { g.swallow s i with pressed := event.button :: g.pressed }
  | some .buttonRelease | some .touchEnd | some .touchCancel => g.letGo event
  | some .motion | some .touchUpdate => g.dragTo s i
  | _ => g

/-- The watch after a step. -/
def see : Gate K :=
  match i.action with
  | .toggle => shut
  | _ => match s.noticed i with
    | none => g
    | some event => if event.eventIsPenDrawDevice then g.onPen s i event else g

/-- The press at `a` is held. -/
def Holds (a : K × K) : Prop := g.held = some a ∧ g.pressed ≠ []

end Gate

omit [FloorRing K] in
/-- The pressure says that the pen touches. -/
def Event.reportsContact (event : Event K) : Bool :=
  event.eventHasPressure && implicitPressureStart < event.getPressure01

namespace OverlaySession

variable (s : OverlaySession K) (i : Step K)

/-- The type and the position of the step's event can be read, and a signal of the canvas carries
an event of its own type. -/
def Readable (i : Step K) : Prop :=
  match i.action with
  | .captured event => event.eventType ≠ none ∧ event.coords ≠ none
  | .press event => event.eventType = some .buttonPress ∧ event.coords ≠ none
  | .motion event => event.eventType = some .motion ∧ event.coords ≠ none
  | .release event => event.eventType = some .buttonRelease ∧ event.coords ≠ none
  | .toggle | .clicked _ | .undoClicked => True

/-- A motion without a reading of the pressure passes for contact by the kind of its device: the device
is a tablet's with a stylus for its tool, or the pen came into range less than 900 ms ago and the device
is a tablet's or the core pointer. -/
def PassesUnpressed (env : Desktop K) (event : Event K) : Prop :=
  event.motionish = true ∧ event.eventHasPressure = false ∧
    (clutterDeviceTypeIsPenHardware event.deviceType = true ∧ (s.fresh env = true ∨ event.eventHasStylusDeviceTool = true) ∨
      s.fresh env = true ∧ event.deviceType = some .pointer)

/-- So a pen that only hovers passes for contact while ink is not waited for. -/
def HoverPasses (g : Gate K) (env : Desktop K) (event : Event K) : Prop :=
  g.pressed = [] ∧ s.penAwaitInkAfterRange = false ∧ s.PassesUnpressed env event

/-- An event goes astray: the pen comes into range or hovers and is taken for a press on the canvas,
a release does not get to the canvas while a swallowed press is remembered, or the pen leaves the range
unnoticed. -/
def GoesAstray (g : Gate K) : Prop :=
  match i.action with
  | .captured event =>
    event.eventIsPenDrawDevice = true ∧ s.noticed i ≠ none ∧
      ((event.eventType = some .proximityIn ∨ s.HoverPasses g i.env event) ∧ s.CapturedPress i.env event ∨
        event.releaseLike = true ∧ s.penDeferredAnchorStageXY ≠ none ∧ (∀ p, ¬ s.ReachesCanvas i.env event p) ∨
        event.eventType = some .proximityOut ∧ (∀ p, ¬ s.ReachesCanvas i.env event p) ∧
          ¬ (s.penAwaitInkAfterRange = true ∧ s.penDeferredAnchorStageXY = none ∧ s.penDown = false))
  | .motion event => s.HoverPasses g i.env event ∧ s.pressesCanvas i.env event = true
  | _ => False

/-- The step starts ink. -/
def StartsInk : Prop := (s.step i).inkBegun ≠ s.inkBegun

/-- The event of the step is a press, or a motion while a button of the pen is down or the pressure says
that the pen touches. -/
def ByContact (i : Step K) (g : Gate K) : Prop :=
  ∃ event, i.action.event? = some event ∧
    (event.eventType = some .buttonPress ∨ event.eventType = some .touchBegin ∨
      event.motionish = true ∧ (g.pressed ≠ [] ∨ event.reportsContact = true))

/-- What the watch knows of the session. -/
structure Guarded (g : Gate K) (s : OverlaySession K) : Prop where
  shown : s.DownShown
  down : s.penDown = true → s.penDeferredAnchorStageXY = none
  await : g.inkOpen = false → s.penAwaitInkAfterRange = true ∧ s.penDown = false
  held : ∀ a, s.penDeferredAnchorStageXY = some a → g.Holds a

/-- The step keeps that, and starts ink only at an open gate and by contact. -/
def Kept (g : Gate K) (s : OverlaySession K) (i : Step K) : Prop :=
  Guarded (g.see s i) (s.step i) ∧ (s.StartsInk i → (g.see s i).inkOpen = true ∧ ByContact i g)

variable {s i} {g : Gate K} {event : Event K} {canvas : Prop} {t : ClutterEventType}

/-- What passes for contact: the reading of the pressure, or the kind of the device where there is none. -/
theorem penMotionShouldImplicitPress_iff {env : Desktop K} (hmotion : event.motionish = true) :
    s.penMotionShouldImplicitPress env event = true ↔ event.reportsContact = true ∨ s.PassesUnpressed env event := by
  obtain ⟨t, htype⟩ : ∃ t, event.eventType = some t := by
    unfold Event.motionish at hmotion
    simp only [Bool.or_eq_true, decide_eq_true_eq] at hmotion
    rcases hmotion with h | h
    · exact ⟨_, h⟩
    · exact ⟨_, h⟩
  have hin : ¬ (t = .proximityIn && event.eventIsPenDrawDevice) = true := by
    rcases (Event.motionish_iff htype).mp hmotion with rfl | rfl <;> simp
  unfold penMotionShouldImplicitPress PassesUnpressed Event.reportsContact
  rw [htype]
  dsimp only
  rw [if_neg hin, if_neg (by simp [hmotion])]
  cases event.eventHasPressure with
  | true => simp
  | false => simp [hmotion]

/-- A quiet step keeps what is known, for a watch that still has the press and is as open as before. -/
theorem Guarded.quiet {g' : Gate K} (h : Guarded g s) (hquiet : s.Quiet (s.step i))
    (hopen : g'.inkOpen = false → g.inkOpen = false)
    (hheld : ∀ a, s.penDeferredAnchorStageXY = some a → g'.Holds a) : Guarded g' (s.step i) where
  shown := downShown_step h.shown i
  down hdown := hquiet.anchor.trans (h.down (hquiet.down hdown))
  await hshut := by
    have hold := h.await (hopen hshut)
    refine ⟨hquiet.await.trans hold.1, ?_⟩
    by_contra hdown
    rw [hquiet.down (by simpa using hdown)] at hold
    exact absurd hold.2 (by simp)
  held a ha := hheld a (hquiet.anchor ▸ ha)

/-- A step without an anchor after it, that leaves the gate open if it is not shut. -/
theorem Guarded.of_none {g' : Gate K} (h : Guarded g s) (hnone : (s.step i).penDeferredAnchorStageXY = none)
    (hawait : g'.inkOpen = false → (s.step i).penAwaitInkAfterRange = true ∧ (s.step i).penDown = false) :
    Guarded g' (s.step i) where
  shown := downShown_step h.shown i
  down _ := hnone
  await := hawait
  held a ha := by
    rw [hnone] at ha
    cases ha

/-- A step that the watch does not look at. -/
theorem kept_of_see_eq (h : Guarded g s) (hsee : g.see s i = g) (hquiet : s.Quiet (s.step i)) : Kept g s i := by
  refine ⟨?_, fun hstart => absurd hquiet.begun hstart⟩
  rw [hsee]
  exact h.quiet hquiet id h.held

theorem see_of_noticed (hnoticed : s.noticed i = some event) :
    g.see s i = if event.eventIsPenDrawDevice then g.onPen s i event else g := by
  unfold Gate.see
  cases haction : i.action with
  | toggle =>
    unfold noticed at hnoticed
    rw [haction] at hnoticed
    cases hnoticed
  | _ => simp [hnoticed]

theorem inkOpen_swallow : (g.swallow s i).inkOpen = g.inkOpen := by
  unfold Gate.swallow
  split
  · rfl
  · split <;> rfl

theorem held_swallow {a : K × K} (ha : (s.step i).penDeferredAnchorStageXY = some a) (hheld : g.held = some a) :
    (g.swallow s i).held = some a := by
  unfold Gate.swallow
  split
  · exact hheld
  · split
    · next h => exact h.2.symm.trans ha
    · exact hheld

theorem inkOpen_dragTo (h : g.inkOpen = true) : (g.dragTo s i).inkOpen = true := by
  unfold Gate.dragTo
  split
  · split
    · rfl
    · exact h
  · exact h

theorem holds_dragTo {a : K × K} (h : g.Holds a) : (g.dragTo s i).Holds a := by
  unfold Gate.dragTo
  split
  · split
    · exact h
    · exact h
  · exact h

section Types

variable (htype : event.eventType = some t)
include htype

theorem onPen_eq_swallow (hpress : t = .buttonPress ∨ t = .touchBegin) :
    g.onPen s i event = { g.swallow s i with pressed := event.button :: g.pressed } := by
  unfold Gate.onPen
  rw [htype]
  rcases hpress with rfl | rfl <;> rfl

theorem onPen_eq_dragTo (hmotion : event.motionish = true) : g.onPen s i event = g.dragTo s i := by
  unfold Gate.onPen
  rcases (Event.motionish_iff htype).mp hmotion with rfl | rfl <;> rw [htype]

/-- An event that is no release and no leaving of the range does not shut the watch. -/
theorem onPen_keeps (hrelease : event.releaseLike = false) (hout : t ≠ .proximityOut) :
    (g.inkOpen = true → (g.onPen s i event).inkOpen = true) ∧
      ∀ a, (s.step i).penDeferredAnchorStageXY = some a → g.Holds a → (g.onPen s i event).Holds a := by
  unfold Event.releaseLike at hrelease
  unfold Gate.onPen
  rw [htype] at hrelease ⊢
  cases t with
  | proximityOut => exact absurd rfl hout
  | buttonPress | touchBegin =>
    exact ⟨fun h => inkOpen_swallow.trans h, fun a ha h => ⟨held_swallow ha h.1, List.cons_ne_nil _ _⟩⟩
  | motion | touchUpdate => exact ⟨inkOpen_dragTo, fun a _ => holds_dragTo⟩
  | buttonRelease | touchEnd | touchCancel => cases hrelease
  | _ => exact ⟨id, fun a _ hheld => hheld⟩

theorem kept_of_did (h : Guarded g s) (hnoticed : s.noticed i = some event) (hevent : i.action.event? = some event)
    (hrelease : event.releaseLike = false) (hout : t ≠ .proximityOut) (hpos : s.stepXY i ≠ none)
    (hrange : event.eventIsPenDrawDevice = true → t = .proximityIn → ¬ canvas)
    (hhover : event.eventIsPenDrawDevice = true → canvas → ¬ s.HoverPasses g i.env event)
    (hdid : Did i.env event canvas (s.stepXY i) s (s.handle i)) : Kept g s i := by
  have hkeeps := onPen_keeps (g := g) (s := s) (i := i) htype hrelease hout
  have hsee : (g.inkOpen = true → (g.see s i).inkOpen = true) ∧
      ∀ a, (s.step i).penDeferredAnchorStageXY = some a → g.Holds a → (g.see s i).Holds a := by
    rw [see_of_noticed hnoticed]
    split
    · exact hkeeps
    · exact ⟨id, fun a _ hheld => hheld⟩
  have hshut : (g.see s i).inkOpen = false → g.inkOpen = false := by
    intro hfalse
    by_contra hopen
    rw [hsee.1 (by simpa using hopen)] at hfalse
    cases hfalse
  cases hdid with
  | quiet hquiet =>
    refine ⟨h.quiet hquiet hshut fun a ha => hsee.2 a (hquiet.anchor.trans ha) (h.held a ha), fun hstart => ?_⟩
    exact absurd hquiet.begun hstart
  | deferred hseen hcanvas hpress hstop hawait hanchor hbegun hup =>
    obtain ⟨p, hp⟩ := Option.ne_none_iff_exists'.mp hpos
    have ht : t = .buttonPress ∨ t = .touchBegin := by
      rcases (Event.isDiscretePress_iff htype).mp hpress with ht | ht | ht
      · exact .inl ht
      · exact .inr ht
      · exact absurd hcanvas (hrange hseen.2 ht)
    have hswallow : g.see s i = { g with held := some p, pressed := event.button :: g.pressed } := by
      have hkept : g.swallow s i = { g with held := some p } := by
        unfold Gate.swallow
        rw [hp]
        exact if_pos ⟨hstop, hanchor.trans hp⟩
      rw [see_of_noticed hnoticed, if_pos hseen.2, onPen_eq_swallow htype ht, hkept]
    refine ⟨?_, fun hstart => absurd hbegun hstart⟩
    rw [hswallow]
    refine ⟨downShown_step h.shown i, fun hdown => ?_, fun hopen => ⟨hawait.trans (h.await hopen).1, hup⟩, fun a ha => ?_⟩
    · rw [show (s.step i).penDown = false from hup] at hdown
      cases hdown
    · exact ⟨(hanchor.trans hp).symm.trans ha, List.cons_ne_nil _ _⟩
  | drag hseen anchor m hmotion hanchor hm hfar hnone =>
    have hheld := h.held anchor hanchor
    have hopen : (g.see s i).inkOpen = true := by
      rw [see_of_noticed hnoticed, if_pos hseen.2, onPen_eq_dragTo htype hmotion]
      unfold Gate.dragTo
      rw [hheld.1, hm]
      simp [hfar]
    refine ⟨h.of_none hnone fun hfalse => ?_, fun _ => ⟨hopen, event, hevent, .inr (.inr ⟨hmotion, .inl hheld.2⟩)⟩⟩
    rw [hopen] at hfalse
    cases hfalse
  | began hseen hawait hcanvas hcause hnone =>
    have hopen : (g.see s i).inkOpen = true := by
      refine hsee.1 ?_
      by_contra hshut
      have hold := (h.await (by simpa using hshut)).1
      rw [hawait] at hold
      cases hold
    refine ⟨h.of_none hnone fun hfalse => ?_, fun _ => ⟨hopen, event, hevent, ?_⟩⟩
    · rw [hopen] at hfalse
      cases hfalse
    · rcases hcause with hpress | ⟨hmotion, himplicit⟩
      · rcases (Event.isDiscretePress_iff htype).mp hpress with rfl | rfl | ht
        · exact .inl htype
        · exact .inr (.inl htype)
        · exact absurd hcanvas (hrange hseen.2 ht)
      · -- the pen touches, or it hovers and passes for contact
        refine .inr (.inr ⟨hmotion, ?_⟩)
        by_cases hpressed : g.pressed = []
        · rcases (penMotionShouldImplicitPress_iff hmotion).mp himplicit with hreports | hpasses
          · exact .inr hreports
          · exact absurd ⟨hpressed, hawait, hpasses⟩ (hhover hseen.2 hcanvas)
        · exact .inl hpressed

end Types

/-- A step that at most takes the anchor away, with a watch that is as open as before. -/
theorem kept_of_quiet_or (h : Guarded g s) (hopen : (g.see s i).inkOpen = g.inkOpen)
    (hquiet : s.Quiet (s.step i) ∨ { s with penDeferredAnchorStageXY := none }.Quiet (s.step i))
    (hheld : s.Quiet (s.step i) → ∀ a, s.penDeferredAnchorStageXY = some a → (g.see s i).Holds a) : Kept g s i := by
  rcases hquiet with hquiet | hquiet
  · exact ⟨h.quiet hquiet (fun hfalse => hopen.symm.trans hfalse) (hheld hquiet), fun hstart => absurd hquiet.begun hstart⟩
  · refine ⟨h.of_none hquiet.anchor fun hfalse => ?_, fun hstart => absurd hquiet.begun hstart⟩
    have hold := h.await (hopen.symm.trans hfalse)
    refine ⟨hquiet.await.trans hold.1, ?_⟩
    by_contra hdown
    have hdown' : s.penDown = true := hquiet.down (by simpa using hdown)
    rw [hold.2] at hdown'
    cases hdown'

/-- A release: the watch lets go of the press, and so has the session. -/
theorem kept_of_release (h : Guarded g s) (hnoticed : s.noticed i = some event) (hrelease : event.releaseLike = true)
    (hquiet : s.Quiet (s.step i) ∨ { s with penDeferredAnchorStageXY := none }.Quiet (s.step i))
    (hforget : event.eventIsPenDrawDevice = true → s.penDown = false →
      s.penDeferredAnchorStageXY ≠ none → (s.step i).penDeferredAnchorStageXY = none) : Kept g s i := by
  have hpen : g.onPen s i event = g.letGo event := by
    unfold Event.releaseLike at hrelease
    simp only [Bool.or_eq_true, decide_eq_true_eq] at hrelease
    unfold Gate.onPen
    rcases hrelease with (ht | ht) | ht <;> rw [ht]
  have hsee : g.see s i = g ∨ g.see s i = g.letGo event ∧ event.eventIsPenDrawDevice = true := by
    rw [see_of_noticed hnoticed, hpen]
    split
    · next hpen => exact .inr ⟨rfl, hpen⟩
    · exact .inl rfl
  rcases hsee with hsee | ⟨hsee, hispen⟩
  · exact kept_of_quiet_or h (by rw [hsee]) hquiet fun _ a ha => by rw [hsee]; exact h.held a ha
  · refine kept_of_quiet_or h (by rw [hsee]; rfl) hquiet fun hsame a ha => ?_
    -- an anchor would be one that the session should have forgotten
    have hup : s.penDown = false := by
      by_contra hdown
      rw [h.down (by simpa using hdown)] at ha
      cases ha
    have hnone := hforget hispen hup (by simp [ha])
    rw [hsame.anchor, ha] at hnone
    cases hnone

/-- A pen that leaves the range shuts the watch and the gate. -/
theorem kept_of_range (h : Guarded g s) (hnoticed : s.noticed i = some event) (hpen : event.eventIsPenDrawDevice = true)
    (htype : event.eventType = some .proximityOut) (hawait : (s.step i).penAwaitInkAfterRange = true)
    (hanchor : (s.step i).penDeferredAnchorStageXY = none) (hbegun : (s.step i).inkBegun = s.inkBegun)
    (hup : (s.step i).penDown = false) : Kept g s i := by
  have hsee : g.see s i = Gate.shut := by
    rw [see_of_noticed hnoticed, if_pos hpen]
    unfold Gate.onPen
    rw [htype]
  refine ⟨?_, fun hstart => absurd hbegun hstart⟩
  rw [hsee]
  exact h.of_none hanchor fun _ => ⟨hawait, hup⟩

/-! ### The step lemma -/

theorem Guarded.captured (h : Guarded g s) (haction : i.action = .captured event) (hread : Readable i)
    (hastray : ¬ s.GoesAstray i g) : Kept g s i := by
  have hstep : s.handle i = s.onPenStageCaptured i.env event := by
    unfold handle
    rw [haction]
  have hstep' : s.step i = (s.onPenStageCaptured i.env event).2 := congrArg Prod.snd hstep
  unfold Readable at hread
  unfold GoesAstray at hastray
  rw [haction] at hread hastray
  obtain ⟨t, htype⟩ := Option.ne_none_iff_exists'.mp hread.1
  cases hnoticed : s.noticed i with
  | none =>
    -- the overlay is hidden or the event is an old one
    have hsee : g.see s i = g := by
      unfold Gate.see
      rw [haction, hnoticed]
    refine kept_of_see_eq h hsee ?_
    rw [hstep']
    refine quiet_of_not_reachesCanvas fun p hp => ?_
    unfold noticed at hnoticed
    rw [haction] at hnoticed
    simp [hp.visible, hp.unhandled] at hnoticed
  | some event' =>
    obtain rfl : event = event' := by
      unfold noticed at hnoticed
      rw [haction] at hnoticed
      dsimp only at hnoticed
      split at hnoticed
      · exact Option.some.inj hnoticed
      · cases hnoticed
    have hseen : s.noticed i ≠ none := by simp [hnoticed]
    by_cases hrelease : event.releaseLike = true
    · have hquiet := (releases_of_releaseLike htype hrelease).quiet_or i.env s htype
      refine kept_of_release h hnoticed hrelease (hstep' ▸ hquiet) fun hpen hup hanchor => ?_
      by_contra hkept
      refine hastray ⟨hpen, hseen, .inr (.inl ⟨hrelease, hanchor, fun p hp => hkept ?_⟩)⟩
      rw [hstep']
      exact hp.anchor_release htype hup hpen hrelease
    by_cases hout : t = .proximityOut
    · subst hout
      cases hpen : event.eventIsPenDrawDevice with
      | false =>
        have hsee : g.see s i = g := by
          rw [see_of_noticed hnoticed, hpen]
          rfl
        have hreleases : Releases event .proximityOut := .inr (.inr (.inr ⟨rfl, hpen⟩))
        have hquiet := hreleases.quiet_or i.env s htype
        exact kept_of_quiet_or h (by rw [hsee]) (hstep' ▸ hquiet) fun _ a ha => by rw [hsee]; exact h.held a ha
      | true =>
        by_cases hreach : ∃ p, s.ReachesCanvas i.env event p
        · obtain ⟨p, hreach⟩ := hreach
          have hrange := hreach.range hpen htype
          rw [← hstep'] at hrange
          exact kept_of_range h hnoticed hpen htype hrange.1 hrange.2.1 hrange.2.2.1 hrange.2.2.2
        · have hnot : ∀ p, ¬ s.ReachesCanvas i.env event p := fun p hp => hreach ⟨p, hp⟩
          have hquiet := quiet_of_not_reachesCanvas hnot
          rw [← hstep'] at hquiet
          obtain ⟨hawait, hanchor, hup⟩ := not_not.mp fun hwait => hastray ⟨hpen, hseen, .inr (.inr ⟨htype, hnot, hwait⟩)⟩
          refine kept_of_range h hnoticed hpen htype (hquiet.await.trans hawait) (hquiet.anchor.trans hanchor)
            hquiet.begun ?_
          by_contra hdown
          rw [hquiet.down (by simpa using hdown)] at hup
          cases hup
    · have hevent : i.action.event? = some event := by rw [haction]; rfl
      have hxy : s.stepXY i = s.capturedXY i.env event := by
        unfold stepXY
        rw [haction]
      have hpos : s.stepXY i ≠ none := by
        obtain ⟨p, hp⟩ := exists_stageCoordsFromEvent i.env s hread.2
        rw [hxy]
        unfold capturedXY
        rw [hp]
        simp
      have hdid := onPenStageCaptured_did i.env s htype (by simpa using hrelease) hout
      rw [← hxy, ← hstep] at hdid
      exact kept_of_did htype h hnoticed hevent (by simpa using hrelease) hout hpos
        (fun hpen hin hcanvas => hastray ⟨hpen, hseen, .inl ⟨.inl (htype.trans (congrArg some hin)), hcanvas⟩⟩)
        (fun hpen hcanvas hhover => hastray ⟨hpen, hseen, .inl ⟨.inr hhover, hcanvas⟩⟩) hdid

/-! The canvas's own signals: of what they deliver only a motion can go astray. -/

omit [FloorRing K] in
theorem handlerXY_ne_none (env : Desktop K) (s : OverlaySession K) (hcoords : event.coords ≠ none) :
    s.handlerXY env event ≠ none := by
  obtain ⟨p, hp⟩ := exists_stageCoordsFromEvent env s hcoords
  unfold handlerXY
  rw [hp]
  cases s.penCapStageXY <;> simp

theorem Guarded.press (h : Guarded g s) (haction : i.action = .press event) (hread : Readable i) : Kept g s i := by
  obtain ⟨env, action⟩ := i
  obtain rfl : action = .press event := haction
  obtain ⟨htype, hcoords⟩ : event.eventType = some .buttonPress ∧ event.coords ≠ none := hread
  have hpress : event.isDiscretePress = true := (Event.isDiscretePress_iff htype).mpr (by simp)
  have hrelease : event.releaseLike = false := Bool.eq_false_iff.mpr (by simp [Event.releaseLike_iff htype])
  have hpos := handlerXY_ne_none env s hcoords
  cases hvisible : s.visible with
  | false =>
    have hquiet : s.Quiet (s.onPress env event).2 := by
      refine quiet_onPress ?_
      unfold pressesCanvas
      rw [hvisible]
      rfl
    exact kept_of_see_eq h (by simp [Gate.see, noticed, hvisible]) hquiet
  | true =>
    have hnoticed : s.noticed ⟨env, .press event⟩ = some event := if_pos hvisible
    have hhover : ¬ s.HoverPasses g env event := by
      rintro ⟨-, -, hmotion, -⟩
      simp [Event.motionish_iff htype] at hmotion
    exact kept_of_did htype h hnoticed rfl hrelease (by simp) hpos (fun _ hin => by cases hin) (fun _ _ => hhover)
      (onPress_did hpress hpos)

theorem Guarded.motion (h : Guarded g s) (haction : i.action = .motion event) (hread : Readable i)
    (hastray : ¬ s.GoesAstray i g) : Kept g s i := by
  obtain ⟨env, action⟩ := i
  obtain rfl : action = .motion event := haction
  obtain ⟨htype, hcoords⟩ : event.eventType = some .motion ∧ event.coords ≠ none := hread
  have hmotion : event.motionish = true := (Event.motionish_iff htype).mpr (by simp)
  have hrelease : event.releaseLike = false := Bool.eq_false_iff.mpr (by simp [Event.releaseLike_iff htype])
  have hpos := handlerXY_ne_none env s hcoords
  cases hvisible : s.visible with
  | false =>
    have hquiet : s.Quiet (s.onMotion env event).2 := by
      unfold onMotion
      rw [if_pos (by simp [hvisible])]
      exact .refl s
    exact kept_of_see_eq h (by simp [Gate.see, noticed, hvisible]) hquiet
  | true =>
    have hnoticed : s.noticed ⟨env, .motion event⟩ = some event := if_pos hvisible
    exact kept_of_did htype h hnoticed rfl hrelease (by simp) hpos (fun _ hin => by cases hin)
      (fun _ hcanvas hhover => hastray ⟨hhover, hcanvas⟩) (onMotion_did hmotion)

theorem Guarded.release (h : Guarded g s) (haction : i.action = .release event) (hread : Readable i) : Kept g s i := by
  obtain ⟨env, action⟩ := i
  obtain rfl : action = .release event := haction
  obtain ⟨htype, hcoords⟩ : event.eventType = some .buttonRelease ∧ event.coords ≠ none := hread
  have hrelease : event.releaseLike = true := (Event.releaseLike_iff htype).mpr (by simp)
  cases hvisible : s.visible with
  | false =>
    have hquiet : s.Quiet (s.onRelease event).2 := by
      unfold onRelease
      dsimp only
      rw [if_pos (by simp [hvisible])]
      exact .refl s
    exact kept_of_see_eq h (by simp [Gate.see, noticed, hvisible]) hquiet
  | true =>
    have hnoticed : s.noticed ⟨env, .release event⟩ = some event := if_pos hvisible
    exact kept_of_release h hnoticed hrelease (onRelease_quiet_or s event)
      fun hpen hup _ => anchor_onRelease hvisible hup hpen hrelease

theorem Guarded.toggle (h : Guarded g s) (haction : i.action = .toggle) : Kept g s i := by
  obtain ⟨env, action⟩ := i
  obtain rfl : action = .toggle := haction
  have hstep : s.step ⟨env, .toggle⟩ = s.toggle := rfl
  have hbegun : s.toggle.inkBegun = s.inkBegun := by
    unfold OverlaySession.toggle
    split
    · exact (inkBegun_call rfl).trans (inkBegun_call rfl)
    · rfl
  refine ⟨h.of_none ?_ fun _ => ?_, fun hstart => absurd hbegun hstart⟩
  · rw [hstep]
    unfold OverlaySession.toggle
    split <;> rfl
  · rw [hstep]
    unfold OverlaySession.toggle
    split
    · exact ⟨rfl, rfl⟩
    · next hhidden =>
      refine ⟨rfl, ?_⟩
      by_contra hdown
      exact hhidden (h.shown (by simpa using hdown))

/-- The step lemma: a step that can be read and in which no event goes astray. -/
theorem Guarded.step (h : Guarded g s) (hread : Readable i) (hastray : ¬ s.GoesAstray i g) : Kept g s i := by
  cases haction : i.action with
  | captured event => exact h.captured haction hread hastray
  | press event => exact h.press haction hread
  | motion event => exact h.motion haction hread hastray
  | release event => exact h.release haction hread
  | toggle => exact h.toggle haction
  | clicked button =>
    refine kept_of_see_eq h (by simp [Gate.see, noticed, haction]) ?_
    unfold OverlaySession.step handle
    rw [haction]
    exact quiet_clicked
  | undoClicked =>
    refine kept_of_see_eq h (by simp [Gate.see, noticed, haction]) ?_
    unfold OverlaySession.step handle
    rw [haction]
    exact quiet_call rfl

/-! ### Runs -/

omit [FloorRing K] in
theorem guarded_new : Guarded Gate.shut (new : OverlaySession K) where
  shown hdown := by cases hdown
  down _ := rfl
  await _ := ⟨rfl, rfl⟩
  held a ha := by cases ha

/-- The watch after the first `k` steps of a run. -/
def gateAt (is : List (Step K)) (k : ℕ) : Gate K := (stateAt (watch step Gate.see) (new, Gate.shut) is k).2

/-- The pen touches the canvas, is lifted over the dock and hovers back. -/
def sampleHover : List (Step ℚ) :=
  [⟨sampleDesktop, .toggle⟩, ⟨sampleDesktop, .captured (samplePen 0 .buttonPress 500 500)⟩,
    ⟨sampleDesktop, .captured (samplePen 1 .buttonRelease 100 100)⟩,
    ⟨sampleDesktop, .captured (samplePen 2 .motion 520 500)⟩]

/-- After a stroke the pen is lifted, and it hovers on: the tablet reports no pressure, and its tool is a pen. -/
example : let is := sampleStroke ++ [⟨sampleDesktop, .captured (samplePen 2 .buttonRelease 520 500)⟩]
    (gateAt is 4).pressed = [] ∧ (run step new is).penDown = false ∧
      (run step new (is ++ [⟨sampleDesktop, .captured (samplePen 3 .motion 560 500)⟩])).penDown = true := by decide +kernel

end OverlaySession

end Annotations.Overlay
