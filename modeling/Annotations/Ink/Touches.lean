import Annotations.Ink.InFlight
import Annotations.Sheets.Hands

/-! Touches. The layer has one stroke for all touch sequences: an event of any of them goes
on with the stroke that the latest begin started, and an end or a cancel of any ends it. -/

namespace Annotations

open Sheets Runs

variable {K : Type} [Scalar K]

def ClutterEvent.isTouch (event : ClutterEvent K) : Bool :=
  match event.type with
  | .touchBegin | .touchUpdate | .touchEnd | .touchCancel => true
  | _ => false

/-- Of all events, only touches. -/
def LayerOp.touchOnly : LayerOp K → Bool
  | .handleEvent event _ => event.isTouch
  | _ => true

namespace MetaAnnotationLayer

def touchBegins (layer : MetaAnnotationLayer K) : LayerOp K → Bool
  | .handleEvent event _ => layer.takesEvents && event.type = .touchBegin
  | _ => false

def touchEnds (layer : MetaAnnotationLayer K) : LayerOp K → Bool
  | .handleEvent event _ => layer.takesEvents && (event.type = .touchEnd || event.type = .touchCancel)
  | _ => false

/-- The contact under way is known by the operation that began it. Any end ends it. -/
def contactStep (contact : Option ℕ) (layer : MetaAnnotationLayer K) (op : LayerOp K) : Option ℕ :=
  if layer.touchBegins op then some layer.ledger.clock else if layer.touchEnds op then none else contact

variable (start : MetaAnnotationLayer K) (ops : List (LayerOp K))

/-- The contact under way after `k` operations. -/
def contactAt (k : ℕ) : Option ℕ := (stateAt (watch step contactStep) (start, none) ops k).2

/-- The contact that operation `p` is part of. -/
def contactOf (p : ℕ) : Option ℕ :=
  match ops[p]? with
  | some op => if (stateAt step start ops p).touchBegins op then some p else contactAt start ops p
  | none => contactAt start ops p

/-- Operation `p` is a touch that the layer handles as part of some contact: it begins a
stroke, or there is one in flight. -/
structure TouchOf (event : ClutterEvent K) (nowUs : ℤ) (p : ℕ) : Prop where
  get : ops[p]? = some (.handleEvent event nowUs)
  touch : event.isTouch = true
  takes : (stateAt step start ops p).takesEvents = true
  draws : event.type = .touchBegin ∨ (stateAt step start ops p).strokeActive = true
  contact : (contactOf start ops p).isSome

def Touches (p : ℕ) : Prop := ∃ event nowUs, TouchOf start ops event nowUs p

variable {start ops} {layer : MetaAnnotationLayer K} {op : LayerOp K} {k p : ℕ}

theorem Touches.isSome (h : Touches start ops p) : (contactOf start ops p).isSome := by
  obtain ⟨_, _, htouch⟩ := h
  exact htouch.contact

theorem contactAt_succ (hget : ops[k]? = some op) (hclock : (stateAt step start ops k).ledger.clock = k) :
    contactAt start ops (k + 1) = if (stateAt step start ops k).touchBegins op then some k
      else if (stateAt step start ops k).touchEnds op then none else contactAt start ops k := by
  unfold contactAt
  rw [stateAt_succ hget, watch_snd, stateAt_watch_fst, contactStep, hclock]

/-! ### One touch -/

/-- A press does not care about the stroke before it. -/
theorem placeStroke_sealStroke (x y : K) (pressure tiltFactor : Option K) :
    (layer.sealStroke false).placeStroke x y pressure tiltFactor = layer.placeStroke x y pressure tiltFactor := by
  have hpick : (layer.sealStroke false).pickAnchorWindow x y = layer.pickAnchorWindow x y := rfl
  unfold placeStroke
  rw [hpick]
  cases layer.pickAnchorWindow x y with
  | none => rfl
  | some win =>
    unfold ensureWindowInk
    dsimp only [setStrokeAnchor, sealStroke]
    cases layer.perWindow win with
    | some ink => rfl
    | none =>
      dsimp only
      unfold frameRect
      split_ifs
      · rfl
      · rfl

theorem exec_touchBegin (h : layer.touchBegins op = true) : layer.exec op = (layer.sealStroke false).exec op := by
  cases op with
  | handleEvent event nowUs =>
    simp only [touchBegins, Bool.and_eq_true, decide_eq_true_eq] at h
    obtain ⟨htakes, htype⟩ := h
    have htakes' : (layer.sealStroke false).takesEvents = true := htakes
    have hpress : (layer.sealStroke false).pressAt event nowUs = layer.pressAt event nowUs := by
      unfold pressAt beginStroke
      rw [placeStroke_sealStroke]
      rfl
    change (layer.handleEvent event nowUs).1 = ((layer.sealStroke false).handleEvent event nowUs).1
    simp only [handleEvent, htakes, htakes', htype, hpress, Bool.not_true, Bool.false_eq_true, if_false]
  | _ => cases h

/-- Without a stroke in flight, only a begin gets the pen down. -/
theorem moves_touch_idle {event : ClutterEvent K} {nowUs : ℤ} (hidle : layer.strokeActive = false)
    (htouch : event.isTouch = true) (hbegins : layer.touchBegins (.handleEvent event nowUs) = false) :
    Moves (fun k => k = .quiet) layer.sheets (layer.exec (.handleEvent event nowUs)).sheets := by
  change Moves _ layer.sheets (layer.handleEvent event nowUs).1.sheets
  unfold handleEvent
  cases htakes : layer.takesEvents with
  | false => exact .refl
  | true =>
    rw [Bool.not_true, if_neg Bool.false_ne_true]
    cases htype : event.type with
    | touchBegin => simp [touchBegins, htakes, htype] at hbegins
    | touchUpdate =>
      change Moves _ layer.sheets (layer.handleTouchUpdate event).sheets
      rw [handleTouchUpdate, hidle, if_neg Bool.false_ne_true]
      exact .refl
    | touchEnd =>
      change Moves _ layer.sheets (layer.releaseAt event nowUs).sheets
      unfold releaseAt
      rw [hidle, if_neg Bool.false_ne_true, endStroke, sheets_scheduleRecompose]
      exact (moves_noteTapRelease (L := fun k => k = .quiet) rfl event.x event.y nowUs).trans
        (moves_sealStroke (L := fun k => k = .quiet) rfl false)
    | touchCancel =>
      change Moves _ layer.sheets layer.handleTouchCancel.sheets
      rw [handleTouchCancel, endStroke, sheets_scheduleRecompose]
      exact moves_sealStroke (L := fun k => k = .quiet) rfl false
    | _ => simp [ClutterEvent.isTouch, htype] at htouch

theorem strokeActive_touchEnds (h : layer.touchEnds op = true) : (layer.exec op).strokeActive = false := by
  cases op with
  | handleEvent event nowUs =>
    simp only [touchEnds, Bool.and_eq_true, Bool.or_eq_true, decide_eq_true_eq] at h
    obtain ⟨htakes, htype | htype⟩ := h
    · have hexec : layer.exec (.handleEvent event nowUs) = layer.releaseAt event nowUs := by
        simp [exec, handleEvent, htakes, htype]
      rw [hexec]
      exact strokeActive_endStroke _
    · have hexec : layer.exec (.handleEvent event nowUs) = layer.handleTouchCancel := by
        simp [exec, handleEvent, htakes, htype]
      rw [hexec]
      exact strokeActive_endStroke _
  | _ => cases h

/-! ### Runs -/

/-- Every stroke is of one contact, and the one in flight of the contact under way. -/
structure Touched (start : MetaAnnotationLayer K) (ops : List (LayerOp K)) (k : ℕ) (layer : MetaAnnotationLayer K) :
    Prop where
  wellFormed : WellFormed layer.sheets
  clock : layer.ledger.clock = k
  oneHanded : OneHanded (contactOf start ops) (Touches start ops) layer.sheets
  held : layer.strokeActive = true → Touches start ops layer.ledger.strokeLastStamp ∧
    contactOf start ops layer.ledger.strokeLastStamp = contactAt start ops k

theorem contactOf_touchBegins (hget : ops[k]? = some op) (h : (stateAt step start ops k).touchBegins op = true) :
    contactOf start ops k = some k := by
  rw [contactOf, hget]
  exact if_pos h

theorem contactOf_of_not_touchBegins (hget : ops[k]? = some op)
    (h : (stateAt step start ops k).touchBegins op = false) : contactOf start ops k = contactAt start ops k := by
  rw [contactOf, hget]
  exact if_neg (by rw [h]; exact Bool.false_ne_true)

/-- Every operation extends strokes of the contact that it is part of, if any. -/
theorem oneHanded_exec (hget : ops[k]? = some op) (htouch : op.touchOnly = true)
    (h : Touched start ops k (stateAt step start ops k)) :
    OneHanded (contactOf start ops) (Touches start ops) ((stateAt step start ops k).exec op).sheets ∧
      Held (contactOf start ops) (Touches start ops) ((stateAt step start ops k).exec op).sheets := by
  have hclock := h.clock
  cases hbegins : (stateAt step start ops k).touchBegins op with
  | true =>
    rw [exec_touchBegin hbegins]
    have hwf := (moves_sealStroke (L := fun k => k = .quiet) rfl false).wellFormed h.wellFormed
    have hup : Held (contactOf start ops) (Touches start ops) ((stateAt step start ops k).sealStroke false).sheets := by
      rw [sheets_sealStroke]
      exact held_lift none false
    refine (moves_exec hwf op).oneHanded (fun _ => ?_) hwf (h.oneHanded.lift none false) hup
    cases op with
    | handleEvent event nowUs =>
      simp only [touchBegins, Bool.and_eq_true] at hbegins
      change Touches start ops (stateAt step start ops k).ledger.clock
      rw [hclock]
      refine ⟨event, nowUs, hget, htouch, hbegins.1, .inl (by simpa using hbegins.2), ?_⟩
      rw [contactOf_touchBegins hget (by simpa [touchBegins] using hbegins)]
      rfl
    | _ => cases hbegins
  | false =>
    have hof := contactOf_of_not_touchBegins hget hbegins
    have hheld : Held (contactOf start ops) (Touches start ops) (stateAt step start ops k).sheets := by
      intro hdown
      change Touches start ops _ ∧ contactOf start ops _ = contactOf start ops (stateAt step start ops k).ledger.clock
      rw [hclock, hof]
      exact h.held hdown
    cases op with
    | handleEvent event nowUs =>
      cases htakes : (stateAt step start ops k).takesEvents with
      | false =>
        have hexec : (stateAt step start ops k).exec (.handleEvent event nowUs) = stateAt step start ops k := by
          simp [exec, handleEvent, htakes]
        rw [hexec]
        exact ⟨h.oneHanded, hheld⟩
      | true =>
        cases hdown : (stateAt step start ops k).strokeActive with
        | false =>
          have hmoves := moves_touch_idle hdown htouch hbegins
          exact hmoves.oneHanded (fun hpen => by rcases hpen with hpen | hpen <;> cases hpen) h.wellFormed h.oneHanded hheld
        | true =>
          refine (moves_exec h.wellFormed _).oneHanded (fun _ => ?_) h.wellFormed h.oneHanded hheld
          change Touches start ops (stateAt step start ops k).ledger.clock
          obtain ⟨hlast, hpresent⟩ := h.held hdown
          rw [hclock]
          refine ⟨event, nowUs, hget, htouch, htakes, .inr hdown, ?_⟩
          rw [hof, ← hpresent]
          exact hlast.isSome
    | call c =>
      refine (moves_exec h.wellFormed _).oneHanded (fun hpen => ?_) h.wellFormed h.oneHanded hheld
      obtain ⟨event, nowUs, hop⟩ := allows_pen hpen
      cases hop
    | setChromePressActive id => exact ⟨h.oneHanded, hheld⟩
    | clearChromePress => exact ⟨h.oneHanded, hheld⟩

theorem touched_step (hget : ops[k]? = some op) (htouch : op.touchOnly = true)
    (h : Touched start ops k (stateAt step start ops k)) :
    Touched start ops (k + 1) ((stateAt step start ops k).step op) := by
  obtain ⟨hone, hheld⟩ := oneHanded_exec hget htouch h
  have hclock : ((stateAt step start ops k).exec op).ledger.clock = k :=
    ((moves_exec h.wellFormed op).clock_eq).trans h.clock
  refine ⟨wellFormed_step h.wellFormed op, congrArg (· + 1) hclock, ⟨hone.lines, hone.inFlight⟩, fun hdown => ?_⟩
  have hdown' : ((stateAt step start ops k).exec op).strokeActive = true := hdown
  obtain ⟨hlast, hpresent⟩ := hheld hdown'
  refine ⟨hlast, hpresent.trans ?_⟩
  change contactOf start ops ((stateAt step start ops k).exec op).ledger.clock = _
  rw [hclock, contactAt_succ hget h.clock]
  cases hbegins : (stateAt step start ops k).touchBegins op with
  | true =>
    rw [if_pos rfl]
    exact contactOf_touchBegins hget hbegins
  | false =>
    cases hends : (stateAt step start ops k).touchEnds op with
    | true =>
      rw [strokeActive_touchEnds hends] at hdown'
      cases hdown'
    | false =>
      rw [if_neg Bool.false_ne_true, if_neg Bool.false_ne_true]
      exact contactOf_of_not_touchBegins hget hbegins

theorem touched_new (display : MetaDisplay) (input : AnnotationInput K) (width height : ℤ) (ops : List (LayerOp K)) :
    Touched (metaAnnotationLayerNew display input width height) ops 0
      (metaAnnotationLayerNew display input width height) := by
  have hmoves := moves_new display input width height
  have hidle : Held (contactOf (metaAnnotationLayerNew display input width height) ops)
      (Touches (metaAnnotationLayerNew display input width height) ops) (metaAnnotationLayerZero display input).sheets := by
    simp [Held, sheets, metaAnnotationLayerZero]
  obtain ⟨hone, _⟩ := hmoves.oneHanded (by simp) (wellFormed_zero display input)
    ⟨every_sheets_zero display input _, every_sheets_zero display input _⟩ hidle
  refine ⟨wellFormed_new display input width height, hmoves.clock_eq, hone, fun hdown => ?_⟩
  have hup : (metaAnnotationLayerNew display input width height).strokeActive = false := rfl
  rw [hup] at hdown
  cases hdown

theorem touched_stateAt (display : MetaDisplay) (input : AnnotationInput K) (width height : ℤ) (ops : List (LayerOp K))
    (htouch : ∀ op ∈ ops, op.touchOnly = true) (hk : k ≤ ops.length) :
    Touched (metaAnnotationLayerNew display input width height) ops k
      (stateAt step (metaAnnotationLayerNew display input width height) ops k) :=
  stateAt_invariant (P := Touched (metaAnnotationLayerNew display input width height) ops)
    (touched_new display input width height ops)
    (fun _ op hget h => touched_step hget (htouch op (List.mem_of_getElem? hget)) h) hk

/-- The contact under way was begun by a touch. -/
theorem contactAt_eq_some (hclock : ∀ j < k, (stateAt step start ops j).ledger.clock = j) (hk : k ≤ ops.length) {b : ℕ}
    (h : contactAt start ops k = some b) : ∃ event nowUs, ops[b]? = some (.handleEvent event nowUs) := by
  induction k with
  | zero => cases h
  | succ k ih =>
    obtain ⟨op, hget⟩ : ∃ op, ops[k]? = some op := ⟨_, List.getElem?_eq_getElem (by omega)⟩
    rw [contactAt_succ hget (hclock k (by omega))] at h
    split_ifs at h with hbegins
    · obtain rfl := Option.some.inj h
      cases op with
      | handleEvent event nowUs => exact ⟨event, nowUs, hget⟩
      | _ => cases hbegins
    · exact ih (fun j hj => hclock j (by omega)) (by omega) h

theorem Touches.begun (hclock : ∀ j < ops.length, (stateAt step start ops j).ledger.clock = j)
    (htouch : Touches start ops p) :
    ∃ b event nowUs, contactOf start ops p = some b ∧ ops[b]? = some (.handleEvent event nowUs) := by
  obtain ⟨b, hb⟩ := Option.isSome_iff_exists.mp htouch.isSome
  obtain ⟨event, nowUs, htouch⟩ := htouch
  have hget := htouch.get
  have hp : p < ops.length := (List.getElem?_eq_some_iff.mp hget).1
  cases hbegins : (stateAt step start ops p).touchBegins (.handleEvent event nowUs) with
  | true =>
    obtain rfl := Option.some.inj ((contactOf_touchBegins hget hbegins).symm.trans hb)
    exact ⟨p, event, nowUs, hb, hget⟩
  | false =>
    have hat : contactAt start ops p = some b := (contactOf_of_not_touchBegins hget hbegins).symm.trans hb
    obtain ⟨event', nowUs', hbegin⟩ := contactAt_eq_some (fun j hj => hclock j (by omega)) hp.le hat
    exact ⟨b, event', nowUs', hb, hbegin⟩

/-- Operation `p` is a touch of the sequence. -/
def TouchIn (ops : List (LayerOp K)) (sequence p : ℕ) : Prop :=
  ∃ event nowUs, ops[p]? = some (.handleEvent event nowUs) ∧ event.isTouch = true ∧ event.sequence = sequence

/-- While a stroke is in flight, all updates, ends and cancels that the layer handles are of
the sequence that began it. -/
def OwnTouches (start : MetaAnnotationLayer K) (ops : List (LayerOp K)) : Prop :=
  ∀ p b event nowUs, Touches start ops p → contactOf start ops p = some b →
    ops[b]? = some (.handleEvent event nowUs) → TouchIn ops event.sequence p

theorem Touched.points (h : Touched start ops k layer) {c : Canvas} {strokes : List (Stroke K)}
    (hstrokes : layer.canvasStrokes c = some strokes) {s : Stroke K} (hs : s ∈ strokes) :
    ∃ b, ∀ p ∈ s.points, Touches start ops p.stamp ∧ contactOf start ops p.stamp = some b := by
  obtain ⟨hseen, hone⟩ := line_of_every h.oneHanded.lines hstrokes hs
  cases hpoints : s.points with
  | nil => exact ⟨0, by simp⟩
  | cons p points =>
    have hp : p.stamp ∈ s.line.stamps := List.mem_map_of_mem (by rw [hpoints]; exact List.mem_cons_self)
    obtain ⟨b, hb⟩ := Option.isSome_iff_exists.mp (hseen _ hp).isSome
    refine ⟨b, fun q hq => ?_⟩
    have hq' : q.stamp ∈ s.line.stamps := List.mem_map_of_mem (by rwa [hpoints])
    exact ⟨hseen _ hq', (hone _ hq' _ hp).trans hb⟩

/-- The points of one contact are of one sequence. -/
theorem OwnTouches.points (hown : OwnTouches start ops)
    (hclock : ∀ j < ops.length, (stateAt step start ops j).ledger.clock = j) {points : List (InkPoint K)} {b : ℕ}
    (h : ∀ p ∈ points, Touches start ops p.stamp ∧ contactOf start ops p.stamp = some b) :
    ∃ sequence, ∀ p ∈ points, TouchIn ops sequence p.stamp := by
  cases points with
  | nil => exact ⟨0, by simp⟩
  | cons p points =>
    obtain ⟨htouch, hof⟩ := h p List.mem_cons_self
    obtain ⟨b', event, nowUs, hb', hbegin⟩ := htouch.begun hclock
    obtain rfl := Option.some.inj (hof.symm.trans hb')
    exact ⟨event.sequence, fun q hq => hown _ b event nowUs (h q hq).1 (h q hq).2 hbegin⟩

/-- An end or a cancel ends a stroke of its own sequence. -/
theorem OwnTouches.ended (hown : OwnTouches start ops)
    (hclock : ∀ j < ops.length, (stateAt step start ops j).ledger.clock = j)
    (h : Touched start ops k (stateAt step start ops k)) {event : ClutterEvent K} {nowUs : ℤ}
    (hget : ops[k]? = some (.handleEvent event nowUs)) (htouch : event.isTouch = true)
    (hends : (stateAt step start ops k).touchEnds (.handleEvent event nowUs) = true)
    (hdown : (stateAt step start ops k).strokeActive = true) :
    TouchIn ops event.sequence (stateAt step start ops k).ledger.strokeLastStamp := by
  obtain ⟨hlast, hpresent⟩ := h.held hdown
  obtain ⟨b, event', nowUs', hb, hbegin⟩ := hlast.begun hclock
  simp only [touchEnds, Bool.and_eq_true, Bool.or_eq_true, decide_eq_true_eq] at hends
  have hbegins : (stateAt step start ops k).touchBegins (.handleEvent event nowUs) = false := by
    obtain ⟨_, htype | htype⟩ := hends
    · simp [touchBegins, htype]
    · simp [touchBegins, htype]
  have hof : contactOf start ops k = some b :=
    (contactOf_of_not_touchBegins hget hbegins).trans (hpresent.symm.trans hb)
  have htouch' : Touches start ops k := ⟨event, nowUs, hget, htouch, hends.1, .inr hdown, by rw [hof]; rfl⟩
  obtain ⟨_, _, hget', _, hsequence⟩ := hown k b event' nowUs' htouch' hof hbegin
  obtain ⟨rfl, rfl⟩ := LayerOp.handleEvent.inj (Option.some.inj (hget.symm.trans hget'))
  rw [hsequence]
  exact hown _ b event' nowUs' hlast hb hbegin

/-- Whatever sequences the touches are of, every stroke has only positions from a begin to the
next begin, end or cancel. So if all of these are of one sequence while the stroke is in
flight, then no stroke has positions of two sequences, and no end or cancel ends the
stroke of another sequence. -/
theorem strokes_ofOneContact (display : MetaDisplay) (input : AnnotationInput K) (width height : ℤ)
    (ops : List (LayerOp K)) (htouch : ∀ op ∈ ops, op.touchOnly = true) :
    let start := metaAnnotationLayerNew display input width height
    (∀ k ≤ ops.length, ∀ c strokes, (stateAt step start ops k).canvasStrokes c = some strokes → ∀ s ∈ strokes,
      ∃ b, ∀ p ∈ s.points, Touches start ops p.stamp ∧ contactOf start ops p.stamp = some b) ∧
    (OwnTouches start ops →
      (∀ k ≤ ops.length, ∀ c strokes, (stateAt step start ops k).canvasStrokes c = some strokes → ∀ s ∈ strokes,
        ∃ sequence, ∀ p ∈ s.points, TouchIn ops sequence p.stamp) ∧
      ∀ k event nowUs, ops[k]? = some (.handleEvent event nowUs) →
        (stateAt step start ops k).touchEnds (.handleEvent event nowUs) = true →
        (stateAt step start ops k).strokeActive = true →
          TouchIn ops event.sequence (stateAt step start ops k).ledger.strokeLastStamp) := by
  intro start
  have hinv : ∀ k ≤ ops.length, Touched start ops k (stateAt step start ops k) :=
    fun k hk => touched_stateAt display input width height ops htouch hk
  have hclock : ∀ j < ops.length, (stateAt step start ops j).ledger.clock = j := fun j hj => (hinv j hj.le).clock
  refine ⟨fun k hk c strokes hstrokes s hs => (hinv k hk).points hstrokes hs,
    fun hown => ⟨fun k hk c strokes hstrokes s hs => ?_, fun k event nowUs hget hends hdown => ?_⟩⟩
  · obtain ⟨b, hb⟩ := (hinv k hk).points hstrokes hs
    exact hown.points hclock hb
  · have hk : k < ops.length := (List.getElem?_eq_some_iff.mp hget).1
    exact hown.ended hclock (hinv k hk.le) hget (htouch _ (List.mem_of_getElem? hget)) hends hdown

/-- Two fingers, one after the other. -/
def oneByOne : List (LayerOp ℚ) :=
  [.call (.setActive true), .handleEvent (.touch .touchBegin 1 1 0) 0, .handleEvent (.touch .touchEnd 2 1 0) 1,
    .handleEvent (.touch .touchBegin 5 5 1) 2, .handleEvent (.touch .touchUpdate 6 5 1) 3]

theorem ownTouches_oneByOne : OwnTouches (metaAnnotationLayerNew .bare .initial 10 10) oneByOne := by
  intro p b event nowUs htouch hof hbegin
  obtain ⟨event', nowUs', htouch⟩ := htouch
  have hget := htouch.get
  have hp : p < oneByOne.length := (List.getElem?_eq_some_iff.mp hget).1
  have hcontacts : (List.range 5).map (contactOf (metaAnnotationLayerNew .bare .initial 10 10) oneByOne) =
      [none, some 1, some 1, some 3, some 3] := by decide +kernel
  simp only [List.range, List.range.loop, List.map_cons, List.map_nil, List.cons.injEq] at hcontacts
  obtain ⟨h0, h1, h2, h3, h4, _⟩ := hcontacts
  have hin : ∀ {q : ℕ} {begin : ClutterEvent ℚ} {nowUs₀ : ℤ},
      contactOf (metaAnnotationLayerNew .bare .initial 10 10) oneByOne p = some q →
        oneByOne[q]? = some (.handleEvent begin nowUs₀) → TouchIn oneByOne begin.sequence p →
          TouchIn oneByOne event.sequence p := by
    intro q begin nowUs₀ hq hbegin₀ hin
    obtain rfl := Option.some.inj (hof.symm.trans hq)
    obtain ⟨rfl, _⟩ := LayerOp.handleEvent.inj (Option.some.inj (hbegin.symm.trans hbegin₀))
    exact hin
  match p, hp with
  | 0, _ => cases h0.symm.trans hof
  | 1, _ => exact hin h1 rfl ⟨_, _, rfl, rfl, rfl⟩
  | 2, _ => exact hin h2 rfl ⟨_, _, rfl, rfl, rfl⟩
  | 3, _ => exact hin h3 rfl ⟨_, _, rfl, rfl, rfl⟩
  | 4, _ => exact hin h4 rfl ⟨_, _, rfl, rfl, rfl⟩

theorem strokes_ofOneContact_oneByOne :
    let start := metaAnnotationLayerNew .bare .initial 10 10
    (∀ k ≤ oneByOne.length, ∀ c strokes, (stateAt step start oneByOne k).canvasStrokes c = some strokes →
      ∀ s ∈ strokes, ∃ sequence, ∀ p ∈ s.points, TouchIn oneByOne sequence p.stamp) ∧
    ∀ k event nowUs, oneByOne[k]? = some (.handleEvent event nowUs) →
      (stateAt step start oneByOne k).touchEnds (.handleEvent event nowUs) = true →
      (stateAt step start oneByOne k).strokeActive = true →
        TouchIn oneByOne event.sequence (stateAt step start oneByOne k).ledger.strokeLastStamp :=
  (strokes_ofOneContact .bare .initial 10 10 oneByOne (by decide)).2 ownTouches_oneByOne

/-- Two fingers at once. The first one begins, then the second, and then the first is moved
and lifted. -/
def bothAtOnce : List (LayerOp ℚ) :=
  [.call (.setActive true), .handleEvent (.touch .touchBegin 1 1 0) 0, .handleEvent (.touch .touchBegin 5 5 1) 1,
    .handleEvent (.touch .touchUpdate 2 1 0) 2, .handleEvent (.touch .touchEnd 2 1 0) 3]

/-- The stroke of the second finger goes to the first one, which ends it. -/
theorem not_ofOneSequence_bothAtOnce :
    let start := metaAnnotationLayerNew .bare .initial 10 10
    (∃ s ∈ (stateAt step start bothAtOnce 4).unattachedStrokes, s.points.map (fun p => (p.x, p.y, p.stamp)) =
      [(5, 5, 2), (2, 1, 3)]) ∧
    TouchIn bothAtOnce 1 2 ∧ TouchIn bothAtOnce 0 3 ∧ TouchIn bothAtOnce 0 4 ∧
    (stateAt step start bothAtOnce 4).strokeActive = true ∧ (stateAt step start bothAtOnce 5).strokeActive = false := by
  refine ⟨?_, ⟨_, _, rfl, rfl, rfl⟩, ⟨_, _, rfl, rfl, rfl⟩, ⟨_, _, rfl, rfl, rfl⟩, ?_, ?_⟩
  · have hdrawn : (stateAt step (metaAnnotationLayerNew .bare .initial 10 10) bothAtOnce 4).unattachedStrokes.map
        (fun s => s.points.map fun p => (p.x, p.y, p.stamp)) = [[(1, 1, 1)], [(5, 5, 2), (2, 1, 3)]] := by
      decide +kernel
    have hmem : [(5, 5, 2), (2, 1, 3)] ∈ (stateAt step (metaAnnotationLayerNew .bare .initial 10 10) bothAtOnce
        4).unattachedStrokes.map (fun s => s.points.map fun p => (p.x, p.y, p.stamp)) := by
      rw [hdrawn]
      decide +kernel
    exact List.mem_map.mp hmem
  · decide +kernel
  · decide +kernel

end MetaAnnotationLayer

end Annotations
