import Annotations.Extension.Arming

/-! The compositor draws in the colour that the dock shows as armed. Once the extension has found
its session active, the compositor is active and has that colour, as soon as it has heard all calls. -/

namespace Annotations

open Runs

variable {K : Type} [Scalar K]

namespace MetaAnnotationLayer

variable {layer : MetaAnnotationLayer K}

theorem kept_opStep (h : Kept layer) (op : Op K) : Kept (layer.opStep op) := by
  cases op with
  | call c => exact kept_step h (.call c)
  | route event nowUs =>
    cases layer.routing event nowUs with
    | ignored _ hrouted => rw [opStep_route hrouted]; exact ⟨wellFormed_tick h.wellFormed, sound_tick h.sound, h.surfaced⟩
    | swallowed _ _ _ _ _ hrouted =>
      rw [opStep_route hrouted]
      exact ⟨wellFormed_tick h.wellFormed, sound_tick h.sound, h.surfaced⟩
    | landed id _ hrouted => rw [opStep_route hrouted]; exact kept_step h (.setChromePressActive id)
    | ended _ _ _ _ _ hrouted => rw [opStep_route hrouted]; exact kept_step h .clearChromePress
    | handled _ _ _ hrouted => rw [opStep_route hrouted]; exact kept_step h (.handleEvent event nowUs)

/-- Only `SetColor` changes the colour of the pen. -/
theorem rgba_step (h : Kept layer) (op : LayerOp K) (hop : ∀ rgba, op ≠ .call (.setColor rgba)) :
    (layer.step op).rgba = layer.rgba := by
  have hsame : (layer.exec op).drawing.rgba = layer.drawing.rgba := by
    refine (traces_exec h.wellFormed h.sound h.surfaced op).invariant (P := fun d => d.rgba = layer.drawing.rgba)
      (fun d e hmove hd => (hmove.rgba_eq ?_).trans hd) rfl
    cases op with
    | call c =>
      cases c with
      | setColor rgba => exact absurd rfl (hop rgba)
      | _ => exact not_false
    | _ => exact not_false
  exact hsame

theorem rgba_opStep (h : Kept layer) {op : Op K} (hop : ∀ rgba, op ≠ .call (.setColor rgba)) :
    (layer.opStep op).rgba = layer.rgba := by
  cases op with
  | call c => exact rgba_step h (.call c) fun rgba hc => hop rgba (by rw [LayerOp.call.inj hc])
  | route event nowUs =>
    cases layer.routing event nowUs with
    | ignored _ hrouted => rw [opStep_route hrouted]; rfl
    | swallowed _ _ _ _ _ hrouted => rw [opStep_route hrouted]; rfl
    | landed id _ hrouted => rw [opStep_route hrouted]; rfl
    | ended _ _ _ _ _ hrouted => rw [opStep_route hrouted]; rfl
    | handled _ _ _ hrouted =>
      rw [opStep_route hrouted]
      exact rgba_step h (.handleEvent event nowUs) (by simp)

theorem rgba_call (h : Kept layer) (call : BusCall K) :
    (layer.opStep (.call call.method)).rgba = (call.colour.map Rgba.rounded).getD layer.rgba := by
  cases hmethod : call.method with
  | setColor rgba =>
    rw [BusCall.colour, hmethod]
    rfl
  | _ =>
    rw [rgba_opStep h (by simp), BusCall.colour, hmethod]
    rfl

end MetaAnnotationLayer

namespace Desktop

open AnnotationExtension

variable {d : Desktop K}

/-! ### The pen -/

/-- The colour of the pen is the last one heard, as floats. -/
structure Pen (init : Rgba K) (d : Desktop K) : Prop where
  within : d.reader.Within d.calls
  kept : d.layer.Kept
  colour : d.layer.rgba = register (fun call => call.colour.map Rgba.rounded) init (d.reader.heard d.calls)

variable {init : Rgba K}

theorem Pen.extension (h : Pen init d) {extension : AnnotationExtension K} {post : List (BusCall K)}
    (hcalls : extension.calls = d.calls ++ post) (replied : ℕ → Bool) :
    Pen init { d with extension := extension, replied := replied } := by
  have hwithin : d.reader.Within extension.calls := hcalls ▸ h.within.append
  have hheard : d.reader.heard extension.calls = d.reader.heard d.calls := hcalls ▸ Reader.heard_append h.within
  refine ⟨hwithin, h.kept, ?_⟩
  change d.layer.rgba = register _ init (d.reader.heard extension.calls)
  rw [hheard]
  exact h.colour

theorem pen_deliver (h : Pen init d) : Pen init d.deliver := by
  unfold deliver
  cases hcall : d.calls[d.reader.delivered]? with
  | none => exact h
  | some call =>
    have hmore : d.reader.delivered < d.calls.length := (List.getElem?_eq_some_iff.mp hcall).1
    refine ⟨h.within.deliver hmore, ?_, ?_⟩
    · dsimp only
      split_ifs
      · exact MetaAnnotationLayer.kept_opStep h.kept _
      · exact h.kept
    · dsimp only
      rw [Reader.heard_deliver h.within hcall]
      cases hready : d.reader.ready with
      | false =>
        have hcolour := h.colour
        rwa [Reader.heard_unready h.within hready] at hcolour
      | true => rw [if_pos rfl, if_pos rfl, register_concat, MetaAnnotationLayer.rgba_call h.kept, h.colour]

/-! ### The session -/

/-- What the extension believes of its session is true of what has been sent to it. -/
structure Session (d : Desktop K) : Prop where
  known : Known d.extension
  buttons : d.extension.regionButtons ⊆ dockButtons
  made : ∀ call ∈ d.calls, call.Made dockButtons
  handler : ∀ call ∈ d.calls, call.handler = .setActive → call.active = some true
  dock : d.extension.dock.isSome = true → lastWrite BusCall.active d.calls = some true
  ready : d.extension.annotationSessionActiveOk = true → d.reader.ready = true
  active : d.extension.annotationSessionActiveOk = true →
    lastWrite BusCall.active (d.calls.drop d.reader.refused) ≠ none
  colour : d.extension.annotationSessionActiveOk = true → ∃ c, colors[d.extension.activeColorIndex]? = some c ∧
    lastWrite BusCall.colour (d.calls.drop d.reader.refused) = some c

/-- The extension goes on. If it finds its session active, then it was told so. -/
theorem Session.extension (h : Session d) (hwithin : d.reader.Within d.calls) {extension : AnnotationExtension K}
    {post : List (BusCall K)} (harms : Arms d.extension extension post) (replied : ℕ → Bool)
    (htold : extension.annotationSessionActiveOk = true →
      d.reader.ready = true ∧ lastWrite BusCall.active (d.calls.drop d.reader.refused) ≠ none) :
    Session { d with extension := extension, replied := replied } := by
  have hrefused : d.reader.refused ≤ d.calls.length := hwithin.refused.trans hwithin.delivered
  have hcalls : extension.calls = d.calls ++ post := harms.calls
  have hdrop : extension.calls.drop d.reader.refused = d.calls.drop d.reader.refused ++ post := by
    rw [hcalls, List.drop_append_of_le_length hrefused]
  refine ⟨harms.known h.known, harms.buttons h.buttons, fun call hcall => ?_, fun call hcall hhandler => ?_, fun hdock => ?_,
    fun hok => (htold hok).1, fun hok => ?_, fun hok => ?_⟩
  · change call ∈ extension.calls at hcall
    rw [hcalls] at hcall
    rcases List.mem_append.mp hcall with hcall | hcall
    · exact h.made call hcall
    · exact harms.made h.buttons call hcall
  · change call ∈ extension.calls at hcall
    rw [hcalls] at hcall
    rcases List.mem_append.mp hcall with hcall | hcall
    · exact h.handler call hcall hhandler
    · exact harms.handler call hcall hhandler
  · change lastWrite BusCall.active extension.calls = some true
    rw [hcalls, lastWrite_append]
    rcases harms.active hdock with hpost | ⟨hold, hpost⟩
    · rw [hpost, Option.some_or]
    · rw [hpost, Option.none_or, h.dock hold]
  · change lastWrite BusCall.active (extension.calls.drop d.reader.refused) ≠ none
    rw [hdrop, lastWrite_append]
    intro hnone
    exact (htold hok).2 (Option.or_eq_none_iff.mp hnone).2
  · change ∃ c, colors[extension.activeColorIndex]? = some c ∧
      lastWrite BusCall.colour (extension.calls.drop d.reader.refused) = some c
    rw [hdrop, lastWrite_append]
    rcases harms.colour hok with ⟨hpost, c, hc⟩ | ⟨hold, hindex, hpost⟩
    · exact ⟨c, hc, by rw [hpost, hc, Option.some_or]⟩
    · obtain ⟨c, hc, hlast⟩ := h.colour hold
      exact ⟨c, hindex ▸ hc, by rw [hpost, Option.none_or, hlast]⟩

/-- What the reader does next does not matter once it is ready. -/
theorem session_deliver (h : Session d) : Session d.deliver := by
  unfold deliver
  cases hcall : d.calls[d.reader.delivered]? with
  | none => exact h
  | some call =>
    have hready : d.extension.annotationSessionActiveOk = true → d.reader.deliver.refused = d.reader.refused :=
      fun hok => by rw [Reader.deliver, h.ready hok]; rfl
    refine ⟨h.known, h.buttons, h.made, h.handler, h.dock, h.ready, fun hok => ?_, fun hok => ?_⟩
    · dsimp only
      rw [hready hok]
      exact h.active hok
    · dsimp only
      rw [hready hok]
      exact h.colour hok

variable [FloorRing K]

/-- A call that was answered got through, so the compositor was ready, and it was not refused. -/
theorem session_reply (h : Session d) (hwithin : d.reader.Within d.calls) (i : ℕ) (ok : Bool) :
    Session (d.reply i ok) := by
  unfold reply
  cases hget : d.calls[i]? with
  | none => exact h
  | some call =>
    dsimp only
    split_ifs
    · exact h
    · obtain ⟨post, harms⟩ := arms_onReply h.known call.handler (ok && d.arrived i)
      refine h.extension hwithin harms _ fun hok => ?_
      by_cases hold : d.extension.annotationSessionActiveOk = true
      · exact ⟨h.ready hold, h.active hold⟩
      · -- only the reply to an activation that got through changes it
        have hhandler : call.handler = .setActive ∧ d.arrived i = true := by
          cases hcall : call.handler with
          | setActive =>
            rw [hcall] at hok
            cases hthrough : ok && d.arrived i with
            | true => exact ⟨rfl, (Bool.and_eq_true_iff.mp hthrough).2⟩
            | false =>
              rw [hthrough] at hok
              exact absurd hok hold
          | setPaused epoch paused =>
            rw [hcall] at hok
            unfold onReply at hok
            dsimp only at hok
            split_ifs at hok <;> exact absurd hok hold
          | _ =>
            rw [hcall] at hok
            exact absurd hok hold
        obtain ⟨hhandler, harrived⟩ := hhandler
        rw [arrived, Bool.and_eq_true, decide_eq_true_iff, decide_eq_true_iff] at harrived
        have hactive := h.handler call (List.mem_of_getElem? hget) hhandler
        refine ⟨?_, fun hnone => ?_⟩
        · cases hready : d.reader.ready with
          | true => rfl
          | false =>
            have hall := hwithin.unready hready
            omega
        · have hmem : call ∈ d.calls.drop d.reader.refused :=
            List.mem_of_getElem? (i := i - d.reader.refused) (by
              rw [List.getElem?_drop, Nat.add_sub_cancel' harrived.1, hget])
          rw [lastWrite_eq_none.mp hnone call hmem] at hactive
          cases hactive

/-! ### Runs -/

section
variable (scene : Scene K) (display : MetaDisplay) (input : AnnotationInput K) (width height : ℤ)

omit [FloorRing K] in
theorem pen_new : Pen (metaAnnotationLayerNew display input width height).rgba
    (new scene display input width height) :=
  ⟨Reader.within_new, MetaAnnotationLayer.kept_new, rfl⟩

omit [FloorRing K] in
theorem session_new : Session (new scene display input width height) where
  known := ⟨⟨0.15, 0.15, 0.15, 1⟩, rfl⟩
  buttons := List.nil_subset _
  made _ hcall := absurd hcall List.not_mem_nil
  handler _ hcall := absurd hcall List.not_mem_nil
  dock hdock := absurd hdock Bool.false_ne_true
  ready hok := absurd hok Bool.false_ne_true
  active hok := absurd hok Bool.false_ne_true
  colour hok := absurd hok Bool.false_ne_true

end

theorem session_step (h : Session d) (hwithin : d.reader.Within d.calls) (op : DesktopOp K) : Session (d.step op) := by
  cases op with
  | extension event =>
    obtain ⟨post, harms⟩ := d.extension.arms_handle event
    refine h.extension hwithin harms d.replied fun hok => ?_
    have hold := ok_handle hok
    exact ⟨h.ready hold, h.active hold⟩
  | reply i ok => exact session_reply h hwithin i ok
  | acquire => exact ⟨h.known, h.buttons, h.made, h.handler, h.dock, fun _ => rfl, h.active, h.colour⟩
  | deliver => exact session_deliver h
  | layer op =>
    unfold step
    dsimp only
    split_ifs
    · exact h
    · exact ⟨h.known, h.buttons, h.made, h.handler, h.dock, h.ready, h.active, h.colour⟩

theorem pen_step (h : Pen init d) (hknown : Known d.extension) {op : DesktopOp K}
    (hop : ∀ rgba, op ≠ .layer (.call (.setColor rgba))) : Pen init (d.step op) := by
  cases op with
  | extension event =>
    obtain ⟨post, harms⟩ := d.extension.arms_handle event
    exact h.extension harms.calls d.replied
  | reply i ok =>
    change Pen init (d.reply i ok)
    unfold reply
    split
    · exact h
    · split_ifs
      · exact h
      · obtain ⟨post, harms⟩ := arms_onReply hknown _ _
        exact h.extension harms.calls _
  | acquire => exact ⟨⟨h.within.delivered, h.within.refused, nofun⟩, h.kept, h.colour⟩
  | deliver => exact pen_deliver h
  | layer op =>
    unfold step
    dsimp only
    split_ifs
    · exact h
    · have hcolour : ∀ rgba, op ≠ .call (.setColor rgba) := fun rgba hrgba => hop rgba (by rw [hrgba])
      exact ⟨h.within, MetaAnnotationLayer.kept_opStep h.kept op,
        (MetaAnnotationLayer.rgba_opStep h.kept hcolour).trans h.colour⟩

theorem session_after (scene : Scene K) (display : MetaDisplay) (input : AnnotationInput K) (width height : ℤ)
    (ops : List (DesktopOp K)) :
    Obeys (run step (new scene display input width height) ops) ∧
      Session (run step (new scene display input width height) ops) :=
  run_invariant (P := fun d => Obeys d ∧ Session d)
    (fun _ op h => ⟨obeys_step h.1 op, session_step h.2 h.1.within op⟩)
    ⟨obeys_new scene display input width height, session_new scene display input width height⟩

/-- Once the extension has found its session active and all calls are delivered, the pen has the
colour that the dock shows as armed, as floats, and the compositor is active as long as there is a
dock. This is so in every run in which nobody else sets the colour. -/
theorem armed_of_sessionActive (scene : Scene K) (display : MetaDisplay) (input : AnnotationInput K)
    (width height : ℤ) (ops : List (DesktopOp K))
    (hops : ∀ op ∈ ops, ∀ rgba, op ≠ .layer (.call (.setColor rgba))) :
    let d := run step (new scene display input width height) ops
    d.Settled → d.extension.annotationSessionActiveOk = true →
      colors[d.extension.activeColorIndex]?.map Rgba.rounded = some d.layer.rgba ∧
      (d.extension.dock.isSome = true → d.layer.active = true) := by
  intro d hsettled hok
  obtain ⟨hobeys, hsession⟩ := session_after scene display input width height ops
  have hpen : Session d ∧ Obeys d ∧ Pen (metaAnnotationLayerNew display input width height).rgba d := by
    have halong : Along step (fun _ op => ∀ rgba, op ≠ DesktopOp.layer (.call (.setColor rgba)))
        (new scene display input width height) ops :=
      .of_get fun k op hget => hops op (List.mem_of_getElem? hget)
    refine halong.invariant (P := fun d => Session d ∧ Obeys d ∧
      Pen (metaAnnotationLayerNew display input width height).rgba d) (fun d op h hop => ?_)
      ⟨session_new scene display input width height, obeys_new scene display input width height,
        pen_new scene display input width height⟩
    exact ⟨session_step h.1 h.2.1.within op, obeys_step h.2.1 op, pen_step h.2.2 h.1.known hop⟩
  obtain ⟨-, -, hpen⟩ := hpen
  obtain ⟨c, hc, hlast⟩ := hsession.colour hok
  refine ⟨?_, fun hdock => ?_⟩
  · have hcolour := hpen.colour
    rw [Reader.heard_all hsettled, register_eq_lastWrite, lastWrite_map, hlast, Option.map_some,
      Option.getD_some] at hcolour
    rw [hc, hcolour, Option.map_some]
  · have hactive := congrArg Remote.active (hobeys.settled hsettled)
    have hlastActive := lastWrite_drop (hsession.dock hdock) (hsession.active hok)
    change d.layer.active = register BusCall.active false (d.calls.drop d.reader.refused) at hactive
    rw [hactive, register_eq_lastWrite, hlastActive, Option.getD_some]

/-- The session is found active, and then the blue pen is clicked. -/
theorem armed_of_sessionActive_clicked :
    let d := run step (new .bare .bare .initial 100 100) [.extension .enable, .acquire, .deliver, .deliver,
      .reply 1 true, .extension (.clicked (.color 3)), .deliver, .deliver, .deliver]
    colors[d.extension.activeColorIndex]?.map Rgba.rounded = some d.layer.rgba ∧
      (d.extension.dock.isSome = true → d.layer.active = true) :=
  armed_of_sessionActive .bare .bare .initial 100 100 _ (by simp) (by unfold Settled; decide +kernel)
    (by decide +kernel)

end Desktop

end Annotations
