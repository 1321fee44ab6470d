import Annotations.Extension.Armed
import Annotations.Service.Wire

/-! The wire refines the desktop. As long as the numbers in the calls are 32-bit ones, packing and
unpacking them changes nothing, and every signal is acted on once and in order, as the one it was. -/

namespace Annotations.Service

open Runs AnnotationExtension

variable {K : Type} [Scalar K] [FloorRing K] {gdbus : Gdbus K} {w : Wire K}

omit [Scalar K] [FloorRing K] in
/-- Every call that the extension makes has a message. -/
theorem exists_message_of_made {call : BusCall K} {buttons : List RegionId} (h : call.Made buttons) : ∃ m, message call.method = some m := by
  unfold BusCall.Made at h
  cases hmethod : call.method with
  | setActive active => exact ⟨_, rfl⟩
  | setPaused paused => exact ⟨_, rfl⟩
  | setColor rgba => exact ⟨_, rfl⟩
  | clear => exact ⟨_, rfl⟩
  | undoLast => exact ⟨_, rfl⟩
  | setChromeRegions regions => exact ⟨_, rfl⟩
  | clearChromeRegions => exact ⟨_, rfl⟩
  | _ =>
    rw [hmethod] at h
    exact h.elim

namespace Wire

omit [FloorRing K] in
/-- What arrives is the call that was sent. -/
theorem desktop_deliver (hmade : ∀ call ∈ w.desktop.calls, call.Made dockButtons)
    (hfits : ∀ call ∈ w.desktop.calls, Fits call.method) : (w.deliver gdbus).desktop = w.desktop.deliver := by
  unfold deliver Desktop.deliver
  dsimp only
  cases hcall : w.desktop.calls[w.desktop.reader.delivered]? with
  | none => rfl
  | some call =>
    have hmem := List.mem_of_getElem? hcall
    obtain ⟨m, hm⟩ := exists_message_of_made (hmade call hmem)
    dsimp only
    rw [hm]
    dsimp only
    rw [serve_message (hfits call hmem) hm]

/-- Calls are only added. -/
theorem calls_step (op : WireOp K) : ∃ post, (w.step gdbus op).desktop.calls = w.desktop.calls ++ post := by
  have hnone : ∃ post, w.desktop.calls = w.desktop.calls ++ post := ⟨[], (List.append_nil _).symm⟩
  have hhandle : ∀ event, ∃ post, (w.desktop.extension.handle event).calls = w.desktop.calls ++ post := fun event => by
    have hsends : AnnotationExtension.Sends _ w.desktop.extension _ := AnnotationExtension.sends_handle event
    obtain ⟨post, hcalls, -⟩ := hsends
    exact ⟨post, hcalls⟩
  cases op with
  | extension event =>
    cases event with
    | regionActivated id kind => exact hnone
    | _ => exact hhandle _
  | reply i ok =>
    change ∃ post, (w.desktop.reply i ok).calls = _
    unfold Desktop.reply
    split
    · exact hnone
    next call _ =>
      split_ifs
      · exact hnone
      · obtain ⟨post, hcalls, -⟩ := (w.desktop.extension.hidden_onReply call.handler (ok && w.desktop.arrived i)).2.2
        exact ⟨post, hcalls⟩
  | acquire => exact hnone
  | deliver =>
    change ∃ post, (w.deliver gdbus).desktop.calls = _
    unfold deliver
    dsimp only
    split <;> exact hnone
  | signal =>
    change ∃ post, w.signal.desktop.calls = _
    unfold signal
    split
    · exact hnone
    next signal _ =>
      change ∃ post, (onSignal w.desktop.extension (packSignal signal)).calls = _
      rw [onSignal_packSignal]
      exact hhandle (.regionActivated (.ofText signal.id) signal.kind)
  | layer op =>
    change ∃ post, (w.desktop.step (.layer op)).calls = _
    unfold Desktop.step
    dsimp only
    split_ifs <;> exact hnone

/-- The desktop keeps up with the wire. -/
structure Refines (start : Desktop K) (w : Wire K) (dops : List (DesktopOp K)) : Prop where
  run : run (watch Desktop.step seeSignals) (start, []) dops = (w.desktop, w.signals)
  heard : dops.filterMap activated = (w.signals.take w.received).map meaning
  within : w.received ≤ w.signals.length

variable {start : Desktop K} {dops : List (DesktopOp K)}

/-- One more step of the desktop, which is no signal. -/
theorem Refines.concat {w' : Wire K} (h : Refines start w dops) (dop : DesktopOp K) (hdop : activated dop = none)
    (hdesktop : w'.desktop = w.desktop.step dop) (hsignals : w'.signals = seeSignals w.signals w.desktop dop)
    (hreceived : w'.received = w.received) : Refines start w' (dops ++ [dop]) := by
  have hprefix : ∃ more, w'.signals = w.signals ++ more := by
    rw [hsignals]
    cases dop with
    | layer op => exact ⟨_, rfl⟩
    | _ => exact ⟨[], (List.append_nil _).symm⟩
  obtain ⟨more, hmore⟩ := hprefix
  refine ⟨?_, ?_, ?_⟩
  · rw [run_concat, h.run, watch, hdesktop, hsignals]
  · rw [List.filterMap_append, h.heard, hreceived, hmore, List.take_append_of_le_length h.within]
    simp [hdop]
  · rw [hreceived, hmore, List.length_append]
    exact h.within.trans (Nat.le_add_right _ _)

/-- A signal arrives as the event that it means. -/
theorem refines_signal (h : Refines start w dops) : ∃ dops', Refines start w.signal dops' := by
  unfold signal
  cases hsignal : w.signals[w.received]? with
  | none => exact ⟨dops, h⟩
  | some signal =>
    refine ⟨dops ++ [.extension (.regionActivated (.ofText signal.id) signal.kind)], ?_, ?_, ?_⟩
    · rw [run_concat, h.run, watch]
      dsimp only
      rw [onSignal_packSignal]
      rfl
    · rw [List.filterMap_append, h.heard, List.take_add_one, hsignal, List.map_append]
      rfl
    · exact (List.getElem?_eq_some_iff.mp hsignal).1

theorem refines_step (h : Refines start w dops) (hmade : ∀ call ∈ w.desktop.calls, call.Made dockButtons)
    (hfits : ∀ call ∈ w.desktop.calls, Fits call.method) (op : WireOp K) :
    ∃ dops', Refines start (w.step gdbus op) dops' := by
  cases op with
  | extension event =>
    cases event with
    | regionActivated id kind => exact ⟨dops, h⟩
    | _ => exact ⟨_, h.concat (.extension _) rfl rfl rfl rfl⟩
  | reply i ok => exact ⟨_, h.concat (.reply i ok) rfl rfl rfl rfl⟩
  | acquire => exact ⟨_, h.concat .acquire rfl rfl rfl rfl⟩
  | deliver =>
    have hrest : (w.deliver gdbus).signals = w.signals ∧ (w.deliver gdbus).received = w.received := by
      unfold deliver
      dsimp only
      split <;> exact ⟨rfl, rfl⟩
    exact ⟨_, h.concat .deliver rfl (desktop_deliver hmade hfits) hrest.1 hrest.2⟩
  | signal => exact refines_signal h
  | layer op => exact ⟨_, h.concat (.layer op) rfl rfl rfl rfl⟩

/-- Every run of the wire, in which the numbers sent are 32-bit ones, is a run of the desktop: its
signals are those that the wire carries, and the extension acts on those that have arrived, each of
them once, in the order in which they were emitted, and as the signal that it was. -/
theorem wire_refines_desktop (gdbus : Gdbus K) (scene : Scene K) (display : MetaDisplay) (input : AnnotationInput K)
    (width height : ℤ) (ops : List (WireOp K)) :
    let w := run (step gdbus) (new scene display input width height) ops
    (∀ call ∈ w.desktop.calls, Fits call.method) →
      ∃ dops, run (watch Desktop.step seeSignals) (.new scene display input width height, []) dops =
          (w.desktop, w.signals) ∧
        dops.filterMap activated = (w.signals.take w.received).map meaning := by
  suffices h : (∀ call ∈ (run (step gdbus) (new scene display input width height) ops).desktop.calls, Fits call.method) →
      ∃ dops, Refines (.new scene display input width height)
        (run (step gdbus) (new scene display input width height) ops) dops by
    intro w hfits
    obtain ⟨dops, hrefines⟩ := h hfits
    exact ⟨dops, hrefines.run, hrefines.heard⟩
  induction ops using List.reverseRecOn with
  | nil => exact fun _ => ⟨[], rfl, rfl, le_rfl⟩
  | append_singleton ops op ih =>
    rw [run_concat]
    generalize run (step gdbus) (new scene display input width height) ops = w at ih
    intro hfits
    obtain ⟨post, hcalls⟩ : ∃ post, (w.step gdbus op).desktop.calls = w.desktop.calls ++ post := calls_step op
    have hbefore : ∀ call ∈ w.desktop.calls, Fits call.method := fun call hcall =>
      hfits call (hcalls ▸ List.mem_append_left post hcall)
    obtain ⟨dops, h⟩ := ih hbefore
    -- the calls that the desktop has made are proper ones
    have hdesktop : run Desktop.step (.new scene display input width height) dops = w.desktop := by
      have hfst := congrArg Prod.fst h.run
      rwa [run_watch_fst] at hfst
    have hsession := (Desktop.session_after scene display input width height dops).2
    rw [hdesktop] at hsession
    exact refines_step h hsession.made hbefore op

/-- The dock is published, and a pen taps on it. -/
theorem wire_refines_desktop_tapped :
    let w : Wire ℚ := run (step .strict) (new .bare .bare .initial 100 100)
      [.extension .enable, .acquire, .deliver, .deliver, .reply 1 true, .deliver, .deliver,
        .layer (.route (.pen .buttonPress 50 95 1 true) 0), .layer (.route (.pen .buttonRelease 50 95 1 false) 1),
        .signal, .signal]
    ∃ dops, run (watch Desktop.step seeSignals) (.new .bare .bare .initial 100 100, []) dops = (w.desktop, w.signals) ∧
      dops.filterMap activated = (w.signals.take w.received).map meaning :=
  wire_refines_desktop .strict .bare .bare .initial 100 100 _ (by decide +kernel)

end Wire

end Annotations.Service
