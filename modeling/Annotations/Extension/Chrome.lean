import Annotations.Extension.Desktop
import Annotations.Runs.Basic

/-! The chrome regions of a hidden dock. When the overview opens, the regions are cleared
only if the extension knows by then that they are published. -/

namespace Annotations

open Runs

variable {K : Type}

namespace Desktop

open AnnotationExtension

/-- Unless more calls are refused or made, the compositor will have regions. -/
def Exposed (d : Desktop K) : Prop := register BusCall.regions [] (d.calls.drop d.reader.refused) ≠ []

/-- While the dock is hidden, the compositor has no regions once all is delivered. -/
def HiddenClear (d : Desktop K) : Prop :=
  ∀ dock, d.extension.dock = some dock → dock.visible = false → d.Settled → d.layer.chromeRegions = []

/-- The overview opens while the last regions are not known to be published. -/
def Uncleared (d : Desktop K) : DesktopOp K → Prop
  | .extension .overviewShowing => d.extension.overviewShowingId ∧ d.extension.dock = some ⟨true⟩ ∧
      d.extension.regionsPublished = false ∧ d.Exposed
  | _ => False

variable {d d' : Desktop K} {op : DesktopOp K}

/-- Regions that are not set stay so. -/
theorem not_exposed_of_sends (hwithin : d.reader.Within d.calls) (h : ¬ d.Exposed)
    (hsends : Sends BusCall.Regionless d.extension d'.extension) (hreader : d'.reader = d.reader) : ¬ d'.Exposed := by
  obtain ⟨post, hcalls, hpost⟩ := hsends
  have hle : d.reader.refused ≤ d.calls.length := hwithin.refused.trans hwithin.delivered
  unfold Exposed at h ⊢
  rw [not_not] at h ⊢
  rw [hreader, calls, hcalls, List.drop_append_of_le_length hle]
  exact register_append_init h hpost

/-- Nothing is exposed while the dock is not visible. -/
structure Covered (d : Desktop K) : Prop where
  obeys : Obeys d
  clear : d.extension.dock ≠ some ⟨true⟩ → ¬ d.Exposed

theorem hiddenClear_of_covered (h : Covered d) : HiddenClear d := by
  intro dock hdock hvisible hsettled
  have hclear := h.clear fun htrue => by
    obtain rfl := Option.some.inj (hdock.symm.trans htrue)
    cases hvisible
  have hregions := congrArg Remote.regions (h.obeys.settled hsettled)
  exact hregions.trans (not_not.mp hclear)

theorem regionless_pair {method method' : Call K} {handler handler' : ReplyHandler}
    (h : BusCall.Regionless ⟨method, handler⟩) (h' : BusCall.Regionless ⟨method', handler'⟩) :
    ∀ call ∈ [BusCall.mk method handler, BusCall.mk method' handler'], call.Regionless := by
  intro call hcall
  rcases List.mem_cons.mp hcall with rfl | hcall
  · exact h
  · obtain rfl := List.mem_singleton.mp hcall
    exact h'

/-- A call that clears the regions makes up for whatever was sent before. -/
theorem not_exposed_of_clears (hwithin : d.reader.Within d.calls) {handler : ReplyHandler} {post : List (BusCall K)}
    (hcalls : d'.calls = d.calls ++ (⟨.clearChromeRegions, handler⟩ :: post)) (hpost : ∀ call ∈ post, call.Regionless)
    (hreader : d'.reader = d.reader) : ¬ d'.Exposed := by
  have hle : d.reader.refused ≤ d.calls.length := hwithin.refused.trans hwithin.delivered
  unfold Exposed
  rw [not_not, hreader, hcalls, List.drop_append_of_le_length hle, ← List.singleton_append, ← List.append_assoc]
  exact register_append_init register_concat hpost

variable [Scalar K] [FloorRing K]

theorem not_exposed_overviewShowing (h : Covered d) (hop : ¬ d.Uncleared (.extension .overviewShowing))
    (hhidden : d.extension.onOverviewShowing.dock ≠ some ⟨true⟩) : ¬ (d.step (.extension .overviewShowing)).Exposed := by
  by_cases hconnected : (!d.extension.overviewShowingId || d.extension.dock.isNone) = true
  · have hsame : d.extension.onOverviewShowing = d.extension.setOverviewVisible true := if_pos hconnected
    have hcalls : d.extension.onOverviewShowing.calls = d.calls := by rw [hsame]; rfl
    rw [hsame] at hhidden
    exact not_exposed_of_sends h.obeys.within (h.clear hhidden) (sends_of_same hcalls) rfl
  · have hshowing : d.extension.onOverviewShowing =
        (((d.extension.setOverviewVisible true).showDock false).clearChromeRegions).setPaused true := if_neg hconnected
    cases hpublished : d.extension.regionsPublished with
    | true =>
      have hcalls : d.extension.onOverviewShowing.calls = d.calls ++ [⟨.clearChromeRegions, .null⟩,
          ⟨.setPaused true, .setPaused (d.extension.setPausedEpoch + 1) true⟩] := by
        rw [hshowing, clearChromeRegions, showDock, setOverviewVisible]
        dsimp only
        rw [hpublished]
        exact List.append_assoc ..
      refine not_exposed_of_clears h.obeys.within hcalls (fun call hcall => ?_) rfl
      obtain rfl := List.mem_singleton.mp hcall
      exact .inl rfl
    | false =>
      have hclear : ¬ d.Exposed := by
        by_cases hdock : d.extension.dock = some ⟨true⟩
        · refine fun hexposed => hop ⟨?_, hdock, hpublished, hexposed⟩
          simpa using (not_or.mp (mt (Bool.or_eq_true _ _).mpr hconnected)).1
        · exact h.clear hdock
      have hcalls : d.extension.onOverviewShowing.calls =
          d.calls ++ [⟨.setPaused true, .setPaused (d.extension.setPausedEpoch + 1) true⟩] := by
        rw [hshowing, clearChromeRegions, showDock, setOverviewVisible]
        dsimp only
        rw [hpublished]
        rfl
      refine not_exposed_of_sends h.obeys.within hclear ⟨_, hcalls, fun call hcall => ?_⟩ rfl
      obtain rfl := List.mem_singleton.mp hcall
      exact .inl rfl

/-- What becomes of the dock and the regions at an event. -/
theorem clear_handle (h : Covered d) (event : ExtensionEvent K) (hop : ¬ d.Uncleared (.extension event))
    (hhidden : (d.extension.handle event).dock ≠ some ⟨true⟩) : ¬ (d.step (.extension event)).Exposed := by
  have hsends : (d.extension.handle event).dock = d.extension.dock →
      (d.extension.dock ≠ some ⟨true⟩ → Sends BusCall.Regionless d.extension (d.extension.handle event)) →
      ¬ (d.step (.extension event)).Exposed := by
    intro hdock hregionless
    rw [hdock] at hhidden
    exact not_exposed_of_sends h.obeys.within (h.clear hhidden) (hregionless hhidden) rfl
  cases event with
  | enable =>
    cases hdock : d.extension.dock.isSome with
    | true =>
      have hsame : d.extension.enable = d.extension := if_pos hdock
      exact hsends (congrArg AnnotationExtension.dock hsame) fun _ =>
        sends_of_same (congrArg AnnotationExtension.calls hsame)
    | false =>
      have hnone : d.extension.dock ≠ some ⟨true⟩ := fun hsome => by
        rw [hsome] at hdock
        cases hdock
      exact not_exposed_of_sends h.obeys.within (h.clear hnone)
        ⟨_, calls_enable hdock, regionless_pair (.inl rfl) (.inl rfl)⟩ rfl
  | disable => exact not_exposed_of_clears h.obeys.within calls_disable (regionless_pair (.inl rfl) (.inl rfl)) rfl
  | overviewShowing => exact not_exposed_overviewShowing h hop hhidden
  | overviewHidden =>
    by_cases hconnected : (!d.extension.overviewHiddenId || d.extension.dock.isNone) = true
    · have hsame : d.extension.onOverviewHidden = d.extension.setOverviewVisible false := if_pos hconnected
      have hcalls : d.extension.onOverviewHidden.calls = d.calls := by rw [hsame]; rfl
      have hdock : d.extension.onOverviewHidden.dock = d.extension.dock := by rw [hsame]; rfl
      exact hsends hdock fun _ => sends_of_same hcalls
    · refine absurd ?_ hhidden
      have hshown : d.extension.onOverviewHidden =
          (((d.extension.setOverviewVisible false).showDock true).positionDock).setPaused false := if_neg hconnected
      have hdock : d.extension.onOverviewHidden.dock = d.extension.dock.map fun _ => ⟨true⟩ := by
        rw [hshown]
        exact minor_positionDock.dock
      refine hdock.trans ?_
      cases hsome : d.extension.dock with
      | none => simp [hsome] at hconnected
      | some dock => rfl
  | setPausedRetry =>
    refine hsends ?_ fun _ => sends_onSetPausedRetry
    change d.extension.onSetPausedRetry.dock = d.extension.dock
    unfold onSetPausedRetry
    split
    · rfl
    · dsimp only
      split_ifs <;> rfl
  | _ => exact hsends (minor_handle rfl).dock (minor_handle rfl).hidden

theorem covered_step (h : Covered d) (hop : ¬ d.Uncleared op) : Covered (d.step op) := by
  refine ⟨obeys_step h.obeys op, fun hhidden => ?_⟩
  cases op with
  | extension event => exact clear_handle h event hop hhidden
  | acquire => exact h.clear hhidden
  | reply i ok =>
    change (d.reply i ok).extension.dock ≠ some ⟨true⟩ at hhidden
    change ¬ (d.reply i ok).Exposed
    unfold reply at hhidden ⊢
    cases hcall : d.calls[i]? with
    | none =>
      rw [hcall] at hhidden
      exact h.clear hhidden
    | some call =>
      rw [hcall] at hhidden
      dsimp only at hhidden ⊢
      split_ifs at hhidden ⊢
      · exact h.clear hhidden
      · have hreply := d.extension.hidden_onReply call.handler (ok && d.arrived i)
        dsimp only at hhidden
        rw [hreply.1] at hhidden
        exact not_exposed_of_sends h.obeys.within (h.clear hhidden) (hreply.2.1 hhidden) rfl
  | deliver =>
    change d.deliver.extension.dock ≠ some ⟨true⟩ at hhidden
    change ¬ d.deliver.Exposed
    unfold deliver at hhidden ⊢
    cases hcall : d.calls[d.reader.delivered]? with
    | none =>
      rw [hcall] at hhidden
      exact h.clear hhidden
    | some call =>
      rw [hcall] at hhidden
      have hclear : register BusCall.regions [] (d.calls.drop d.reader.refused) = [] := not_not.mp (h.clear hhidden)
      have hmore : d.reader.refused ≤ d.reader.deliver.refused := by
        have hrefused := h.obeys.within.refused
        unfold Reader.deliver
        dsimp only
        split_ifs <;> omega
      unfold Exposed
      rw [not_not]
      dsimp only
      rw [← Nat.add_sub_cancel' hmore, ← List.drop_drop]
      exact register_drop hclear _
  | layer op =>
    unfold step at hhidden ⊢
    dsimp only at hhidden ⊢
    split_ifs at hhidden ⊢
    · exact h.clear hhidden
    · exact h.clear hhidden

omit [FloorRing K] in
theorem covered_new (scene : Scene K) (display : MetaDisplay) (input : AnnotationInput K) (width height : ℤ) :
    Covered (new scene display input width height) := by
  refine ⟨obeys_new scene display input width height, fun _ => ?_⟩
  unfold Exposed
  rw [not_not]
  rfl

/-- A hidden dock leaves no regions behind in any state of a run in which the overview
never opens on regions that are not known to be published. -/
theorem hiddenClear_of_cleared (scene : Scene K) (display : MetaDisplay) (input : AnnotationInput K) (width height : ℤ)
    (ops : List (DesktopOp K))
    (hops : Along step (fun d op => ¬ d.Uncleared op) (new scene display input width height) ops) (k : ℕ) :
    HiddenClear (stateAt step (new scene display input width height) ops k) :=
  hiddenClear_of_covered (hops.invariant_at (P := Covered) (fun _ _ h hop => covered_step h hop)
    (covered_new scene display input width height) k)

/-- The dock is published, and the overview opens after the reply. -/
def publishedRun : List (DesktopOp ℚ) :=
  [.extension .enable, .acquire, .extension .idlePos, .deliver, .deliver, .deliver, .reply 2 true,
    .extension .overviewShowing, .deliver, .deliver]

theorem hiddenClear_of_cleared_published :
    HiddenClear (stateAt step (new .bare .bare .initial 100 100) publishedRun 10) := by
  have hcleared : Along step (fun d op => ¬ d.Uncleared op) (new .bare .bare .initial 100 100) publishedRun := by
    refine ⟨id, id, id, id, id, id, id, fun h => ?_, id, id, trivial⟩
    have hpublished := h.2.2.1
    revert hpublished
    decide +kernel
  exact hiddenClear_of_cleared .bare .bare .initial 100 100 publishedRun hcleared 10

/-- Whatever is under way can be delivered, once the compositor owns its name. -/
theorem settled_of_ready (hobeys : Obeys d) (hready : d.reader.ready = true) :
    ∃ n, (run step d (List.replicate n .deliver)).Settled ∧ Obeys (run step d (List.replicate n .deliver)) ∧
      (run step d (List.replicate n .deliver)).extension = d.extension ∧
      (run step d (List.replicate n .deliver)).reader.refused = d.reader.refused := by
  obtain ⟨rest, hrest⟩ : ∃ rest, d.calls.length = d.reader.delivered + rest :=
    ⟨_, (Nat.add_sub_cancel' hobeys.within.delivered).symm⟩
  induction rest generalizing d with
  | zero => exact ⟨0, hrest.symm, hobeys, rfl, rfl⟩
  | succ rest ih =>
    obtain ⟨call, hget⟩ : ∃ call, d.calls[d.reader.delivered]? = some call :=
      ⟨_, List.getElem?_eq_getElem (by omega)⟩
    have hdeliver : (d.step .deliver).extension = d.extension ∧ (d.step .deliver).reader = d.reader.deliver := by
      simp [step, deliver, hget]
    have hready' : (d.step .deliver).reader.ready = true := by
      rw [hdeliver.2]
      exact hready
    have hrest' : (d.step .deliver).calls.length = (d.step .deliver).reader.delivered + rest := by
      rw [calls, hdeliver.1, hdeliver.2, hrest]
      change _ = d.reader.delivered + 1 + rest
      omega
    obtain ⟨n, hsettled, hobeys', hextension, hrefused⟩ := ih (obeys_step hobeys .deliver) hready' hrest'
    refine ⟨n + 1, hsettled, hobeys', hextension.trans hdeliver.1, hrefused.trans ?_⟩
    rw [hdeliver.2, Reader.deliver, if_pos hready]

/-- The condition is exact: an overview that opens on unknown regions leaves them behind. -/
theorem not_hiddenClear_of_uncleared (hobeys : Obeys d) (hop : d.Uncleared op) :
    ∃ n, ¬ HiddenClear (run step (d.step op) (.acquire :: List.replicate n .deliver)) := by
  cases op with
  | extension event =>
    cases event with
    | overviewShowing =>
      obtain ⟨hconnected, hdock, hpublished, hexposed⟩ := hop
      have hle : d.reader.refused ≤ d.calls.length := hobeys.within.refused.trans hobeys.within.delivered
      have hshowing : d.extension.onOverviewShowing =
          ((d.extension.setOverviewVisible true).showDock false).setPaused true := by
        unfold onOverviewShowing clearChromeRegions
        simp [setOverviewVisible, showDock, hconnected, hdock, hpublished]
      have hhidden : d.extension.onOverviewShowing.dock = some ⟨false⟩ := by
        rw [hshowing]
        change d.extension.dock.map _ = _
        rw [hdock]
        rfl
      have hcalls : d.extension.onOverviewShowing.calls =
          d.calls ++ [⟨.setPaused true, .setPaused (d.extension.setPausedEpoch + 1) true⟩] := by
        rw [hshowing]
        rfl
      have hobeys' : Obeys ((d.step (.extension .overviewShowing)).step .acquire) :=
        obeys_step (obeys_step hobeys _) _
      obtain ⟨n, hsettled, hobeys'', hextension, hrefused⟩ := settled_of_ready hobeys' rfl
      refine ⟨n, fun hclear => hexposed ?_⟩
      have hregions := congrArg Remote.regions (hobeys''.settled hsettled)
      rw [calls, hextension, hrefused] at hregions
      have hdocked := (congrArg AnnotationExtension.dock hextension).trans hhidden
      have hnone := hregions.symm.trans (hclear ⟨false⟩ hdocked rfl hsettled)
      change register BusCall.regions [] (d.extension.onOverviewShowing.calls.drop d.reader.refused) = [] at hnone
      rw [hcalls, List.drop_append_of_le_length hle, register_concat] at hnone
      exact hnone
    | _ => cases hop
  | _ => cases hop

/-- The overview opens before the reply. -/
def unpublishedRun : List (DesktopOp ℚ) :=
  [.extension .enable, .acquire, .extension .idlePos, .extension .overviewShowing, .deliver, .deliver, .deliver, .deliver]

theorem not_hiddenClear_unpublished : ¬ HiddenClear (run step (new .bare .bare .initial 100 100) unpublishedRun) := by
  intro h
  have hlength := congrArg List.length (h ⟨false⟩ rfl rfl rfl)
  revert hlength
  decide +kernel

end Desktop

end Annotations
