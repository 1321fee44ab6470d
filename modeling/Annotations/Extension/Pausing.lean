import Annotations.Extension.Desktop
import Annotations.Runs.Basic

/-! Who pauses the compositor. Every `SetPaused` is either a request, of `_setPaused` or of
`disable`, or the retry of one that failed. A retry repeats the latest request, unless a
failure from before the extension was last enabled passes for one of the present. -/

namespace Annotations

open Runs

variable {K : Type}

namespace BusCall

variable (call : BusCall K)

/-- The value that the call asks for, if it is no retry. -/
def request : Option Bool :=
  match call.handler with
  | .warn => none
  | _ => call.paused

/-- The call is the one of `disable`. -/
def Disables : Prop := call.paused.isSome ∧ call.handler = .null

end BusCall

/-- The value that was requested last. -/
def requested (calls : List (BusCall K)) : Option Bool := register (fun call => call.request.map some) none calls

/-- Every `SetPaused` carries the value that was requested last when it was sent. -/
def Honest (calls : List (BusCall K)) : Prop :=
  ∀ i call paused, calls[i]? = some call → call.paused = some paused → requested (calls.take (i + 1)) = some paused

/-- The call was made before the extension was last disabled. -/
def Old (calls : List (BusCall K)) (i : ℕ) : Prop := ∃ j > i, ∃ call, calls[j]? = some call ∧ call.Disables

variable {calls post : List (BusCall K)} {call : BusCall K} {i : ℕ}

theorem requested_append (h : ∀ call ∈ post, call.Unpaused) : requested (calls ++ post) = requested calls := by
  refine register_append fun call hcall => ?_
  have hnone : call.request = none := by
    unfold BusCall.request
    rw [(h call hcall).1]
    split <;> rfl
  rw [hnone, Option.map_none]

theorem requested_concat : requested (calls ++ [call]) = (call.request.map some).getD (requested calls) :=
  register_concat

theorem getElem?_append_cases {α : Type} {xs ys : List α} {x : α} {i : ℕ} (h : (xs ++ ys)[i]? = some x) :
    xs[i]? = some x ∨ xs.length ≤ i ∧ x ∈ ys := by
  rw [List.getElem?_append] at h
  split_ifs at h with hi
  · exact .inl h
  · exact .inr ⟨by omega, List.mem_of_getElem? h⟩

theorem honest_append (h : Honest calls) (hpost : ∀ call ∈ post, call.Unpaused) : Honest (calls ++ post) := by
  intro i call paused hget hpaused
  rcases getElem?_append_cases hget with hget' | ⟨_, hmem⟩
  · have hi : i < calls.length := (List.getElem?_eq_some_iff.mp hget').1
    rw [List.take_append_of_le_length (by omega)]
    exact h i call paused hget' hpaused
  · cases (hpost call hmem).1.symm.trans hpaused

theorem honest_concat (h : Honest calls) (hcall : ∀ paused, call.paused = some paused →
    requested (calls ++ [call]) = some paused) : Honest (calls ++ [call]) := by
  intro i call' paused hget hpaused
  rcases getElem?_append_cases hget with hget' | ⟨hi, hmem⟩
  · have hi : i < calls.length := (List.getElem?_eq_some_iff.mp hget').1
    rw [List.take_append_of_le_length (by omega)]
    exact h i call' paused hget' hpaused
  · obtain rfl := List.mem_singleton.mp hmem
    rw [List.take_of_length_le (by rw [List.length_append, List.length_singleton]; omega)]
    exact hcall paused hpaused

theorem Old.append (h : Old calls i) : Old (calls ++ post) i := by
  obtain ⟨j, hj, call, hget, hdisables⟩ := h
  have hlt : j < calls.length := (List.getElem?_eq_some_iff.mp hget).1
  exact ⟨j, hj, call, by rw [List.getElem?_append_left hlt, hget], hdisables⟩

namespace AnnotationExtension

variable {ext ext' : AnnotationExtension K}

/-! ### The requests -/

/-- The requests are in order: every `SetPaused` is honest, a call of the present has an
epoch of the present, and so the value of the latest request if that epoch is the current
one, and a pending retry has that value. -/
structure Intent (ext : AnnotationExtension K) : Prop where
  honest : Honest ext.calls
  present : ∀ i call epoch paused, ext.calls[i]? = some call → call.handler = .setPaused epoch paused →
    ¬ Old ext.calls i → ext.dock.isSome ∧ epoch ≤ ext.setPausedEpoch ∧
      (epoch = ext.setPausedEpoch → requested ext.calls = some paused)
  retry : ∀ epoch paused, ext.setPausedRetryId = some (epoch, paused) → requested ext.calls = some paused

/-- Calls that request nothing, and are honest. -/
theorem Intent.append (h : Intent ext) {post : List (BusCall K)} (hcalls : ext'.calls = ext.calls ++ post)
    (hhonest : Honest ext'.calls) (hrequested : requested ext'.calls = requested ext.calls)
    (hpost : ∀ call ∈ post, ∀ epoch paused, call.handler ≠ .setPaused epoch paused)
    (hdock : ext.dock.isSome → ext'.dock.isSome) (hepoch : ext'.setPausedEpoch = ext.setPausedEpoch)
    (hretry : ext'.setPausedRetryId = ext.setPausedRetryId ∨ ext'.setPausedRetryId = none) : Intent ext' where
  honest := hhonest
  present i call epoch paused hget hhandler hold := by
    rw [hcalls] at hget hold
    rcases getElem?_append_cases hget with hget | ⟨_, hmem⟩
    · obtain ⟨hsome, hle, hcurrent⟩ := h.present i call epoch paused hget hhandler fun hold' => hold hold'.append
      rw [hrequested, hepoch]
      exact ⟨hdock hsome, hle, hcurrent⟩
    · exact absurd hhandler (hpost call hmem epoch paused)
  retry epoch paused hpending := by
    rw [hrequested]
    rcases hretry with hretry | hretry
    · exact h.retry epoch paused (hretry ▸ hpending)
    · cases hretry.symm.trans hpending

theorem Intent.of_minor (h : Intent ext) (hminor : Minor ext ext') : Intent ext' := by
  obtain ⟨post, hcalls, hpost⟩ := hminor.sends
  refine h.append hcalls (hcalls ▸ honest_append h.honest hpost) (hcalls ▸ requested_append hpost)
    (fun call hcall => (hpost call hcall).2) (fun hdock => ?_) hminor.epoch (.inl hminor.retry)
  rw [hminor.dock, hdock]

/-- A new request supersedes all others. -/
theorem intent_setPaused (h : Intent ext) (hdock : ext.dock.isSome) (paused : Bool) : Intent (ext.setPaused paused) := by
  have hrequested : requested (ext.setPaused paused).calls = some paused := requested_concat
  refine ⟨honest_concat h.honest fun v hv => hrequested.trans hv, fun i call epoch v hget hhandler hold => ?_, nofun⟩
  refine ⟨hdock, ?_⟩
  rw [hrequested]
  have hget' : (ext.calls ++ [⟨.setPaused paused, .setPaused (ext.setPausedEpoch + 1) paused⟩])[i]? = some call := hget
  rcases getElem?_append_cases hget' with hget' | ⟨_, hmem⟩
  · obtain ⟨_, hle, _⟩ := h.present i call epoch v hget' hhandler fun hold' => hold hold'.append
    have hlt : epoch < (ext.setPaused paused).setPausedEpoch := Nat.lt_succ_of_le hle
    exact ⟨hlt.le, fun heq => absurd heq hlt.ne⟩
  · obtain rfl := List.mem_singleton.mp hmem
    obtain ⟨rfl, rfl⟩ := ReplyHandler.setPaused.inj hhandler
    exact ⟨le_rfl, fun _ => rfl⟩

theorem intent_onSetPausedRetry (h : Intent ext) : Intent ext.onSetPausedRetry := by
  unfold onSetPausedRetry
  cases hretry : ext.setPausedRetryId with
  | none => exact h
  | some pending =>
    obtain ⟨epoch, paused⟩ := pending
    have hcleared : Intent { ext with setPausedRetryId := none } := ⟨h.honest, h.present, nofun⟩
    dsimp only
    split_ifs
    · exact hcleared
    · exact hcleared
    · have hrequested : requested (ext.calls ++ [⟨.setPaused paused, .warn⟩]) = requested ext.calls := requested_concat
      refine h.append rfl (honest_concat h.honest fun v hv => ?_) hrequested ?_ id rfl (.inr rfl)
      · rw [hrequested, h.retry epoch paused hretry]
        exact hv
      · intro call hcall
        obtain rfl := List.mem_singleton.mp hcall
        exact nofun

/-- After `disable`, all calls are old. -/
theorem intent_disable (h : Intent ext) : Intent ext.disable := by
  have hcalls : ext.disable.calls =
      ((ext.calls ++ [⟨.clearChromeRegions, .null⟩]) ++ [⟨.setPaused false, .null⟩]) ++ [⟨.setActive false, .null⟩] := rfl
  have hclear : Honest (ext.calls ++ [⟨.clearChromeRegions, .null⟩]) := by
    refine honest_append h.honest fun call hcall => ?_
    obtain rfl := List.mem_singleton.mp hcall
    exact ⟨rfl, nofun⟩
  have hpause : Honest ((ext.calls ++ [⟨.clearChromeRegions, .null⟩]) ++ [⟨.setPaused false, .null⟩]) :=
    honest_concat hclear fun v hv => requested_concat.trans hv
  refine ⟨?_, fun i call epoch paused hget hhandler hold => absurd ?_ hold, nofun⟩
  · rw [hcalls]
    refine honest_append hpause fun call hcall => ?_
    obtain rfl := List.mem_singleton.mp hcall
    exact ⟨rfl, nofun⟩
  · have hlt : i < ext.calls.length := by
      by_contra hge
      rw [hcalls, List.append_assoc, List.append_assoc] at hget
      rcases getElem?_append_cases hget with hget | ⟨_, hmem⟩
      · exact hge (List.getElem?_eq_some_iff.mp hget).1
      · simp only [List.singleton_append, List.mem_cons, List.not_mem_nil, or_false] at hmem
        rcases hmem with rfl | rfl | rfl <;> cases hhandler
    refine ⟨ext.calls.length + 1, by omega, ⟨.setPaused false, .null⟩, ?_, rfl, rfl⟩
    rw [hcalls, List.append_assoc, List.append_assoc, List.getElem?_append_right (by omega)]
    simp

theorem intent_new (scene : Scene K) : Intent (new scene) := by
  have hnone : ∀ i, (new scene).calls[i]? = none := fun i => List.getElem?_nil
  refine ⟨fun i call paused hget => ?_, fun i call epoch paused hget => ?_, fun epoch paused hpending => ?_⟩
  · cases (hnone i).symm.trans hget
  · cases (hnone i).symm.trans hget
  · cases hpending

theorem intent_showDock (h : Intent ext) (visible : Bool) : Intent (ext.showDock visible) where
  honest := h.honest
  present i call epoch paused hget hhandler hold := by
    rw [showDock, Option.isSome_map]
    exact h.present i call epoch paused hget hhandler hold
  retry := h.retry

theorem isSome_of_connected {connected : Bool} (h : ¬ (!connected || ext.dock.isNone) = true) : ext.dock.isSome := by
  cases hdock : ext.dock with
  | none => simp [hdock] at h
  | some dock => rfl

variable [Scalar K]

theorem intent_enable (h : Intent ext) : Intent ext.enable := by
  unfold enable
  split_ifs with hdock
  · exact h
  · have hreset : Intent ext.resetFields := by
      refine ⟨h.honest, fun i call epoch paused hget hhandler hold => ?_, nofun⟩
      exact absurd (h.present i call epoch paused hget hhandler hold).1 hdock
    have hpaused := intent_setPaused hreset rfl ext.scene.overviewVisible
    have hconnected : Intent (ext.resetFields.setPaused ext.scene.overviewVisible).connect :=
      hpaused.of_minor (minor_of_same rfl rfl rfl rfl)
    exact hconnected.of_minor minor_startAnnotationActivation

variable [FloorRing K]

theorem intent_handle (h : Intent ext) (event : ExtensionEvent K) : Intent (ext.handle event) := by
  have hoverview : ∀ visible, Intent (ext.setOverviewVisible visible) := fun visible => ⟨h.honest, h.present, h.retry⟩
  cases event with
  | enable => exact intent_enable h
  | disable => exact intent_disable h
  | setPausedRetry => exact intent_onSetPausedRetry h
  | overviewShowing =>
    change Intent ext.onOverviewShowing
    unfold onOverviewShowing
    dsimp only
    split_ifs with hgone
    · exact hoverview true
    · have hcleared := (intent_showDock (hoverview true) false).of_minor minor_clearChromeRegions
      refine intent_setPaused hcleared ?_ true
      rw [minor_clearChromeRegions.dock, showDock, Option.isSome_map]
      exact isSome_of_connected hgone
  | overviewHidden =>
    change Intent ext.onOverviewHidden
    unfold onOverviewHidden
    dsimp only
    split_ifs with hgone
    · exact hoverview false
    · have hpositioned := (intent_showDock (hoverview false) true).of_minor minor_positionDock
      refine intent_setPaused hpositioned ?_ false
      rw [minor_positionDock.dock, showDock, Option.isSome_map]
      exact isSome_of_connected hgone
  | _ => exact h.of_minor (minor_handle rfl)

end AnnotationExtension

/-! ### Runs -/

namespace Desktop

open AnnotationExtension

variable [Scalar K] [FloorRing K]

/-- Every `SetPaused` carries the value that was requested last when it was sent, and a
pending retry has the value that was requested last. -/
def PauseFaithful (d : Desktop K) : Prop :=
  Honest d.calls ∧ ∀ epoch paused, d.extension.setPausedRetryId = some (epoch, paused) → requested d.calls = some paused

/-- A failure arrives while the extension is enabled, of a request that was made before it
was last disabled, for another value than the latest one, in an epoch that the present has
reached again. -/
def Contradicts (d : Desktop K) : DesktopOp K → Prop
  | .reply i ok => ∃ call epoch paused, d.calls[i]? = some call ∧ call.handler = .setPaused epoch paused ∧
      d.replied i = false ∧ (ok && d.arrived i) = false ∧ d.extension.dock.isSome ∧
      Old d.calls i ∧ epoch = d.extension.setPausedEpoch ∧ requested d.calls ≠ some paused
  | _ => False

variable {d : Desktop K} {op : DesktopOp K}

/-- A failed request of the present, or one that asked for the same, may be retried. -/
theorem intent_reply (h : Intent d.extension) {i : ℕ} {ok : Bool} (hop : ¬ d.Contradicts (.reply i ok)) :
    Intent (d.reply i ok).extension := by
  unfold reply
  cases hcall : d.calls[i]? with
  | none => exact h
  | some call =>
    dsimp only
    split_ifs with hreplied
    · exact h
    · by_cases hpause : ∃ epoch paused, call.handler = .setPaused epoch paused ∧ (ok && d.arrived i) = false
      · obtain ⟨epoch, paused, hhandler, hfail⟩ := hpause
        dsimp only
        rw [hhandler, hfail]
        unfold onReply
        dsimp only
        rw [if_neg Bool.false_ne_true]
        split_ifs with hdock hepoch
        · exact h
        · exact h
        · refine ⟨h.honest, h.present, fun epoch' paused' hpending => ?_⟩
          obtain ⟨rfl, rfl⟩ := Prod.mk.inj (Option.some.inj hpending)
          have hepoch : epoch = d.extension.setPausedEpoch := not_not.mp hepoch
          have hdock : d.extension.dock.isSome := by simpa [Option.isSome_iff_ne_none] using hdock
          by_contra hother
          by_cases hold : Old d.calls i
          · exact hop ⟨call, epoch, paused, hcall, hhandler, by simpa using hreplied, hfail, hdock, hold, hepoch, hother⟩
          · exact hother ((h.present i call epoch paused hcall hhandler hold).2.2 hepoch)
      · refine h.of_minor (minor_onReply fun epoch paused hhandler => ?_)
        by_contra hfail
        exact hpause ⟨epoch, paused, hhandler, by simpa using hfail⟩

theorem intent_step (h : Intent d.extension) (hop : ¬ d.Contradicts op) : Intent (d.step op).extension := by
  cases op with
  | extension event => exact intent_handle h event
  | reply i ok => exact intent_reply h hop
  | acquire => exact h
  | deliver =>
    change Intent d.deliver.extension
    unfold deliver
    split
    · exact h
    · exact h
  | layer op =>
    unfold step
    dsimp only
    split_ifs
    · exact h
    · exact h

/-- A contradicting failure schedules a retry with the wrong value. -/
theorem not_pauseFaithful_step (hop : d.Contradicts op) : ¬ PauseFaithful (d.step op) := by
  cases op with
  | reply i ok =>
    obtain ⟨call, epoch, paused, hcall, hhandler, hreplied, hfail, hdock, _, hepoch, hother⟩ := hop
    have hdock' : d.extension.dock.isNone = false := by simpa [Option.isNone_eq_false_iff] using hdock
    have hstep : d.step (.reply i ok) = { d with
        replied := Function.update d.replied i true
        extension := { d.extension with setPausedRetryId := some (epoch, paused) } } := by
      simp [step, reply, hcall, hreplied, hfail, hhandler, onReply, hdock', hepoch]
    rintro ⟨_, hretry⟩
    rw [hstep] at hretry
    exact hother (hretry epoch paused rfl)
  | _ => cases hop

/-- Exactly when no failure of the past contradicts the present do all `SetPaused` calls,
and all pending retries, have the value that was requested last. -/
theorem pauseFaithful_iff (scene : Scene K) (display : MetaDisplay) (input : AnnotationInput K) (width height : ℤ)
    (ops : List (DesktopOp K)) :
    (∀ k ≤ ops.length, PauseFaithful (stateAt step (new scene display input width height) ops k)) ↔
      Along step (fun d op => ¬ d.Contradicts op) (new scene display input width height) ops := by
  constructor
  · intro h
    refine Along.of_get fun k op hget hop => not_pauseFaithful_step hop ?_
    have hnext := h (k + 1) (List.getElem?_eq_some_iff.mp hget).1
    rwa [stateAt_succ hget] at hnext
  · intro hops k _
    have hintent : Intent (stateAt step (new scene display input width height) ops k).extension :=
      hops.invariant_at (P := fun d : Desktop K => Intent d.extension) (fun _ _ h hop => intent_step h hop)
        (intent_new scene) k
    exact ⟨hintent.honest, hintent.retry⟩

/-- The overview is open when the extension is enabled, and the compositor does not own its
name yet. The extension is disabled, the overview closed, and the extension enabled
again; then the failure of the first request arrives. -/
def staleFailure : List (DesktopOp ℚ) :=
  [.extension .overviewShowing, .extension .enable, .deliver, .extension .disable, .extension .overviewHidden,
    .extension .enable, .reply 0 false, .extension .setPausedRetry]

/-- The retry pauses the compositor, with the overview closed. -/
theorem not_pauseFaithful_staleFailure :
    ¬ PauseFaithful (run step (new .bare .bare .initial 100 100) staleFailure) := by
  rintro ⟨hhonest, _⟩
  have hretried := hhonest 7 ⟨.setPaused true, .warn⟩ true rfl rfl
  revert hretried
  decide +kernel

end Desktop

end Annotations
