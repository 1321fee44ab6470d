import Annotations.Dock.Contacts

/-! The activation protocol of the dock. A signal that ends an activation is paired
with the press of the same contact that began it, as long as only the contact that
pressed a region is released in it. -/

namespace Annotations

open Runs

variable {K : Type} [Scalar K]

/-- The kind of signal a contact presses with. -/
def Contact.pressKind : Contact → RegionKind
  | .tip .. => .press
  | .touch _ => .touchBegin

/-- The kind of signal a contact releases with. -/
def Contact.releaseKind : Contact → RegionKind
  | .tip .. => .release
  | .touch _ => .touchEnd

namespace MetaAnnotationLayer

variable {layer start : MetaAnnotationLayer K} {ops : List (Op K)} {event : ClutterEvent K}
  {nowUs : ℤ} {contact : Contact} {id : String} {j k : ℕ}

/-- The signal that operation `k` of a run emits. -/
def signalAt (start : MetaAnnotationLayer K) (ops : List (Op K)) (k : ℕ) : Option RegionActivated :=
  ops[k]?.bind (stateAt opStep start ops k).opSignal

/-- Operation `j` is the press of the contact in the region `id`, which it signals, and
the contact has not ended before operation `k`. -/
structure Opened (start : MetaAnnotationLayer K) (ops : List (Op K)) (contact : Contact)
    (id : String) (j k : ℕ) : Prop where
  before : j < k
  press : ∃ event nowUs, ops[j]? = some (.route event nowUs) ∧ event.activates ∧ event.contact = contact
  signal : signalAt start ops j = some ⟨id, contact.pressKind⟩
  down : ∀ i, j < i → i < k → ∀ op, ops[i]? = some op → ¬ op.Lifts contact

/-- Operation `k` is the end of the contact that opened the region at `j`. -/
def Closes (start : MetaAnnotationLayer K) (ops : List (Op K)) (contact : Contact) (id : String)
    (j k : ℕ) : Prop :=
  Opened start ops contact id j k ∧ ∃ op, ops[k]? = some op ∧ op.Lifts contact

/-- Every signal of a release or of the end of a touch closes a press, and no press is
closed twice. -/
structure Paired (start : MetaAnnotationLayer K) (ops : List (Op K)) : Prop where
  closes : ∀ k id kind, signalAt start ops k = some ⟨id, kind⟩ → kind = .release ∨ kind = .touchEnd →
    ∃ contact j, kind = contact.releaseKind ∧ Closes start ops contact id j k
  once : ∀ contact contact' id id' j k k', Closes start ops contact id j k →
    Closes start ops contact' id' j k' → k = k'

/-- In a chrome region that is pressed, only the contact that pressed it is released. -/
def ReleasesOwn (p : MetaAnnotationLayer K × Contacts) (op : Op K) : Prop :=
  ∀ event nowUs id, op = .route event nowUs → metaAnnotationEventTargetsOverlay event →
    event.type = .buttonRelease ∨ event.type = .touchEnd → p.1.chromePressId = some id →
    p.1.pickChromeRegion event.x event.y = some id → event.lifts ∧ p.2.owner = some event.contact

/-- The contact that pressed a region has not ended since. -/
def OwnerOpened (start : MetaAnnotationLayer K) (ops : List (Op K)) (k : ℕ)
    (p : MetaAnnotationLayer K × Contacts) : Prop :=
  p.1.active ∧ ∀ id, p.1.chromePressId = some id → ∃ contact j, p.2.owner = some contact ∧
    contact.Pressed K ∧ Opened start ops contact id j k

/-- An operation that does not end the contact leaves the press open. -/
theorem Opened.succ {op : Op K} (h : Opened start ops contact id j k)
    (hget : ops[k]? = some op) (hop : ¬ op.Lifts contact) : Opened start ops contact id j (k + 1) := by
  refine ⟨by have := h.before; omega, h.press, h.signal, fun i hji hik op' hget' => ?_⟩
  rcases Nat.lt_succ_iff_lt_or_eq.mp hik with hlt | rfl
  · exact h.down i hji hlt op' hget'
  · obtain rfl : op = op' := Option.some.inj (hget.symm.trans hget')
    exact hop

/-- An event that lands in a region opens it. -/
theorem opened_of_lands (hget : ops[k]? = some (.route event nowUs))
    (hlands : (stateAt opStep start ops k).lands event = some id) :
    Opened start ops event.contact id k (k + 1) := by
  have hactivates := (lands_eq_some hlands).2.1
  refine ⟨by omega, ⟨event, nowUs, hget, hactivates, rfl⟩, ?_, fun i hi hi' => by omega⟩
  rw [signalAt, hget, Option.bind_some]
  cases (stateAt opStep start ops k).routing event nowUs with
  | landed id' hid hrouted =>
    obtain rfl : id' = id := Option.some.inj (hid.symm.trans hlands)
    rw [opSignal_route hrouted]
    rcases ClutterEvent.activates_iff.mp hactivates with ⟨hpress, _⟩ | hbegin
    · simp [Contact.pressKind, ClutterEvent.contact, hpress]
    · simp [Contact.pressKind, ClutterEvent.contact, hbegin]
  | ignored hroutes => simp [(lands_eq_some hlands).1] at hroutes
  | ended _ _ hnone => simp [hlands] at hnone
  | swallowed _ _ hnone => simp [hlands] at hnone
  | handled _ hnone => simp [hlands] at hnone

theorem active_call {c : Call K} (hactive : layer.active) (hc : c ≠ .setActive false) :
    (layer.opStep (.call c)).active := by
  have hdock : (layer.opStep (.call c)).active = (layer.dock.call c).active :=
    congrArg Dock.active (dock_opStep_call c)
  rw [hdock]
  cases c with
  | setActive active =>
    cases active with
    | true => rfl
    | false => exact absurd rfl hc
  | _ => exact hactive

/-- One step keeps the press of the owner open. -/
theorem ownerOpened_step {op : Op K} {contacts : Contacts} (hget : ops[k]? = some op)
    (hop : op ≠ .call (.setActive false))
    (h : OwnerOpened start ops k (stateAt opStep start ops k, contacts)) :
    OwnerOpened start ops (k + 1)
      (watch opStep Contacts.see (stateAt opStep start ops k, contacts) op) := by
  generalize hlayer : stateAt opStep start ops k = layer at h ⊢
  obtain ⟨hactive, hopened⟩ := h
  dsimp only at hactive hopened
  cases op with
  | call c =>
    refine ⟨active_call hactive fun hc => hop (by rw [hc]), fun id hid => ?_⟩
    obtain ⟨contact, j, howner, hpressed, h⟩ := hopened id (chromePressId_call hid)
    exact ⟨contact, j, howner, hpressed, h.succ hget not_false⟩
  | route event nowUs =>
    refine ⟨active_route.trans hactive, fun id hid => ?_⟩
    dsimp only [watch] at hid ⊢
    cases hlands : layer.lands event with
    | some id' =>
      rw [opStep_of_lands hlands] at hid
      obtain rfl : id' = id := Option.some.inj hid
      refine ⟨event.contact, k, by simp [Contacts.see, hlands], pressed_of_lands hlands, ?_⟩
      exact opened_of_lands hget (hlayer ▸ hlands)
    | none =>
      obtain ⟨contact, j, howner, hpressed, h⟩ := hopened id (chromePressId_route hlands hid)
      refine ⟨contact, j, by simp [Contacts.see, hlands, howner], hpressed, h.succ hget ?_⟩
      exact not_lifts_of_pressed hactive hpressed (by simp [hid]) hlands

/-- A signal that ends an activation comes from an end that lands in the region pressed. -/
theorem opSignal_ends {op : Op K} {kind : RegionKind} (h : layer.opSignal op = some ⟨id, kind⟩)
    (hkind : kind = .release ∨ kind = .touchEnd) :
    ∃ event nowUs, op = .route event nowUs ∧ metaAnnotationEventTargetsOverlay event ∧
      layer.chromePressId = some id ∧ layer.pickChromeRegion event.x event.y = some id ∧
      (event.type = .buttonRelease ∨ event.type = .touchEnd) ∧ kind = event.contact.releaseKind := by
  cases op with
  | call c => cases h
  | route event nowUs =>
    refine ⟨event, nowUs, rfl, ?_⟩
    cases layer.routing event nowUs with
    | ignored _ hrouted => rw [opSignal_route hrouted] at h; cases h
    | landed id' _ hrouted =>
      rw [opSignal_route hrouted] at h
      have hkind' := congrArg RegionActivated.kind (Option.some.inj h)
      rcases hkind with rfl | rfl <;> revert hkind' <;> dsimp only <;> split_ifs <;> exact nofun
    | ended pressed hroutes _ hpressed hterminates hrouted =>
      rw [opSignal_route hrouted] at h
      obtain ⟨hpick, htype, hsignal⟩ := releaseSignal_eq_some h
      obtain ⟨rfl, rfl⟩ := RegionActivated.mk.inj hsignal
      refine ⟨(Bool.and_eq_true _ _ ▸ hroutes).2, hpressed, hpick, ?_⟩
      simp only [ClutterEvent.terminates, Bool.or_eq_true, decide_eq_true_eq, htype, or_false]
        at hterminates
      refine ⟨hterminates, ?_⟩
      rcases hterminates with hrelease | hend
      · simp [hrelease, ClutterEvent.contact, Contact.releaseKind]
      · simp [hend, ClutterEvent.contact, Contact.releaseKind]
    | swallowed _ _ _ _ _ hrouted => rw [opSignal_route hrouted] at h; cases h
    | handled _ _ _ hrouted => rw [opSignal_route hrouted] at h; cases h

/-- Every signal that ends an activation is paired with the press that began it, in every
run on an active layer in which only the contact that pressed a region is released in it. -/
theorem paired_of_releasesOwn (start : MetaAnnotationLayer K) (ops : List (Op K))
    (hactive : start.active) (hnone : start.chromePressId = none)
    (hstay : ∀ op ∈ ops, op ≠ .call (.setActive false))
    (hops : Along (watch opStep Contacts.see) ReleasesOwn (start, Contacts.none) ops) :
    Paired start ops := by
  have hopened : ∀ k ≤ ops.length, OwnerOpened start ops k
      (stateAt (watch opStep Contacts.see) (start, Contacts.none) ops k) := by
    intro k hk
    refine stateAt_invariant (P := OwnerOpened start ops) ⟨hactive, fun id hid => ?_⟩
      (fun k op hget h => ?_) hk
    · simp [hnone] at hid
    · have hlayer : (stateAt (watch opStep Contacts.see) (start, Contacts.none) ops k).1 =
          stateAt opStep start ops k := stateAt_watch_fst _
      generalize stateAt (watch opStep Contacts.see) _ ops k = p at h hlayer ⊢
      obtain ⟨layer, contacts⟩ := p
      obtain rfl : layer = stateAt opStep start ops k := hlayer
      exact ownerOpened_step hget (hstay op (List.mem_of_getElem? hget)) h
  refine ⟨fun k id kind hsignal hkind => ?_, fun contact contact' id id' j k k' h h' => ?_⟩
  · obtain ⟨op, hget, hop⟩ := Option.bind_eq_some_iff.mp hsignal
    obtain ⟨event, nowUs, rfl, htargets, hpressed, hpick, htype, rfl⟩ := opSignal_ends hop hkind
    have hown := hops.get hget
    have hinv := hopened k (List.getElem?_eq_some_iff.mp hget).1.le
    have hlayer : (stateAt (watch opStep Contacts.see) (start, Contacts.none) ops k).1 =
        stateAt opStep start ops k := stateAt_watch_fst _
    generalize stateAt (watch opStep Contacts.see) _ ops k = p at hown hinv hlayer
    rw [← hlayer] at hpressed hpick
    obtain ⟨hlifts, howner⟩ := hown event nowUs id rfl htargets htype hpressed hpick
    obtain ⟨contact, j, howner', _, h⟩ := hinv.2 id hpressed
    obtain rfl : event.contact = contact := Option.some.inj (howner.symm.trans howner')
    exact ⟨event.contact, j, rfl, h, _, hget, hlifts, rfl⟩
  · obtain ⟨hopen, op, hget, hop⟩ := h
    obtain ⟨hopen', op', hget', hop'⟩ := h'
    obtain ⟨event, _, hpress, _, rfl⟩ := hopen.press
    obtain ⟨event', _, hpress', _, rfl⟩ := hopen'.press
    obtain rfl : event = event' := (Op.route.inj (Option.some.inj (hpress.symm.trans hpress'))).1
    rcases Nat.lt_trichotomy k k' with hlt | rfl | hlt
    · exact absurd hop (hopen'.down k hopen.before hlt op hget)
    · rfl
    · exact absurd hop' (hopen.down k' hopen'.before hlt op' hget')

/-- A dock press, and the release of the tip on it. -/
theorem paired_of_releasesOwn_docked :
    Paired docked [.route (.pen .buttonPress 1 1 1 true) 0,
      .route (.pen .buttonRelease 1 1 1 false) 1] := by
  refine paired_of_releasesOwn docked _ (by decide +kernel) (by decide +kernel) (by simp)
    ⟨fun event nowUs id hevent _ htype => ?_, fun event nowUs id hevent _ _ _ _ => ?_, trivial⟩
  · cases hevent
    simp [ClutterEvent.pen] at htype
  · cases hevent
    exact ⟨by decide, by decide +kernel⟩

/-- A barrel button released in the region that the tip holds pressed. -/
theorem not_paired_barrel :
    ¬ Paired docked [.route (.pen .buttonPress 1 1 1 true) 0,
      .route (.pen .buttonPress 1 1 2 true) 1, .route (.pen .buttonRelease 1 1 2 true) 2] := by
  intro h
  obtain ⟨contact, j, _, _, op, hget, hlifts⟩ := h.closes 2 "dock" .release (by decide +kernel) (.inl rfl)
  obtain rfl : Op.route (.pen .buttonRelease 1 1 2 true) 2 = op := Option.some.inj hget
  exact absurd hlifts.1 (by decide)

end MetaAnnotationLayer

end Annotations
