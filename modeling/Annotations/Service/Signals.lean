import Annotations.Service.Refinement

/-! The signals of the dock. They name regions that the extension has published, and each release
comes straight after a press of the same region, so no press is released twice and none is made up. -/

namespace Annotations

open Runs AnnotationExtension

variable {K : Type} [Scalar K]

/-- The signal ends a press. -/
def RegionKind.ends : RegionKind → Bool
  | .press | .touchBegin => false
  | .release | .touchEnd => true

namespace MetaAnnotationLayer

variable {layer : MetaAnnotationLayer K}

/-! ### One operation -/

/-- What an operation signals, and what it does to the press. -/
inductive Signalling (layer : MetaAnnotationLayer K) (op : Op K) : Prop
  | silent (hsignal : layer.opSignal op = none)
    (hpress : ∀ id, (layer.opStep op).chromePressId = some id → layer.chromePressId = some id)
  | begins (signal : RegionActivated) (hsignal : layer.opSignal op = some signal) (hkind : signal.kind.ends = false)
    (hregion : ∃ region ∈ layer.chromeRegions, region.id = signal.id)
    (hpress : (layer.opStep op).chromePressId = some signal.id)
  | ends (signal : RegionActivated) (hsignal : layer.opSignal op = some signal) (hkind : signal.kind.ends = true)
    (hpressed : layer.chromePressId = some signal.id) (hpress : (layer.opStep op).chromePressId = none)

theorem exists_of_pickChromeRegion {x y : K} {id : String} (h : layer.pickChromeRegion x y = some id) :
    ∃ region ∈ layer.chromeRegions, region.id = id := by
  obtain ⟨region, hfind, rfl⟩ := Option.map_eq_some_iff.mp h
  exact ⟨region, List.mem_reverse.mp (List.mem_of_find?_eq_some hfind), rfl⟩

theorem signalling (layer : MetaAnnotationLayer K) (op : Op K) : layer.Signalling op := by
  cases op with
  | call c => exact .silent rfl fun id hid => chromePressId_call hid
  | route event nowUs =>
    cases layer.routing event nowUs with
    | ignored _ hrouted =>
      exact .silent (opSignal_route hrouted) fun id hid => by rwa [opStep_route hrouted] at hid
    | swallowed _ _ _ _ _ hrouted =>
      exact .silent (opSignal_route hrouted) fun id hid => by rwa [opStep_route hrouted] at hid
    | handled _ hlands _ hrouted =>
      exact .silent (opSignal_route hrouted) fun id hid => chromePressId_route hlands hid
    | landed id hlands hrouted =>
      refine .begins _ (opSignal_route hrouted) ?_ (exists_of_pickChromeRegion (lands_eq_some hlands).2.2) ?_
      · dsimp only
        split_ifs <;> rfl
      · rw [opStep_route hrouted]
        rfl
    | ended pressed _ _ hpressed _ hrouted =>
      have hcleared : (layer.opStep (.route event nowUs)).chromePressId = none := by rw [opStep_route hrouted]; rfl
      cases hsignal : layer.releaseSignal event pressed with
      | none => exact .silent ((opSignal_route hrouted).trans hsignal) fun id hid => by simp [hcleared] at hid
      | some signal =>
        obtain ⟨-, -, rfl⟩ := releaseSignal_eq_some hsignal
        refine .ends _ ((opSignal_route hrouted).trans hsignal) ?_ hpressed hcleared
        dsimp only
        split_ifs <;> rfl

end MetaAnnotationLayer

namespace Service

/-! ### The signals of a run -/

/-- A release comes straight after a press of its region. -/
def Follows (signal next : RegionActivated) : Prop := next.kind.ends = true → signal.kind.ends = false ∧ signal.id = next.id

/-- A stream of signals that may go on as the press in flight says. -/
structure Orderly (signals : List RegionActivated) (pressed : Option String) : Prop where
  head : ∀ signal ∈ signals.head?, signal.kind.ends = false
  chain : signals.IsChain Follows
  last : ∀ id, pressed = some id → ∃ signal ∈ signals.getLast?, signal.kind.ends = false ∧ signal.id = id

variable {signals : List RegionActivated} {pressed pressed' : Option String} {signal : RegionActivated}

theorem Orderly.silent (h : Orderly signals pressed) (hpress : ∀ id, pressed' = some id → pressed = some id) :
    Orderly signals pressed' := ⟨h.head, h.chain, fun id hid => h.last id (hpress id hid)⟩

theorem Orderly.begins (h : Orderly signals pressed) (hkind : signal.kind.ends = false) :
    Orderly (signals ++ [signal]) (some signal.id) where
  head s hs := by
    cases signals with
    | nil =>
      obtain rfl : signal = s := Option.some.inj hs
      exact hkind
    | cons first rest => exact h.head s hs
  chain := List.IsChain.append h.chain (List.isChain_singleton _) fun x _ y hy hends => by
    obtain rfl : signal = y := Option.some.inj hy
    rw [hkind] at hends
    cases hends
  last id hid := ⟨signal, List.getLast?_concat, hkind, Option.some.inj hid⟩

theorem Orderly.ends (h : Orderly signals (some signal.id)) : Orderly (signals ++ [signal]) none where
  head s hs := by
    obtain ⟨last, hlast, -⟩ := h.last _ rfl
    cases signals with
    | nil => cases hlast
    | cons first rest => exact h.head s hs
  chain := List.IsChain.append h.chain (List.isChain_singleton _) fun x hx y hy _ => by
    obtain rfl : signal = y := Option.some.inj hy
    obtain ⟨last, hlast, hkind, hid⟩ := h.last _ rfl
    obtain rfl : last = x := Option.some.inj (hlast.symm.trans hx)
    exact ⟨hkind, hid⟩
  last id hid := by cases hid

variable {d : Desktop K}

omit [Scalar K] in
/-- What a register holds was written, unless it is what it started with. -/
theorem register_written {α : Type*} (write : BusCall K → Option α) (init : α) (calls : List (BusCall K)) :
    register write init calls = init ∨ ∃ call ∈ calls, write call = some (register write init calls) := by
  unfold register
  cases hlast : (calls.filterMap write).getLast? with
  | none => exact .inl rfl
  | some a =>
    obtain ⟨call, hcall, hwrite⟩ := List.mem_filterMap.mp (List.mem_of_getLast? hlast)
    exact .inr ⟨call, hcall, hwrite⟩

omit [Scalar K] in
/-- The regions of the compositor are published ones. -/
theorem named_regions (hobeys : Desktop.Obeys d) (hmade : ∀ call ∈ d.calls, call.Made dockButtons) :
    (∀ region ∈ d.layer.chromeRegions, ∃ id ∈ RegionId.dockBody :: dockButtons, region.id = id.text) ∧
      (d.reader.ready = false → d.layer.chromeRegions = []) := by
  have hregions : d.layer.chromeRegions = register BusCall.regions [] (d.reader.heard d.calls) :=
    congrArg Remote.regions hobeys.remote
  refine ⟨fun region hregion => ?_, fun hready => ?_⟩
  · rw [hregions] at hregion
    rcases register_written BusCall.regions [] (d.reader.heard d.calls) with hnil | ⟨call, hcall, hwrite⟩
    · rw [hnil] at hregion
      cases hregion
    · generalize register BusCall.regions [] (d.reader.heard d.calls) = published at hregion hwrite
      have hsent : call ∈ d.calls := List.mem_of_mem_take (List.mem_of_mem_drop hcall)
      have hcallMade := hmade call hsent
      unfold BusCall.regions at hwrite
      unfold BusCall.Made at hcallMade
      cases hmethod : call.method with
      | setChromeRegions regions =>
        rw [hmethod] at hwrite hcallMade
        rw [← Option.some.inj hwrite] at hregion
        obtain ⟨entry, hentry, hof⟩ := List.mem_filterMap.mp hregion
        obtain ⟨id, hdock, hid⟩ := hcallMade entry hentry
        refine ⟨id, hdock, hid ▸ ?_⟩
        unfold MetaAnnotationLayer.chromeRegionOf at hof
        split_ifs at hof
        rw [← Option.some.inj hof]
      | clearChromeRegions =>
        rw [hmethod] at hwrite
        rw [← Option.some.inj hwrite] at hregion
        cases hregion
      | _ =>
        rw [hmethod] at hwrite
        cases hwrite
  · rw [hregions, Reader.heard_unready hobeys.within hready]
    rfl

/-- The signals name the dock or one of its buttons, and go on as the press says. Nothing is pressed before
there is a connection. -/
structure Named (d : Desktop K) (signals : List RegionActivated) : Prop where
  names : ∀ signal ∈ signals, ∃ id ∈ RegionId.dockBody :: dockButtons, signal.id = id.text
  orderly : Orderly signals d.layer.chromePressId
  idle : d.reader.ready = false → d.layer.chromePressId = none

omit [Scalar K] in
theorem Named.names_concat (h : Named d signals) {signal : RegionActivated}
    (hid : ∃ id ∈ RegionId.dockBody :: dockButtons, signal.id = id.text) :
    ∀ s ∈ signals ++ [signal], ∃ id ∈ RegionId.dockBody :: dockButtons, s.id = id.text := by
  intro s hs
  rcases List.mem_append.mp hs with hs | hs
  · exact h.names s hs
  · obtain rfl := List.mem_singleton.mp hs
    exact hid

theorem named_layer (hobeys : Desktop.Obeys d) (hmade : ∀ call ∈ d.calls, call.Made dockButtons) (h : Named d signals)
    (op : Op K) : Named { d with layer := d.layer.opStep op }
      (signals ++ if !d.reader.ready then [] else (d.layer.opSignal op).toList) := by
  obtain ⟨hregions, hunready⟩ := named_regions hobeys hmade
  cases d.layer.signalling op with
  | silent hsignal hpress =>
    have hnone : (if !d.reader.ready then [] else (d.layer.opSignal op).toList) = [] := by
      rw [hsignal]
      split_ifs <;> rfl
    rw [hnone, List.append_nil]
    refine ⟨h.names, h.orderly.silent hpress, fun hready => ?_⟩
    cases hpressed : (d.layer.opStep op).chromePressId with
    | none => rfl
    | some id =>
      have hid := hpress id hpressed
      rw [h.idle hready] at hid
      cases hid
  | begins signal hsignal hkind hregion hpress =>
    obtain ⟨region, hmem, hid⟩ := hregion
    have hready : d.reader.ready = true := by
      by_contra hnot
      rw [hunready (by simpa using hnot)] at hmem
      cases hmem
    rw [hsignal, hready]
    refine ⟨h.names_concat (hid ▸ hregions region hmem), ?_, fun hnot => absurd (hready.symm.trans hnot) (by simp)⟩
    change Orderly _ (d.layer.opStep op).chromePressId
    rw [hpress]
    exact h.orderly.begins hkind
  | ends signal hsignal hkind hpressed hpress =>
    have hready : d.reader.ready = true := by
      by_contra hnot
      rw [h.idle (by simpa using hnot)] at hpressed
      cases hpressed
    rw [hsignal, hready]
    have horderly := h.orderly
    rw [hpressed] at horderly
    obtain ⟨last, hlast, -, hid⟩ := horderly.last _ rfl
    have hnamed := hid ▸ h.names last (List.mem_of_getLast? hlast)
    refine ⟨h.names_concat hnamed, ?_, fun hnot => absurd (hready.symm.trans hnot) (by simp)⟩
    change Orderly _ (d.layer.opStep op).chromePressId
    rw [hpress]
    exact horderly.ends

variable [FloorRing K]

theorem named_step (hobeys : Desktop.Obeys d) (hmade : ∀ call ∈ d.calls, call.Made dockButtons) (h : Named d signals)
    (op : DesktopOp K) : Named (d.step op) (seeSignals signals d op) := by
  have hsame : ∀ d' : Desktop K, d'.layer = d.layer → d'.reader.ready = d.reader.ready → Named d' signals :=
    fun d' hlayer hready => ⟨h.names, hlayer ▸ h.orderly, fun hnot => hlayer ▸ h.idle (hready.symm.trans hnot)⟩
  cases op with
  | extension event => exact hsame _ rfl rfl
  | acquire => exact ⟨h.names, h.orderly, nofun⟩
  | reply i ok =>
    change Named (d.reply i ok) signals
    unfold Desktop.reply
    split
    · exact h
    · split_ifs
      · exact h
      · exact hsame _ rfl rfl
  | deliver =>
    change Named d.deliver signals
    unfold Desktop.deliver
    split
    · exact h
    next call _ =>
      cases hready : d.reader.ready with
      | false =>
        refine ⟨h.names, h.orderly, fun _ => ?_⟩
        exact h.idle hready
      | true =>
        refine ⟨h.names, h.orderly.silent fun id hid => ?_, fun hnot => ?_⟩
        · exact MetaAnnotationLayer.chromePressId_call hid
        · change d.reader.ready = false at hnot
          rw [hready] at hnot
          cases hnot
  | layer op =>
    unfold Desktop.step seeSignals
    dsimp only
    cases hop : op.remote with
    | true => simpa using h
    | false => simpa using named_layer hobeys hmade h op

omit [FloorRing K] in
theorem named_new (scene : Scene K) (display : MetaDisplay) (input : AnnotationInput K) (width height : ℤ) :
    Named (.new scene display input width height) [] := by
  have hpressed : (Desktop.new scene display input width height).layer.chromePressId = none :=
    congrArg Dock.pressed MetaAnnotationLayer.dock_new
  refine ⟨fun signal hsignal => absurd hsignal List.not_mem_nil, ?_, fun _ => hpressed⟩
  rw [hpressed]
  exact ⟨fun signal hsignal => (by cases hsignal), .nil, fun id hid => (by cases hid)⟩

/-- In every run of the desktop each signal is for the dock or one of its buttons, which the string that
it carries is read as; the first one is a press, and each release comes straight after
a press of the same region. -/
theorem signals_orderly (scene : Scene K) (display : MetaDisplay) (input : AnnotationInput K) (width height : ℤ)
    (ops : List (DesktopOp K)) :
    let signals := (run (watch Desktop.step seeSignals) (.new scene display input width height, []) ops).2
    (∀ signal ∈ signals, ∃ id ∈ RegionId.dockBody :: dockButtons,
        signal.id = id.text ∧ RegionId.ofText signal.id = id) ∧
      ∀ (i : ℕ) (signal : RegionActivated), signals[i]? = some signal → signal.kind.ends = true →
        ∃ j press, i = j + 1 ∧ signals[j]? = some press ∧ press.kind.ends = false ∧ press.id = signal.id := by
  have hrun : ∀ ops,
      (Desktop.Obeys (run (watch Desktop.step seeSignals) (.new scene display input width height, []) ops).1 ∧
      Desktop.Session (run (watch Desktop.step seeSignals) (.new scene display input width height, []) ops).1) ∧
      Named (run (watch Desktop.step seeSignals) (.new scene display input width height, []) ops).1
        (run (watch Desktop.step seeSignals) (.new scene display input width height, []) ops).2 := by
    intro ops
    refine run_invariant (P := fun p : Desktop K × List RegionActivated =>
      (Desktop.Obeys p.1 ∧ Desktop.Session p.1) ∧ Named p.1 p.2) (fun p op h => ?_) ?_
    · obtain ⟨⟨hobeys, hsession⟩, hnamed⟩ := h
      exact ⟨⟨Desktop.obeys_step hobeys op, Desktop.session_step hsession hobeys.within op⟩,
        named_step hobeys hsession.made hnamed op⟩
    · exact ⟨Desktop.session_after scene display input width height [],
        named_new scene display input width height⟩
  intro signals
  have hnamed := (hrun ops).2
  refine ⟨fun signal hsignal => ?_, fun i signal hget hends => ?_⟩
  · obtain ⟨id, hdock, hid⟩ := hnamed.names signal hsignal
    exact ⟨id, hdock, hid, by rw [hid, RegionId.ofText_text]⟩
  · obtain ⟨hi, hgetElem⟩ := List.getElem?_eq_some_iff.mp hget
    cases i with
    | zero =>
      have hhead := hnamed.orderly.head signal (by rw [List.head?_eq_getElem?]; exact hget)
      rw [hhead] at hends
      cases hends
    | succ j =>
      have hfollows := List.isChain_iff_getElem.mp hnamed.orderly.chain j hi
      obtain ⟨hkind, hid⟩ := hfollows (by rw [← hgetElem] at hends; exact hends)
      exact ⟨j, _, rfl, List.getElem?_eq_getElem (Nat.lt_of_succ_lt hi), hkind, hid.trans (by rw [← hgetElem])⟩

end Service

end Annotations
