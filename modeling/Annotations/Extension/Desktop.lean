import Annotations.Dock.Contacts
import Annotations.Extension.Effects
import Annotations.Runs.Mailbox

/-! The extension, the compositor, and the bus between them. Calls are delivered in the
order of sending, and refused until the compositor owns its name; runs in which another
process takes the name over are left out. A reply may be as late as it likes, and may be
a failure even if the call got through. -/

namespace Annotations

open Runs

variable {K : Type} [Scalar K] [FloorRing K]

structure Desktop (K : Type) where
  extension : AnnotationExtension K
  reader : Reader
  replied : ℕ → Bool
  layer : MetaAnnotationLayer K

inductive DesktopOp (K : Type) where
  | extension (event : ExtensionEvent K)
  | reply (i : ℕ) (ok : Bool)
  | acquire
  | deliver
  | layer (op : Op K)

/-- The operations that reach the layer only from the extension. -/
def Op.remote : Op K → Bool
  | .call (.setActive _) => true
  | .call (.setPaused _) => true
  | .call (.setChromeRegions _) => true
  | .call .clearChromeRegions => true
  | _ => false

namespace Desktop

/-- Before the extension is first enabled. -/
def new (scene : Scene K) (display : MetaDisplay) (input : AnnotationInput K) (width height : ℤ) : Desktop K where
  extension := .new scene
  reader := .new
  replied := fun _ => false
  layer := metaAnnotationLayerNew display input width height

variable (d : Desktop K)

abbrev calls : List (BusCall K) := d.extension.calls

/-- The call has got through. -/
def arrived (i : ℕ) : Bool := d.reader.refused ≤ i && i < d.reader.delivered

def reply (i : ℕ) (ok : Bool) : Desktop K :=
  match d.calls[i]? with
  | none => d
  | some call =>
    if d.replied i then d
    else { d with
      replied := Function.update d.replied i true
      extension := d.extension.onReply call.handler (ok && d.arrived i) }

def deliver : Desktop K :=
  match d.calls[d.reader.delivered]? with
  | none => d
  | some call => { d with
      reader := d.reader.deliver
      layer := if d.reader.ready then d.layer.opStep (.call call.method) else d.layer }

def step : DesktopOp K → Desktop K
  | .extension event => { d with extension := d.extension.handle event }
  | .reply i ok => d.reply i ok
  | .acquire => { d with reader := { d.reader with ready := true } }
  | .deliver => d.deliver
  | .layer op => if op.remote then d else { d with layer := d.layer.opStep op }

/-- All calls have been delivered. -/
def Settled : Prop := d.reader.delivered = d.calls.length

end Desktop

/-! ### What calls write -/

/-- The part of the layer that only the extension sets. -/
structure Remote where
  active : Bool
  paused : Bool
  regions : List ChromeRegion

def MetaAnnotationLayer.remote (layer : MetaAnnotationLayer K) : Remote :=
  ⟨layer.active, layer.paused, layer.chromeRegions⟩

/-- What the calls make of it. -/
def Remote.after (calls : List (BusCall K)) : Remote where
  active := register BusCall.active false calls
  paused := register BusCall.paused false calls
  regions := register BusCall.regions [] calls

namespace MetaAnnotationLayer

variable {layer : MetaAnnotationLayer K}

omit [Scalar K] [FloorRing K] in
theorem remote_of_dock {layer' : MetaAnnotationLayer K} {barrel : BitVec 32}
    (h : layer'.dock = { layer.dock with barrel := barrel }) : layer'.remote = layer.remote := by
  obtain ⟨hactive, hpaused, _, _, _, hregions⟩ := Dock.mk.inj h
  unfold remote
  rw [hactive, hpaused, hregions]
  rfl

omit [FloorRing K] in
theorem remote_route (event : ClutterEvent K) (nowUs : ℤ) :
    (layer.opStep (.route event nowUs)).remote = layer.remote := by
  cases layer.routing event nowUs with
  | ignored _ hrouted => exact (congrArg remote (opStep_route hrouted)).trans rfl
  | landed _ _ hrouted => exact (congrArg remote (opStep_route hrouted)).trans rfl
  | ended _ _ _ _ _ hrouted => exact (congrArg remote (opStep_route hrouted)).trans rfl
  | swallowed _ _ _ _ _ hrouted => exact (congrArg remote (opStep_route hrouted)).trans rfl
  | handled _ _ _ hrouted =>
    exact (congrArg remote (opStep_route hrouted)).trans (remote_of_dock (dock_handleEvent event nowUs))

omit [FloorRing K] in
theorem remote_call (call : BusCall K) : (layer.opStep (.call call.method)).remote =
    ⟨call.active.getD layer.active, call.paused.getD layer.paused, call.regions.getD layer.chromeRegions⟩ := by
  have hdock : (layer.opStep (.call call.method)).dock = layer.dock.call call.method := dock_opStep_call _
  have hremote : (layer.opStep (.call call.method)).remote = ⟨(layer.dock.call call.method).active,
      (layer.dock.call call.method).paused, (layer.dock.call call.method).regions⟩ := by rw [← hdock]; rfl
  rw [hremote]
  unfold BusCall.active BusCall.paused BusCall.regions
  cases call.method <;> rfl

omit [FloorRing K] in
/-- Whatever else happens to the layer leaves it alone. -/
theorem remote_opStep {op : Op K} (hop : op.remote = false) : (layer.opStep op).remote = layer.remote := by
  cases op with
  | route event nowUs => exact remote_route event nowUs
  | call call =>
    rw [remote_call ⟨call, .null⟩]
    cases call with
    | setActive active => cases hop
    | setPaused paused => cases hop
    | setChromeRegions regions => cases hop
    | clearChromeRegions => cases hop
    | _ => rfl

end MetaAnnotationLayer

namespace Desktop

variable {d : Desktop K}

/-- The compositor is as the calls it has heard say. -/
structure Obeys (d : Desktop K) : Prop where
  within : d.reader.Within d.calls
  remote : d.layer.remote = .after (d.reader.heard d.calls)

omit [FloorRing K] in
theorem obeys_new (scene : Scene K) (display : MetaDisplay) (input : AnnotationInput K) (width height : ℤ) :
    Obeys (new scene display input width height) := by
  have hdock : (metaAnnotationLayerNew display input width height).dock =
      ⟨false, false, 1 ≤ width && 1 ≤ height, 0, none, []⟩ := MetaAnnotationLayer.dock_new
  obtain ⟨hactive, hpaused, _, _, _, hregions⟩ := Dock.mk.inj hdock
  refine ⟨Reader.within_new, ?_⟩
  change Remote.mk (metaAnnotationLayerNew display input width height).active
    (metaAnnotationLayerNew display input width height).paused
    (metaAnnotationLayerNew display input width height).chromeRegions = _
  rw [hactive, hpaused, hregions]
  rfl

omit [FloorRing K] in
theorem obeys_deliver (h : Obeys d) : Obeys d.deliver := by
  unfold deliver
  cases hcall : d.calls[d.reader.delivered]? with
  | none => exact h
  | some call =>
    have hmore : d.reader.delivered < d.calls.length := (List.getElem?_eq_some_iff.mp hcall).1
    refine ⟨h.within.deliver hmore, ?_⟩
    dsimp only
    rw [Reader.heard_deliver h.within hcall]
    cases hready : d.reader.ready with
    | false =>
      have hremote := h.remote
      rwa [Reader.heard_unready h.within hready] at hremote
    | true =>
      obtain ⟨hactive, hpaused, hregions⟩ := Remote.mk.inj h.remote
      rw [if_pos rfl, if_pos rfl, MetaAnnotationLayer.remote_call, hactive, hpaused, hregions]
      unfold Remote.after
      rw [register_concat, register_concat, register_concat]

omit [Scalar K] [FloorRing K] in
/-- More calls change nothing before they are delivered. -/
theorem Obeys.extension (h : Obeys d) {extension : AnnotationExtension K} {post : List (BusCall K)}
    (hcalls : extension.calls = d.calls ++ post) (replied : ℕ → Bool) :
    Obeys { d with extension := extension, replied := replied } := by
  have hwithin : d.reader.Within extension.calls := hcalls ▸ h.within.append
  refine ⟨hwithin, ?_⟩
  have hheard : d.reader.heard extension.calls = d.reader.heard d.calls := hcalls ▸ Reader.heard_append h.within
  change d.layer.remote = .after (d.reader.heard extension.calls)
  rw [hheard]
  exact h.remote

omit [Scalar K] [FloorRing K] in
/-- Once all calls are delivered, those that were refused are the only ones that do not
count. -/
theorem Obeys.settled (h : Obeys d) (hsettled : d.Settled) :
    d.layer.remote = .after (d.calls.drop d.reader.refused) := by
  rw [h.remote, Reader.heard_all hsettled]

theorem obeys_reply (h : Obeys d) (i : ℕ) (ok : Bool) : Obeys (d.reply i ok) := by
  unfold reply
  split
  · exact h
  next call _ =>
    split_ifs
    · exact h
    · obtain ⟨post, hcalls, _⟩ := (d.extension.hidden_onReply call.handler (ok && d.arrived i)).2.2
      exact h.extension hcalls _

theorem obeys_step (h : Obeys d) (op : DesktopOp K) : Obeys (d.step op) := by
  cases op with
  | extension event =>
    have hsends : AnnotationExtension.Sends _ d.extension (d.extension.handle event) :=
      AnnotationExtension.sends_handle event
    obtain ⟨post, hcalls, _⟩ := hsends
    exact h.extension hcalls d.replied
  | reply i ok => exact obeys_reply h i ok
  | acquire => exact ⟨⟨h.within.delivered, h.within.refused, nofun⟩, h.remote⟩
  | deliver => exact obeys_deliver h
  | layer op =>
    unfold step
    dsimp only
    split_ifs with hop
    · exact h
    · exact ⟨h.within, (MetaAnnotationLayer.remote_opStep (by simpa using hop)).trans h.remote⟩

end Desktop

end Annotations
