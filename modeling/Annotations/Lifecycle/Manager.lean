import Annotations.Js.ParseInt
import Annotations.Kate.Trackers
import Annotations.Runs.Ledger

/-! The manager of the Kate trackers from `enable` to `disable`, with the timers and the handlers that it
and its trackers hold. What a callback makes of a tracker is as before; here it runs only if it is still
connected. -/

namespace Annotations.Lifecycle

open Atspi Js Runs

/-! ### Which windows are Kate's -/

/-- `KATE_WM_CLASSES`. -/
def kateWmClasses : List String := ["kate", "org.kde.kate"]

/-- `toLowerCase`, as far as ASCII comes of it: the only other letter that becomes one is the Kelvin sign. -/
def toLowerCase (s : String) : String := s.map fun c => if c = '\u212a' then 'k' else c.toLower

/-- What the shell can find out about windows: their class, and what `/proc` says of their process. -/
structure Identities where
  wmClass : WindowId → Option String
  comm : ℕ → Option String

/-- `_procComm`. -/
def Identities.procComm (seen : Identities) (pid : ℕ) : Option (List Char) :=
  if pid = 0 then none else (seen.comm pid).map fun contents => contents.toList.rdropWhile isStrWhiteSpace

/-- `_isKate`. -/
def Identities.isKate (seen : Identities) (win : WindowId) (pid : ℕ) : Bool :=
  ((seen.wmClass win).any fun cls => cls ≠ "" && kateWmClasses.contains (toLowerCase cls)) ||
    seen.procComm pid = some "kate".toList

/-! ### Callbacks -/

/-- `DISCOVERY_ATTEMPT_DELAYS_MS`. -/
def discoveryAttemptDelaysMs : List ℕ := [250, 500, 1000, 2000, 4000, 6000]

/-- The delay of the attempt after `retryCount` others. -/
def discoveryDelay (retryCount : ℕ) : ℕ :=
  discoveryAttemptDelaysMs.getD (min retryCount (discoveryAttemptDelaysMs.length - 1)) 0

inductive AtspiEvent where
  | valueChanged | boundsChanged
  deriving DecidableEq

/-- The events that `enable` registers the listener for. -/
def AtspiEvent.all : List AtspiEvent := [.valueChanged, .boundsChanged]

/-- What the main loop and the signals may run. -/
inductive ManagerCallback where
  | windowCreated
  | sizeChanged (win : WindowId)
  | positionChanged (win : WindowId)
  | unmanaged (win : WindowId)
  | retry (win : WindowId) (ms : ℕ)
  | poll (win : WindowId)
  deriving DecidableEq

/-- The fields that hold ids, those of a tracker by its window. -/
inductive ManagerField where
  | displayWindowCreatedId
  | sizeId (win : WindowId)
  | posId (win : WindowId)
  | unmId (win : WindowId)
  | retryId (win : WindowId)
  | pollId (win : WindowId)
  deriving DecidableEq

def ManagerCallback.field : ManagerCallback → ManagerField
  | .windowCreated => .displayWindowCreatedId
  | .sizeChanged win => .sizeId win
  | .positionChanged win => .posId win
  | .unmanaged win => .unmId win
  | .retry win _ => .retryId win
  | .poll win => .pollId win

abbrev ManagerBooks := Runs.IdLedger ManagerCallback ManagerField

namespace ManagerBooks

variable (books : ManagerBooks) (win : WindowId)

/-- `_scheduleDiscovery`. -/
def scheduleDiscovery (retryCount : ℕ) : ManagerBooks :=
  (books.release (.retryId win)).connect (.retryId win) (.retry win (discoveryDelay retryCount))

/-- The constructor of a tracker. -/
def newTracker : ManagerBooks :=
  let books := ((((books.reset (.sizeId win)).reset (.posId win)).reset (.unmId win)).reset (.retryId win)).reset
    (.pollId win)
  let books := books.connect (.sizeId win) (.sizeChanged win)
  let books := books.connect (.posId win) (.positionChanged win)
  let books := books.connect (.unmId win) (.unmanaged win)
  scheduleDiscovery books win 0

/-- `destroy` of a tracker. -/
def destroy : ManagerBooks :=
  ((((books.release (.retryId win)).release (.pollId win)).release (.sizeId win)).release (.posId win)).release
    (.unmId win)

/-- The poll of `_tryDiscover` is started, once there is to be one. -/
def startPoll {K : Type} (t : KateWindowTracker K) : ManagerBooks :=
  if t.pollId && books.ids (.pollId win) = 0 then books.connect (.pollId win) (.poll win) else books

/-- What an attempt to discover leaves: a poll, and a timer for the next attempt. -/
def afterAttempt {K : Type} (t : KateWindowTracker K) : ManagerBooks :=
  if t.retryId then scheduleDiscovery (books.startPoll win t) win t.retryCount else books.startPoll win t

end ManagerBooks

/-! ### The manager -/

/-- What `enable` meets: what `Atspi.init` returns unless it throws, whether there can be a listener, and the
events that it can be registered for. -/
structure AtspiSetup where
  init : Option ℤ
  listener : Bool
  registers : AtspiEvent → Bool

/-- `Atspi.init` succeeds, and there is a listener. -/
def AtspiSetup.starts (atspi : AtspiSetup) : Bool := atspi.init.any (fun rc => rc = 0 || rc = 1) && atspi.listener

/-- `KateTrackerManager`, in the shell. Its trackers are those of the shell. -/
structure KateTrackerManager (K : Type) where
  shell : Shell K
  initialized : Bool
  books : ManagerBooks
  atspiRegistered : Option (List AtspiEvent)

inductive ManagerOp (K : Type) where
  | enable (atspi : AtspiSetup) (seen : Identities)
  | disable
  | windowCreated (win : WindowId) (seen : Identities)
  | windowUnmanaged (win : WindowId)
  | callback (id : ℕ) (view : View K)
  | atspi (type : AtspiEvent) (source : Accessible) (view : View K)
  | compositor (op : Op K)
  | deliver

/-- The tracker that is stored for a window. -/
def trackerOf {K : Type} (entries : List (Tracked K)) (win : WindowId) : Option (KateWindowTracker K) :=
  (entries.find? fun entry => entry.win = win).map (·.tracker)

namespace KateTrackerManager

variable {K : Type} [Scalar K] [FloorRing K] (m : KateTrackerManager K)

/-- The callback is connected. -/
def connected (k : ManagerCallback) : Bool := m.books.live.any fun e => e.2 = k

/-- The tracker of a window. -/
def tracker (win : WindowId) : Option (KateWindowTracker K) := trackerOf m.shell.trackers win

/-- The window is managed, and one of Kate's. -/
def recognizes (seen : Identities) (win : WindowId) : Bool :=
  win ∈ m.shell.layer.display.windows && seen.isKate win (m.shell.layer.display.window win).pid

/-- `_trackIfNew`. -/
def trackIfNew (win : WindowId) : KateTrackerManager K :=
  if m.shell.trackers.any fun entry => entry.win = win then m
  else { m with
    shell := m.shell.trackIfNew win
    books := m.books.newTracker win }

/-- The listener is registered, and the windows that are there are tracked. -/
def trackExisting (atspi : AtspiSetup) (seen : Identities) : KateTrackerManager K :=
  let m := { m with atspiRegistered := some (AtspiEvent.all.filter atspi.registers) }
  (m.shell.layer.display.windows.filter fun win => m.recognizes seen win).foldl trackIfNew m

/-- `enable`. -/
def enable (atspi : AtspiSetup) (seen : Identities) : KateTrackerManager K :=
  if m.initialized then m
  else if !atspi.starts then m
  else
    let m := m.trackExisting atspi seen
    { m with
      books := m.books.connect .displayWindowCreatedId .windowCreated
      initialized := true }

/-- `disable`. -/
def disable : KateTrackerManager K :=
  if !m.initialized then m
  else { m with
    shell := m.shell.step .disable
    initialized := false
    books := (m.shell.trackers.map (·.win)).foldl ManagerBooks.destroy (m.books.release .displayWindowCreatedId)
    atspiRegistered := none }

/-- A window is created, and the handler of the manager runs if there is one. -/
def windowCreated (win : WindowId) (seen : Identities) : KateTrackerManager K :=
  if m.connected .windowCreated && m.recognizes seen win then m.trackIfNew win else m

/-- A window is unmanaged, and the handler of its tracker runs if there is one. -/
def windowUnmanaged (win : WindowId) : KateTrackerManager K :=
  if m.connected (.unmanaged win) then
    { m with
      shell := m.shell.step (.windowUnmanaged win)
      books := m.books.destroy win }
  else
    { m with shell := { m.shell with layer := m.shell.layer.opStep (.call (.windowUnmanaged win)) } }

/-- The timer of `_scheduleDiscovery` fires, and is gone. -/
def retry (win : WindowId) (id : ℕ) (view : View K) : KateTrackerManager K :=
  let m := { m with
    books := m.books.finish (.retryId win) id
    shell := m.shell.step (.retry win view) }
  match m.tracker win with
  | none => m
  | some t => { m with books := m.books.afterAttempt win t }

/-- A callback of the books runs. Those that windows come and go with are run with the windows. -/
def run (id : ℕ) (view : View K) : KateTrackerManager K :=
  match m.books.callback id with
  | none => m
  | some .windowCreated => m
  | some (.unmanaged _) => m
  | some (.sizeChanged win) => { m with shell := m.shell.step (.geometryChanged win view) }
  | some (.positionChanged win) => { m with shell := m.shell.step (.geometryChanged win view) }
  | some (.retry win _) => m.retry win id view
  | some (.poll win) => { m with shell := m.shell.step (.poll win view) }

/-- `_onAtspiEvent`, for the events that the listener is registered for. -/
def onAtspiEvent (type : AtspiEvent) (source : Accessible) (view : View K) : KateTrackerManager K :=
  if m.atspiRegistered.any (type ∈ ·) then
    match type with
    | .valueChanged => { m with shell := m.shell.step (.valueChanged source view) }
    | .boundsChanged => { m with shell := m.shell.step (.boundsChanged source view) }
  else m

def step : ManagerOp K → KateTrackerManager K
  | .enable atspi seen => m.enable atspi seen
  | .disable => m.disable
  | .windowCreated win seen => m.windowCreated win seen
  | .windowUnmanaged win => m.windowUnmanaged win
  | .callback id view => m.run id view
  | .atspi type source view => m.onAtspiEvent type source view
  | .compositor op => { m with shell := m.shell.step (.compositor op) }
  | .deliver => { m with shell := m.shell.step .deliver }

/-- Before it is first enabled. -/
def start (display : MetaDisplay) (input : AnnotationInput K) (width height : ℤ) : KateTrackerManager K :=
  ⟨.start display input width height, false, .empty, none⟩

end KateTrackerManager

end Annotations.Lifecycle
