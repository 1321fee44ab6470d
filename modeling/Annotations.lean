import Annotations.Anchors.Dangling
import Annotations.Anchors.Pointers
import Annotations.Clutter.Event
import Annotations.Clutter.Input
import Annotations.Composite.Freshness
import Annotations.Composite.Owed
import Annotations.Composite.Partition
import Annotations.Composite.Pick
import Annotations.Composite.Picture
import Annotations.Compositor.Route
import Annotations.Delivery.Endings
import Annotations.Delivery.Seat
import Annotations.Delivery.Splits
import Annotations.Dock.Activation
import Annotations.Dock.Barrel
import Annotations.Dock.Contacts
import Annotations.Dock.State
import Annotations.Dock.Suppression
import Annotations.Dock.Swallowing
import Annotations.Extension.Armed
import Annotations.Extension.Arming
import Annotations.Extension.Chrome
import Annotations.Extension.Desktop
import Annotations.Extension.Disabling
import Annotations.Extension.Effects
import Annotations.Extension.Methods
import Annotations.Extension.Pausing
import Annotations.Gestures.Clearing
import Annotations.Gestures.Completeness
import Annotations.Gestures.History
import Annotations.Gestures.Recent
import Annotations.Gestures.Soundness
import Annotations.Glib.PtrArray
import Annotations.Glib.Variant
import Annotations.History.Distances
import Annotations.History.Erasing
import Annotations.History.Loading
import Annotations.History.Loads
import Annotations.History.Moving
import Annotations.History.Painting
import Annotations.History.StrokeModel
import Annotations.History.Undo
import Annotations.Ink.Album
import Annotations.Ink.Continuity
import Annotations.Ink.InFlight
import Annotations.Ink.Keeping
import Annotations.Ink.Refinement
import Annotations.Ink.Sheets
import Annotations.Ink.Simulation
import Annotations.Ink.Touches
import Annotations.Ink.Undo
import Annotations.Js.Json
import Annotations.Js.ParseInt
import Annotations.Js.Values
import Annotations.Kate.Calibration
import Annotations.Kate.Closing
import Annotations.Kate.Discovery
import Annotations.Kate.Following
import Annotations.Kate.Returning
import Annotations.Kate.Scrollbars
import Annotations.Kate.Telling
import Annotations.Kate.Tracker
import Annotations.Kate.Trackers
import Annotations.Kate.Walk
import Annotations.Layer.Erase
import Annotations.Layer.Events
import Annotations.Layer.Lifecycle
import Annotations.Layer.Recompose
import Annotations.Layer.State
import Annotations.Layer.Step
import Annotations.Layer.Stroking
import Annotations.Layer.Surfaces
import Annotations.Layer.Sweep
import Annotations.Layer.Taps
import Annotations.Layer.Windows
import Annotations.Lifecycle.Attempts
import Annotations.Lifecycle.Coverage
import Annotations.Lifecycle.Dragging
import Annotations.Lifecycle.Extension
import Annotations.Lifecycle.Leftovers
import Annotations.Lifecycle.Manager
import Annotations.Lifecycle.Movement
import Annotations.Lifecycle.Trackers
import Annotations.Motion.Checked
import Annotations.Motion.Confidence
import Annotations.Motion.Helper
import Annotations.Motion.Matcher
import Annotations.Motion.Recovery
import Annotations.Motion.Rounding
import Annotations.Motion.Shifts
import Annotations.Motion.Summation
import Annotations.Motion.Sums
import Annotations.Motion.TopTwo
import Annotations.Overlay.Capture
import Annotations.Overlay.Deferral
import Annotations.Overlay.Desktop
import Annotations.Overlay.Event
import Annotations.Overlay.Fallback
import Annotations.Overlay.Gate
import Annotations.Overlay.InStep
import Annotations.Overlay.Leaks
import Annotations.Overlay.Modes
import Annotations.Overlay.Repaint
import Annotations.Overlay.Session
import Annotations.Overlay.Updates
import Annotations.Plane.Boxes
import Annotations.Plane.Distance
import Annotations.Plane.Polylines
import Annotations.Plane.Segments
import Annotations.Plane.Shapes
import Annotations.Pointer.Freezing
import Annotations.Pointer.Routing
import Annotations.Pointer.SeatImpl
import Annotations.Publishing.Carried
import Annotations.Publishing.Registry
import Annotations.Runs.Albums
import Annotations.Runs.Basic
import Annotations.Runs.Ledger
import Annotations.Runs.Mailbox
import Annotations.Runs.Mirror
import Annotations.Runs.Purge
import Annotations.Service.Dispatch
import Annotations.Service.Refinement
import Annotations.Service.RegionIds
import Annotations.Service.Registration
import Annotations.Service.Signals
import Annotations.Service.Wire
import Annotations.Sheets.Hands
import Annotations.Sheets.Invariants
import Annotations.Sheets.Protocol
import Annotations.Stacking.Topmost
import Annotations.Text.Decimal
import Annotations.Tracing.Agreement
import Annotations.Tracing.Boxes
import Annotations.Tracing.BroadPhase
import Annotations.Tracing.Colours
import Annotations.Tracing.Coverage
import Annotations.Tracing.Distances
import Annotations.Tracing.Drawing
import Annotations.Tracing.Erasing
import Annotations.Tracing.Following
import Annotations.Tracing.Footprint
import Annotations.Tracing.Histories
import Annotations.Tracing.Invariants
import Annotations.Tracing.Layer
import Annotations.Tracing.Permits
import Annotations.Tracing.Refinement
import Annotations.Tracing.Repainting
import Annotations.Tracing.Scrolling
import Annotations.Tracing.Strokes
import Annotations.Trees.Walks
