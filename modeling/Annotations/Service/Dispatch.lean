import Annotations.Glib.Variant
import Annotations.Layer.Step

/-! The service on the bus: the interface that the compositor describes, the handler of its method
calls, and the messages that the extension sends. The interface, the handler and the senders agree:
a message fits the interface just if it is sent for a call, and then it runs this call. -/

namespace Annotations.Service

open Glib

variable {K : Type}

/-! ### The interface -/

/-- A method of `introspection_xml`, with the type strings of its arguments. -/
structure MethodInfo where
  name : String
  args : List String

/-- `introspection_xml`. -/
def introspection : List MethodInfo :=
  [⟨"Clear", []⟩,
    ⟨"UndoLast", []⟩,
    ⟨"SetActive", ["b"]⟩,
    ⟨"SetColor", ["d", "d", "d", "d"]⟩,
    ⟨"SetChromeRegions", ["a(siiii)"]⟩,
    ⟨"ClearChromeRegions", []⟩,
    ⟨"SetPaused", ["b"]⟩,
    ⟨"SetWindowEditorRegion", ["u", "i", "i", "i", "i"]⟩,
    ⟨"SetWindowScroll", ["u", "i", "i"]⟩]

/-- The type string of all arguments together. -/
def MethodInfo.signature (info : MethodInfo) : String := .ofList ('(' :: (info.args.flatMap String.toList ++ [')']))

/-- A method call. -/
structure Message (K : Type) where
  path : String
  interface : String
  member : String
  parameters : Variant K

def objectPath : String := "/org/gnome/Mutter/Annotation"

def interfaceName : String := "org.gnome.Mutter.Annotation"

/-- The message calls a method of the interface, with arguments of the types that it describes. -/
def Message.Introspected (m : Message K) : Prop :=
  m.path = objectPath ∧ m.interface = interfaceName ∧
    ∃ info ∈ introspection, info.name = m.member ∧ m.parameters.type.typeString = info.signature

/-! ### The handler -/

inductive DBusError where
  | unknownInterface | unknownMethod
  deriving DecidableEq

/-- What an invocation returns. -/
inductive Reply where
  | value
  | error (code : DBusError) (message : String)
  deriving DecidableEq

/-- The entry of the array that a region is sent as. -/
abbrev regionType : VariantType := .tuple [.string, .int32, .int32, .int32, .int32]

/-- A value of this type. -/
abbrev RegionEntry : Type := String × BitVec 32 × BitVec 32 × BitVec 32 × BitVec 32 × Unit

def unpackRegion : RegionEntry → String × MtkRectangle
  | (id, x, y, w, h, ()) => (id, ⟨x.toInt, y.toInt, w.toInt, h.toInt⟩)

section
variable [Scalar K]

/-- `handle_method_call`. Arguments that are read at another type than their own have no result. -/
def handleMethodCall (layer : MetaAnnotationLayer K) (interface member : String) (parameters : Variant K) :
    Option (MetaAnnotationLayer K × Reply) :=
  if interface ≠ "org.gnome.Mutter.Annotation" then
    some (layer, .error .unknownInterface "Unknown interface")
  else if member = "Clear" then some (layer.clear, .value)
  else if member = "UndoLast" then some (layer.undoLast, .value)
  else if member = "SetActive" then do
    let (active, ()) ← parameters.get (.tuple [.boolean])
    return (layer.setActive active, .value)
  else if member = "SetColor" then do
    let (r, g, b, a, ()) ← parameters.get (.tuple [.double, .double, .double, .double])
    return (layer.setColor ⟨r, g, b, a⟩, .value)
  else if member = "SetChromeRegions" then do
    let (regions, ()) ← parameters.get (.tuple [.array regionType])
    return (layer.setChromeRegions (some (regions.map unpackRegion)), .value)
  else if member = "ClearChromeRegions" then some (layer.clearChromeRegions, .value)
  else if member = "SetPaused" then do
    let (paused, ()) ← parameters.get (.tuple [.boolean])
    return (layer.setPaused paused, .value)
  else if member = "SetWindowEditorRegion" then do
    let (pid, x, y, w, h, ()) ← parameters.get (.tuple [.uint32, .int32, .int32, .int32, .int32])
    return (layer.setWindowEditorRegion pid.toNat x.toInt y.toInt w.toInt h.toInt, .value)
  else if member = "SetWindowScroll" then do
    let (pid, sx, sy, ()) ← parameters.get (.tuple [.uint32, .int32, .int32])
    return (layer.setWindowScroll pid.toNat sx.toInt sy.toInt, .value)
  else some (layer, .error .unknownMethod "Unknown method")

end

/-! ### The senders -/

def packRegion (region : String × MtkRectangle) : RegionEntry :=
  (region.1, .ofInt 32 region.2.x, .ofInt 32 region.2.y, .ofInt 32 region.2.width, .ofInt 32 region.2.height, ())

/-- `dbusCall`. -/
def dbusCall (member : String) (parameters : Variant K) : Message K :=
  ⟨"/org/gnome/Mutter/Annotation", "org.gnome.Mutter.Annotation", member, parameters⟩

/-- Without parameters an empty tuple is sent. -/
def nothing : Variant K := ⟨.tuple [], ()⟩

/-- The message that is sent for a call, with numbers cut to 32 bits. The other calls come from
elsewhere. -/
def message : Call K → Option (Message K)
  | .setActive active => some (dbusCall "SetActive" ⟨.tuple [.boolean], (active, ())⟩)
  | .setPaused paused => some (dbusCall "SetPaused" ⟨.tuple [.boolean], (paused, ())⟩)
  | .setColor ⟨r, g, b, a⟩ =>
    some (dbusCall "SetColor" ⟨.tuple [.double, .double, .double, .double], (r, g, b, a, ())⟩)
  | .clear => some (dbusCall "Clear" nothing)
  | .undoLast => some (dbusCall "UndoLast" nothing)
  | .setChromeRegions regions =>
    some (dbusCall "SetChromeRegions" ⟨.tuple [.array regionType], (regions.map packRegion, ())⟩)
  | .clearChromeRegions => some (dbusCall "ClearChromeRegions" nothing)
  | .setWindowEditorRegion pid x y w h =>
    some (dbusCall "SetWindowEditorRegion" ⟨.tuple [.uint32, .int32, .int32, .int32, .int32],
      (.ofNat 32 pid, .ofInt 32 x, .ofInt 32 y, .ofInt 32 w, .ofInt 32 h, ())⟩)
  | .setWindowScroll pid scrollX scrollY =>
    some (dbusCall "SetWindowScroll" ⟨.tuple [.uint32, .int32, .int32],
      (.ofNat 32 pid, .ofInt 32 scrollX, .ofInt 32 scrollY, ())⟩)
  | _ => none

/-! ### Agreement -/

/-- The number is a 32-bit one. -/
def Fits32 (x : ℤ) : Prop := -2 ^ 31 ≤ x ∧ x < 2 ^ 31

def RectFits (rect : MtkRectangle) : Prop := Fits32 rect.x ∧ Fits32 rect.y ∧ Fits32 rect.width ∧ Fits32 rect.height

/-- The numbers in a call are 32-bit ones. -/
def Fits : Call K → Prop
  | .setChromeRegions regions => ∀ region ∈ regions, RectFits region.2
  | .setWindowEditorRegion pid x y w h => pid < 2 ^ 32 ∧ RectFits ⟨x, y, w, h⟩
  | .setWindowScroll pid scrollX scrollY => pid < 2 ^ 32 ∧ Fits32 scrollX ∧ Fits32 scrollY
  | _ => True

instance (x : ℤ) : Decidable (Fits32 x) := inferInstanceAs (Decidable (_ ∧ _))

instance (rect : MtkRectangle) : Decidable (RectFits rect) := inferInstanceAs (Decidable (_ ∧ _))

instance (c : Call K) : Decidable (Fits c) :=
  match c with
  | .setChromeRegions regions => inferInstanceAs (Decidable (∀ region ∈ regions, RectFits region.2))
  | .setWindowEditorRegion pid x y w h => inferInstanceAs (Decidable (pid < 2 ^ 32 ∧ RectFits ⟨x, y, w, h⟩))
  | .setWindowScroll pid scrollX scrollY => inferInstanceAs (Decidable (pid < 2 ^ 32 ∧ Fits32 scrollX ∧ Fits32 scrollY))
  | .setActive _ | .setPaused _ | .setColor _ | .clear | .undoLast | .clearChromeRegions | .stageSizeChanged ..
  | .windowFrameChanged .. | .windowMinimized .. | .windowWorkspaceChanged .. | .windowHidden .. | .windowManaged ..
  | .windowUnmanaged _ | .windowFinalized _ | .restacked _ | .activeWorkspaceChanged _ | .recomposeIdle =>
    isTrue trivial

theorem fits32_toInt (x : BitVec 32) : Fits32 x.toInt := ⟨by have := x.le_toInt; simpa using this, by
  have := x.toInt_lt; simpa using this⟩

theorem toInt_ofInt {x : ℤ} (h : Fits32 x) : (BitVec.ofInt 32 x).toInt = x := by
  rw [BitVec.toInt_ofInt]
  obtain ⟨hlow, hhigh⟩ := h
  exact Int.bmod_eq_of_le (by omega) (by omega)

theorem toNat_ofNat {n : ℕ} (h : n < 2 ^ 32) : (BitVec.ofNat 32 n).toNat = n := by
  rw [BitVec.toNat_ofNat, Nat.mod_eq_of_lt h]

theorem packRegion_unpackRegion (e : RegionEntry) : packRegion (unpackRegion e) = e := by
  obtain ⟨id, x, y, w, h, ⟨⟩⟩ := e
  simp [unpackRegion, packRegion]

theorem unpackRegion_packRegion {region : String × MtkRectangle} (h : RectFits region.2) :
    unpackRegion (packRegion region) = region := by
  obtain ⟨id, rect⟩ := region
  obtain ⟨hx, hy, hw, hh⟩ := h
  simp [unpackRegion, packRegion, toInt_ofInt hx, toInt_ofInt hy, toInt_ofInt hw, toInt_ofInt hh]

theorem map_packRegion (entries : List RegionEntry) : (entries.map unpackRegion).map packRegion = entries := by
  rw [List.map_map]
  exact (List.map_congr_left fun e _ => packRegion_unpackRegion e).trans (List.map_id _)

theorem map_unpackRegion {regions : List (String × MtkRectangle)} (h : ∀ region ∈ regions, RectFits region.2) :
    (regions.map packRegion).map unpackRegion = regions := by
  rw [List.map_map]
  exact (List.map_congr_left fun region hregion => unpackRegion_packRegion (h region hregion)).trans (List.map_id _)

theorem rectFits_unpackRegion (e : RegionEntry) : RectFits (unpackRegion e).2 :=
  ⟨fits32_toInt _, fits32_toInt _, fits32_toInt _, fits32_toInt _⟩

/-! The nine methods. Each message below is of the type that its method describes. -/

/-- A value of one type has the type strings of no other. -/
theorem exists_get_of_signature {m : Message K} {info : MethodInfo} {t : VariantType}
    (ht : t.typeString = info.signature) (h : m.parameters.type.typeString = info.signature) :
    ∃ x : t.Value K, m.parameters = ⟨t, x⟩ := by
  obtain ⟨x, hx⟩ := Variant.exists_get (VariantType.typeString_injective (h.trans ht.symm))
  exact ⟨x, Variant.get_eq_some hx⟩

/-- What fits the interface is sent for a call. -/
theorem exists_message {m : Message K} (h : m.Introspected) : ∃ c : Call K, Fits c ∧ message c = some m := by
  obtain ⟨path, interface, member, parameters⟩ := m
  obtain ⟨rfl, rfl, info, hinfo, rfl, htype⟩ := h
  simp only [introspection, List.mem_cons, List.not_mem_nil, or_false] at hinfo
  rcases hinfo with rfl | rfl | rfl | rfl | rfl | rfl | rfl | rfl | rfl
  · obtain ⟨⟨⟩, rfl⟩ := exists_get_of_signature (t := .tuple []) (by decide) htype
    exact ⟨.clear, trivial, rfl⟩
  · obtain ⟨⟨⟩, rfl⟩ := exists_get_of_signature (t := .tuple []) (by decide) htype
    exact ⟨.undoLast, trivial, rfl⟩
  · obtain ⟨⟨active, ⟨⟩⟩, rfl⟩ := exists_get_of_signature (t := .tuple [.boolean]) (by decide) htype
    exact ⟨.setActive active, trivial, rfl⟩
  · obtain ⟨⟨r, g, b, a, ⟨⟩⟩, rfl⟩ :=
      exists_get_of_signature (t := .tuple [.double, .double, .double, .double]) (by decide) htype
    exact ⟨.setColor ⟨r, g, b, a⟩, trivial, rfl⟩
  · obtain ⟨⟨regions, ⟨⟩⟩, rfl⟩ := exists_get_of_signature (t := .tuple [.array regionType]) (by decide) htype
    refine ⟨.setChromeRegions (List.map unpackRegion regions), fun region hregion => ?_, ?_⟩
    · obtain ⟨e, -, rfl⟩ := List.mem_map.mp hregion
      exact rectFits_unpackRegion e
    · exact congrArg (fun entries : List RegionEntry =>
        some (dbusCall "SetChromeRegions" ⟨.tuple [.array regionType], (entries, ())⟩)) (map_packRegion regions)
  · obtain ⟨⟨⟩, rfl⟩ := exists_get_of_signature (t := .tuple []) (by decide) htype
    exact ⟨.clearChromeRegions, trivial, rfl⟩
  · obtain ⟨⟨paused, ⟨⟩⟩, rfl⟩ := exists_get_of_signature (t := .tuple [.boolean]) (by decide) htype
    exact ⟨.setPaused paused, trivial, rfl⟩
  · obtain ⟨args, rfl⟩ :=
      exists_get_of_signature (t := .tuple [.uint32, .int32, .int32, .int32, .int32]) (by decide) htype
    obtain ⟨pid, x, y, w, h, ⟨⟩⟩ : BitVec 32 × BitVec 32 × BitVec 32 × BitVec 32 × BitVec 32 × Unit := args
    refine ⟨.setWindowEditorRegion pid.toNat x.toInt y.toInt w.toInt h.toInt,
      ⟨pid.isLt, fits32_toInt _, fits32_toInt _, fits32_toInt _, fits32_toInt _⟩, ?_⟩
    simp only [message, dbusCall, objectPath, interfaceName, BitVec.ofNat_toNat, BitVec.setWidth_eq, BitVec.ofInt_toInt]
    rfl
  · obtain ⟨args, rfl⟩ := exists_get_of_signature (t := .tuple [.uint32, .int32, .int32]) (by decide) htype
    obtain ⟨pid, sx, sy, ⟨⟩⟩ : BitVec 32 × BitVec 32 × BitVec 32 × Unit := args
    refine ⟨.setWindowScroll pid.toNat sx.toInt sy.toInt, ⟨pid.isLt, fits32_toInt _, fits32_toInt _⟩, ?_⟩
    simp only [message, dbusCall, objectPath, interfaceName, BitVec.ofNat_toNat, BitVec.setWidth_eq, BitVec.ofInt_toInt]
    rfl

section
variable [Scalar K] {c : Call K} {m : Message K}

/-- A message that is sent for a call runs this call. -/
theorem handleMethodCall_of_message (hfits : Fits c) (hm : message c = some m) (layer : MetaAnnotationLayer K) :
    handleMethodCall layer m.interface m.member m.parameters = some (layer.execCall c, .value) := by
  cases c with
  | clear => cases hm; rfl
  | undoLast => cases hm; rfl
  | clearChromeRegions => cases hm; rfl
  | setActive active =>
    cases hm
    simp only [handleMethodCall, dbusCall, ne_eq, not_true_eq_false, String.reduceEq, reduceIte]
    exact Variant.get_bind _
  | setPaused paused =>
    cases hm
    simp only [handleMethodCall, dbusCall, ne_eq, not_true_eq_false, String.reduceEq, reduceIte]
    exact Variant.get_bind _
  | setColor rgba =>
    cases hm
    simp only [handleMethodCall, dbusCall, ne_eq, not_true_eq_false, String.reduceEq, reduceIte]
    exact Variant.get_bind _
  | setChromeRegions regions =>
    cases hm
    have hregions := map_unpackRegion hfits
    simp only [handleMethodCall, dbusCall, ne_eq, not_true_eq_false, String.reduceEq, reduceIte]
    refine (Variant.get_bind _).trans ?_
    exact congrArg (fun regions => some (layer.setChromeRegions (some regions), Reply.value)) hregions
  | setWindowEditorRegion pid x y w h =>
    obtain ⟨hpid, hx, hy, hw, hh⟩ := hfits
    cases hm
    simp only [handleMethodCall, dbusCall, ne_eq, not_true_eq_false, String.reduceEq, reduceIte]
    refine (Variant.get_bind _).trans ?_
    simp [MetaAnnotationLayer.execCall, toNat_ofNat hpid, toInt_ofInt hx, toInt_ofInt hy, toInt_ofInt hw, toInt_ofInt hh]
  | setWindowScroll pid scrollX scrollY =>
    obtain ⟨hpid, hx, hy⟩ := hfits
    cases hm
    simp only [handleMethodCall, dbusCall, ne_eq, not_true_eq_false, String.reduceEq, reduceIte]
    refine (Variant.get_bind _).trans ?_
    simp [MetaAnnotationLayer.execCall, toNat_ofNat hpid, toInt_ofInt hx, toInt_ofInt hy]
  | _ => cases hm

end

/-- A message that is sent for a call fits the interface. -/
theorem introspected_of_message {c : Call K} {m : Message K} (hm : message c = some m) : m.Introspected := by
  have htyped : ∀ (info : MethodInfo) (t : VariantType) (x : t.Value K), info ∈ introspection →
      t.typeString = info.signature → (dbusCall info.name ⟨t, x⟩).Introspected :=
    fun info t x hinfo ht => ⟨rfl, rfl, info, hinfo, rfl, ht⟩
  cases c with
  | setActive active => cases hm; exact htyped ⟨"SetActive", ["b"]⟩ _ _ (by simp [introspection]) (by decide)
  | setPaused paused => cases hm; exact htyped ⟨"SetPaused", ["b"]⟩ _ _ (by simp [introspection]) (by decide)
  | setColor rgba =>
    cases hm
    exact htyped ⟨"SetColor", ["d", "d", "d", "d"]⟩ _ _ (by simp [introspection]) (by decide)
  | clear => cases hm; exact htyped ⟨"Clear", []⟩ _ _ (by simp [introspection]) (by decide)
  | undoLast => cases hm; exact htyped ⟨"UndoLast", []⟩ _ _ (by simp [introspection]) (by decide)
  | clearChromeRegions =>
    cases hm
    exact htyped ⟨"ClearChromeRegions", []⟩ _ _ (by simp [introspection]) (by decide)
  | setChromeRegions regions =>
    cases hm
    exact htyped ⟨"SetChromeRegions", ["a(siiii)"]⟩ _ _ (by simp [introspection]) (by decide)
  | setWindowEditorRegion pid x y w h =>
    cases hm
    exact htyped ⟨"SetWindowEditorRegion", ["u", "i", "i", "i", "i"]⟩ _ _ (by simp [introspection]) (by decide)
  | setWindowScroll pid scrollX scrollY =>
    cases hm
    exact htyped ⟨"SetWindowScroll", ["u", "i", "i"]⟩ _ _ (by simp [introspection]) (by decide)
  | _ => cases hm

/-- The messages that fit the interface are those that the senders send for calls. Each is handled
without an error and without a misread argument, and runs its call and nothing else. -/
theorem introspected_iff_runs [Scalar K] (m : Message K) : m.Introspected ↔ ∃ c : Call K, Fits c ∧ message c = some m ∧
    ∀ layer : MetaAnnotationLayer K,
      handleMethodCall layer m.interface m.member m.parameters = some (layer.execCall c, .value) := by
  constructor
  · intro h
    obtain ⟨c, hfits, hm⟩ := exists_message h
    exact ⟨c, hfits, hm, handleMethodCall_of_message hfits hm⟩
  · rintro ⟨c, -, hm, -⟩
    exact introspected_of_message hm

end Annotations.Service
