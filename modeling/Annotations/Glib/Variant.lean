import Mathlib

/-! The values that messages on D-Bus carry. A value has a type, a type is written as a string, and
two types are the same just if their strings are. -/

namespace Annotations.Glib

/-- The types of a `GVariant` that are used here. -/
inductive VariantType where
  | boolean | int32 | uint32 | double | string
  | array (element : VariantType)
  | tuple (items : List VariantType)

namespace VariantType

/-! ### Type strings -/

mutual
/-- The characters of a type string. -/
def chars : VariantType → List Char
  | .boolean => ['b']
  | .int32 => ['i']
  | .uint32 => ['u']
  | .double => ['d']
  | .string => ['s']
  | .array element => 'a' :: element.chars
  | .tuple items => '(' :: (charsOf items ++ [')'])

def charsOf : List VariantType → List Char
  | [] => []
  | item :: items => item.chars ++ charsOf items
end

/-- The type string. -/
def typeString (t : VariantType) : String := .ofList t.chars

/-- A type does not start as the end of a tuple does. -/
theorem chars_ne_close (t : VariantType) (r r' : List Char) : t.chars ++ r ≠ ')' :: r' := by
  cases t <;> simp [chars]

mutual
/-- A type can be told from what follows it. -/
theorem chars_append_inj : ∀ (t t' : VariantType) (r r' : List Char),
    t.chars ++ r = t'.chars ++ r' → t = t' ∧ r = r'
  | .boolean, t', r, r', h => by cases t' <;> simp_all [chars]
  | .int32, t', r, r', h => by cases t' <;> simp_all [chars]
  | .uint32, t', r, r', h => by cases t' <;> simp_all [chars]
  | .double, t', r, r', h => by cases t' <;> simp_all [chars]
  | .string, t', r, r', h => by cases t' <;> simp_all [chars]
  | .array element, t', r, r', h => by
    cases t' with
    | array element' =>
      have hrest : element.chars ++ r = element'.chars ++ r' := by simpa [chars] using h
      obtain ⟨rfl, hr⟩ := chars_append_inj element element' r r' hrest
      exact ⟨rfl, hr⟩
    | _ => simp [chars] at h
  | .tuple items, t', r, r', h => by
    cases t' with
    | tuple items' =>
      have hrest : charsOf items ++ ')' :: r = charsOf items' ++ ')' :: r' := by simpa [chars] using h
      obtain ⟨rfl, hr⟩ := charsOf_append_inj items items' r r' hrest
      exact ⟨rfl, hr⟩
    | _ => simp [chars] at h

/-- The items of a tuple can be told apart. -/
theorem charsOf_append_inj : ∀ (items items' : List VariantType) (r r' : List Char),
    charsOf items ++ ')' :: r = charsOf items' ++ ')' :: r' → items = items' ∧ r = r'
  | [], [], r, r', h => by simpa [charsOf] using h
  | [], item' :: items', r, r', h => by
    rw [charsOf, charsOf, List.nil_append, List.append_assoc] at h
    exact absurd h.symm (chars_ne_close item' _ _)
  | item :: items, [], r, r', h => by
    rw [charsOf, charsOf, List.nil_append, List.append_assoc] at h
    exact absurd h (chars_ne_close item _ _)
  | item :: items, item' :: items', r, r', h => by
    rw [charsOf, charsOf, List.append_assoc, List.append_assoc] at h
    obtain ⟨rfl, hrest⟩ := chars_append_inj item item' _ _ h
    obtain ⟨rfl, hr⟩ := charsOf_append_inj items items' r r' hrest
    exact ⟨rfl, hr⟩
end

theorem chars_injective : Function.Injective chars := fun t t' h =>
  (chars_append_inj t t' [] [] (by rw [h])).1

/-- Types are compared by their strings. -/
theorem typeString_injective : Function.Injective typeString := fun _ _ h =>
  chars_injective (String.ofList_injective h)

instance : DecidableEq VariantType := fun _ _ => decidable_of_iff _ chars_injective.eq_iff

/-! ### Values -/

mutual
/-- The values of a type. Doubles are numbers of any kind. -/
def Value (K : Type) : VariantType → Type
  | .boolean => Bool
  | .int32 => BitVec 32
  | .uint32 => BitVec 32
  | .double => K
  | .string => String
  | .array element => List (Value K element)
  | .tuple items => Values K items

def Values (K : Type) : List VariantType → Type
  | [] => Unit
  | item :: items => Value K item × Values K items
end

end VariantType

/-- A `GVariant`. -/
structure Variant (K : Type) where
  type : VariantType
  value : type.Value K

namespace Variant

variable {K : Type} {v : Variant K} {t : VariantType} {x : t.Value K}

/-- `g_variant_get`, which may only be asked for the type that the value has. -/
def get (v : Variant K) (t : VariantType) : Option (t.Value K) :=
  if h : v.type = t then some (h ▸ v.value) else none

@[simp] theorem get_mk : (⟨t, x⟩ : Variant K).get t = some x := dif_pos rfl

theorem get_bind {α : Type} (f : t.Value K → Option α) : ((⟨t, x⟩ : Variant K).get t).bind f = f x := by
  rw [get_mk, Option.bind_some]

theorem get_eq_some (h : v.get t = some x) : v = ⟨t, x⟩ := by
  obtain ⟨type, value⟩ := v
  unfold get at h
  split at h
  next htype =>
    obtain rfl : type = t := htype
    have hvalue : value = x := Option.some.inj h
    rw [hvalue]
  · cases h

theorem exists_get (h : v.type = t) : ∃ x, v.get t = some x := ⟨h ▸ v.value, dif_pos h⟩

end Variant

end Annotations.Glib
