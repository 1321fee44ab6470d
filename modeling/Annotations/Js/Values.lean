import Mathlib

/-! Values of JavaScript, as far as JSON makes them: reading and setting a field, iterating, and the
exceptions of these. The numbers and what becomes of a value that is used as one are
parameters. -/

namespace Annotations.Js

inductive Exception where
  | typeError
  | syntaxError
  deriving DecidableEq

/-- A string is a list of UTF-16 code units. Fields are in order, each name once; an array has fields
only where some were set on it. -/
inductive Value (N : Type) where
  | undefined
  | null
  | bool (b : Bool)
  | number (n : N)
  | string (units : List UInt16)
  | array (items : List (Value N)) (fields : List (String × Value N))
  | object (fields : List (String × Value N))

/-- The numbers, how a value is used as one, and JSON. -/
structure Engine (N : Type) where
  literal : ℚ → N
  add : N → N → N
  sub : N → N → N
  mul : N → N → N
  div : N → N → N
  lt : N → N → Bool
  le : N → N → Bool
  eq : N → N → Bool
  infinity : N
  /-- `ToNumber`, which throws on an object that cannot be made a primitive value. -/
  toNumber : Value N → Except Exception N
  /-- `v + n`, a concatenation for many values that are not numbers. -/
  plus : Value N → N → Except Exception (Value N)
  /-- `JSON.parse` -/
  parse : String → Except Exception (Value N)
  /-- `JSON.stringify` -/
  stringify : Value N → String
  toNumber_number : ∀ n, toNumber (.number n) = .ok n
  plus_number : ∀ a b, plus (.number a) b = .ok (.number (add a b))

variable {N α β ε : Type}

/-! ### Computations that may throw -/

/-- The computation returns, with a value in `P`. -/
def Yields (x : Except ε α) (P : α → Prop) : Prop := ∃ a, x = .ok a ∧ P a

section Yields

variable {x : Except ε α} {f : α → Except ε β} {P : α → Prop} {Q : β → Prop} {a : α} {l : List α}

@[simp] theorem ok_bind (a : α) (f : α → Except ε β) : (Except.ok a >>= f) = f a := rfl

theorem yields_ok (h : P a) : Yields (.ok a : Except ε α) P := ⟨a, rfl, h⟩

theorem yields_pure (h : P a) : Yields (pure a : Except ε α) P := ⟨a, rfl, h⟩

theorem Yields.bind (hx : Yields x P) (hf : ∀ a, P a → Yields (f a) Q) : Yields (x >>= f) Q := by
  obtain ⟨a, rfl, ha⟩ := hx
  exact hf a ha

theorem Yields.mono {P' : α → Prop} (hx : Yields x P) (h : ∀ a, P a → P' a) : Yields x P' := by
  obtain ⟨a, hxa, ha⟩ := hx
  exact ⟨a, hxa, h a ha⟩

theorem yields_mapM (h : ∀ a ∈ l, Yields (f a) Q) : Yields (l.mapM f) fun bs => ∀ b ∈ bs, Q b := by
  induction l with
  | nil => exact yields_pure (by simp)
  | cons a l ih =>
    rw [List.mapM_cons]
    refine (h a (by simp)).bind fun b hb => ?_
    refine (ih fun c hc => h c (List.mem_cons_of_mem _ hc)).bind fun bs hbs => ?_
    exact yields_pure (by simpa using ⟨hb, hbs⟩)

theorem yields_anyM {p : α → Except ε Bool} (h : ∀ a ∈ l, Yields (p a) fun _ => True) :
    Yields (l.anyM p) fun _ => True := by
  induction l with
  | nil => exact yields_pure trivial
  | cons a l ih =>
    rw [List.anyM_cons]
    refine (h a (by simp)).bind fun b _ => ?_
    cases b with
    | false => exact ih fun c hc => h c (List.mem_cons_of_mem _ hc)
    | true => exact yields_pure trivial

theorem yields_foldlM {f : β → α → Except ε β} {b : β} (hb : Q b)
    (h : ∀ b, Q b → ∀ a ∈ l, Yields (f b a) Q) : Yields (l.foldlM f b) Q := by
  induction l generalizing b with
  | nil => exact yields_pure hb
  | cons a l ih =>
    rw [List.foldlM_cons]
    exact (h b hb a (by simp)).bind fun b' hb' => ih hb' fun b hb c hc => h b hb c (List.mem_cons_of_mem _ hc)

theorem yields_filterM {p : α → Except ε Bool} (h : ∀ a ∈ l, Yields (p a) fun _ => True) :
    Yields (l.filterM p) fun as => ∀ a ∈ as, a ∈ l := by
  have haux : ∀ (l acc : List α), (∀ a ∈ l, Yields (p a) fun _ => True) →
      Yields (l.filterAuxM p acc) fun as => ∀ a ∈ as, a ∈ acc ∨ a ∈ l := by
    intro l
    induction l with
    | nil => exact fun acc _ => yields_pure fun a ha => .inl ha
    | cons c l ih =>
      intro acc h
      rw [List.filterAuxM]
      refine (h c (by simp)).bind fun b _ => ?_
      refine (ih _ fun a ha => h a (List.mem_cons_of_mem _ ha)).mono fun as has a ha => ?_
      have hor := has a ha
      cases b <;> simp at hor ⊢ <;> tauto
  rw [List.filterM]
  refine (haux l [] h).bind fun as has => yields_pure fun a ha => ?_
  simpa using has a (List.mem_reverse.mp ha)

end Yields

/-! ### Fields -/

namespace Value

variable (v : Value N) (name : String)

/-- The fields that a value has. -/
def fields : Value N → List (String × Value N)
  | .array _ fields | .object fields => fields
  | _ => []

/-- The field under a name that no prototype has. -/
def field : Value N := (v.fields.lookup name).getD .undefined

/-- `v.name`. -/
def get : Except Exception (Value N) :=
  match v with
  | .undefined | .null => .error .typeError
  | v => .ok (v.field name)

/-- Fields with one of them set. -/
def setField (name : String) (value : Value N) : List (String × Value N) → List (String × Value N)
  | [] => [(name, value)]
  | (key, old) :: fields => if key = name then (key, value) :: fields else (key, old) :: setField name value fields

/-- `v.name = value` in strict mode. -/
def set (value : Value N) : Except Exception (Value N) :=
  match v with
  | .array items fields => .ok (.array items (setField name value fields))
  | .object fields => .ok (.object (setField name value fields))
  | _ => .error .typeError

/-- `v ?? d`. -/
def orElse (d : Value N) : Value N :=
  match v with
  | .undefined | .null => d
  | v => v

/-- The code points of a string: a surrogate pair is one. -/
def codePoints : List UInt16 → List (List UInt16)
  | [] => []
  | [u] => [[u]]
  | u :: w :: units =>
    if 0xD800 ≤ u ∧ u < 0xDC00 ∧ 0xDC00 ≤ w ∧ w < 0xE000 then [u, w] :: codePoints units
    else [u] :: codePoints (w :: units)

/-- What `[...v]` and `for (… of v)` iterate over. -/
def iterate : Value N → Except Exception (List (Value N))
  | .string units => .ok ((codePoints units).map .string)
  | .array items _ => .ok items
  | _ => .error .typeError

/-- `for (… of v)` with a body that changes the element. -/
def forOf (body : Value N → Except Exception (Value N)) (v : Value N) : Except Exception (Value N) := do
  let items ← (← v.iterate).mapM body
  match v with
  | .array _ fields => .ok (.array items fields)
  | v => .ok v

/-- `v.map(f)`: only an array has this method. -/
def map (f : Value N → Except Exception (Value N)) : Value N → Except Exception (Value N)
  | .array items _ => do .ok (.array (← items.mapM f) [])
  | _ => .error .typeError

/-- `v === n`. -/
def isNumber (js : Engine N) (n : N) : Bool :=
  match v with
  | .number m => js.eq m n
  | _ => false

def truthy (js : Engine N) : Value N → Bool
  | .undefined | .null => false
  | .bool b => b
  | .number n => js.eq n n && !js.eq n (js.literal 0)
  | .string units => !units.isEmpty
  | .array _ _ | .object _ => true

/-- `v?.length` is truthy. -/
def hasLength (js : Engine N) : Value N → Bool
  | .string units => !units.isEmpty
  | .array items _ => !items.isEmpty
  | v => (v.field "length").truthy js

/-- `v.length === 1`. -/
def lengthIsOne (js : Engine N) : Value N → Bool
  | .string units => units.length = 1
  | .array items _ => items.length = 1
  | v => (v.field "length").isNumber js (js.literal 1)

/-- The values `v[i]` for `i` from 0 as long as `i < v.length`. Of an object with a length of its own
they end with the first that is missing. -/
def elements (js : Engine N) : Value N → Except Exception (List (Value N))
  | .string units => .ok (units.map fun u => .string [u])
  | .array items _ => .ok items
  | v => do
    let length ← js.toNumber (v.field "length")
    .ok (((List.range (v.fields.length + 2)).takeWhile fun i => js.lt (js.literal i) length).map fun i =>
      v.field (toString i))

variable {v name} {value : Value N} {other : String} {x : Value N}

@[simp] theorem field_array (items : List (Value N)) (fields : List (String × Value N)) :
    (array items fields).field name = (fields.lookup name).getD .undefined := rfl

@[simp] theorem field_object (fields : List (String × Value N)) :
    (object fields).field name = (fields.lookup name).getD .undefined := rfl

theorem lookup_setField (fields : List (String × Value N)) :
    (setField name value fields).lookup other = if other = name then some value else fields.lookup other := by
  induction fields with
  | nil =>
    rw [setField]
    split_ifs with hother
    · simp [List.lookup, hother]
    · have hne : (other == name) = false := by simpa using hother
      simp [List.lookup, hne]
  | cons f fields ih =>
    obtain ⟨key, old⟩ := f
    rw [setField]
    split_ifs with hkey hother hother
    · subst hkey hother
      simp
    · subst hkey
      have hne : (other == key) = false := by simpa using hother
      simp [List.lookup, hne]
    · subst hother
      have hne : (other == key) = false := by simpa using Ne.symm hkey
      simp [List.lookup, hne, ih]
    · simp [List.lookup, ih, hother]

/-- A value with a field that is there can be read. -/
theorem get_of_field (h : v.field name = x) (hx : x ≠ .undefined) (other : String) :
    v.get other = .ok (v.field other) := by
  cases v with
  | undefined => exact absurd h.symm hx
  | null => exact absurd h.symm hx
  | _ => rfl

theorem field_of_get (h : v.get name = .ok x) : v.field name = x := by
  cases v with
  | undefined => cases h
  | null => cases h
  | _ => exact Except.ok.inj h

/-- A value with a field that is there can be written. -/
theorem set_of_field (h : v.field name = x) (hx : x ≠ .undefined) (other : String) (value : Value N) :
    ∃ v', v.set other value = .ok v' ∧ ∀ key, v'.field key = if key = other then value else v.field key := by
  cases v with
  | array items fields =>
    refine ⟨_, rfl, fun key => ?_⟩
    rw [field_array, lookup_setField, field_array]
    split_ifs <;> rfl
  | object fields =>
    refine ⟨_, rfl, fun key => ?_⟩
    rw [field_object, lookup_setField, field_object]
    split_ifs <;> rfl
  | _ => exact absurd h.symm hx

end Value

end Annotations.Js
