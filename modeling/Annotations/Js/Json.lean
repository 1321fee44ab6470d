import Annotations.Js.ParseInt
import Annotations.Text.Decimal

/-! `JSON.parse`. Each call of the reader takes a character at least, so the length of the text is fuel
enough. An object of numbers is read as it was printed. -/

namespace Annotations.Js

open Text

/-- A value. A string is the list of its UTF-16 units. -/
inductive Json (N : Type) where
  | null
  | boolean (b : Bool)
  | number (x : N)
  | string (units : List ℕ)
  | array (items : List (Json N))
  | object (members : List (List ℕ × Json N))

/-! ### Characters -/

/-- White space between tokens. -/
def isJsonSpace (c : Char) : Bool := c = ' ' || c = '\t' || c = '\n' || c = '\r'

def skipSpace : List Char → List Char := List.dropWhile isJsonSpace

/-- The UTF-16 units of a character. -/
def utf16 (c : Char) : List ℕ :=
  let n := c.toNat
  if n < 0x10000 then [n] else [0xd800 + (n - 0x10000) / 0x400, 0xdc00 + (n - 0x10000) % 0x400]

def hexDigit (c : Char) : Option ℕ :=
  if c.isDigit then some (c.toNat - 48)
  else if 'a' ≤ c ∧ c ≤ 'f' then some (c.toNat - 87)
  else if 'A' ≤ c ∧ c ≤ 'F' then some (c.toNat - 55)
  else none

/-- The unit that a backslash and a character stand for. -/
def escaped : Char → Option ℕ
  | '"' => some 0x22
  | '\\' => some 0x5c
  | '/' => some 0x2f
  | 'b' => some 0x8
  | 'f' => some 0xc
  | 'n' => some 0xa
  | 'r' => some 0xd
  | 't' => some 0x9
  | _ => none

/-- A string from behind its opening quote. -/
def parseString : List Char → Option (List ℕ × List Char)
  | '"' :: rest => some ([], rest)
  | '\\' :: 'u' :: a :: b :: c :: d :: rest => do
    let digits ← [a, b, c, d].mapM hexDigit
    let (units, rest) ← parseString rest
    some (Nat.ofDigits 16 digits.reverse :: units, rest)
  | '\\' :: c :: rest => do
    let unit ← escaped c
    let (units, rest) ← parseString rest
    some (unit :: units, rest)
  | c :: rest => do
    guard (c ≠ '\\' ∧ 0x20 ≤ c.toNat)
    let (units, rest) ← parseString rest
    some (utf16 c ++ units, rest)
  | [] => none

/-! ### Numerals -/

/-- The digits at the start, one at least. -/
def scanDigits (chars : List Char) : Option (List Char × List Char) :=
  let digits := chars.takeWhile Char.isDigit
  if digits.isEmpty then none else some (digits, chars.dropWhile Char.isDigit)

/-- The part before the point starts with a zero only if it is one. -/
def scanInt : List Char → Option (List Char × List Char)
  | '0' :: rest => some (['0'], rest)
  | chars => scanDigits chars

def scanFraction : List Char → Option (List Char × List Char)
  | '.' :: rest => scanDigits rest
  | chars => some ([], chars)

def scanSigned : List Char → Option (ℤ × List Char)
  | '-' :: rest => (scanDigits rest).map fun (digits, rest) => (-(Nat.ofDigitChars 10 digits 0 : ℤ), rest)
  | '+' :: rest => (scanDigits rest).map fun (digits, rest) => ((Nat.ofDigitChars 10 digits 0 : ℤ), rest)
  | rest => (scanDigits rest).map fun (digits, rest) => ((Nat.ofDigitChars 10 digits 0 : ℤ), rest)

def scanExponent : List Char → Option (ℤ × List Char)
  | 'e' :: rest => scanSigned rest
  | 'E' :: rest => scanSigned rest
  | chars => some (0, chars)

/-- A numeral without its sign. -/
def parseMagnitude (chars : List Char) : Option (ℚ × List Char) := do
  let (int, chars) ← scanInt chars
  let (fraction, chars) ← scanFraction chars
  let (exponent, chars) ← scanExponent chars
  some (Nat.ofDigitChars 10 (int ++ fraction) 0 * 10 ^ (exponent - fraction.length), chars)

def parseNumber : List Char → Option (ℚ × List Char)
  | '-' :: chars => (parseMagnitude chars).map fun (x, rest) => (-x, rest)
  | chars => parseMagnitude chars

/-! ### Values -/

section Parse

variable {N : Type} (number : ℚ → N)

mutual
def parseValue : ℕ → List Char → Option (Json N × List Char)
  | 0, _ => none
  | fuel + 1, chars =>
    match skipSpace chars with
    | '{' :: rest =>
      match skipSpace rest with
      | '}' :: rest => some (.object [], rest)
      | rest => (parseMembers fuel rest).map fun (members, rest) => (.object members, rest)
    | '[' :: rest =>
      match skipSpace rest with
      | ']' :: rest => some (.array [], rest)
      | rest => (parseItems fuel rest).map fun (items, rest) => (.array items, rest)
    | '"' :: rest => (parseString rest).map fun (units, rest) => (.string units, rest)
    | 't' :: 'r' :: 'u' :: 'e' :: rest => some (.boolean true, rest)
    | 'f' :: 'a' :: 'l' :: 's' :: 'e' :: rest => some (.boolean false, rest)
    | 'n' :: 'u' :: 'l' :: 'l' :: rest => some (.null, rest)
    | rest => (parseNumber rest).map fun (x, rest) => (.number (number x), rest)

/-- The members of an object, and its closing brace. -/
def parseMembers : ℕ → List Char → Option (List (List ℕ × Json N) × List Char)
  | 0, _ => none
  | fuel + 1, chars =>
    match skipSpace chars with
    | '"' :: rest => do
      let (key, rest) ← parseString rest
      match skipSpace rest with
      | ':' :: rest =>
        let (value, rest) ← parseValue fuel rest
        match skipSpace rest with
        | ',' :: rest => (parseMembers fuel rest).map fun (members, rest) => ((key, value) :: members, rest)
        | '}' :: rest => some ([(key, value)], rest)
        | _ => none
      | _ => none
    | _ => none

/-- The items of an array, and its closing bracket. -/
def parseItems : ℕ → List Char → Option (List (Json N) × List Char)
  | 0, _ => none
  | fuel + 1, chars => do
    let (value, rest) ← parseValue fuel chars
    match skipSpace rest with
    | ',' :: rest => (parseItems fuel rest).map fun (items, rest) => (value :: items, rest)
    | ']' :: rest => some ([value], rest)
    | _ => none
end

/-- `JSON.parse`, and `none` for a `SyntaxError`. -/
def jsonParse (text : List Char) : Option (Json N) :=
  match parseValue number (text.length + 1) text with
  | some (value, rest) => if (skipSpace rest).isEmpty then some value else none
  | none => none

end Parse

/-- `value.key`, for a key that no prototype has: `none` where the access throws, and `some none` for `undefined`. A key
that is given twice has the last value. -/
def Json.get {N : Type} (value : Json N) (key : List Char) : Option (Option (Json N)) :=
  match value with
  | .null => none
  | .object members => some ((members.reverse.find? fun member => member.1 = key.flatMap utf16).map Prod.snd)
  | _ => some none

/-! ### What is read of a numeral -/

/-- A numeral ends before this. -/
def EndsNumeral (rest : List Char) : Prop := ∀ c ∈ rest.head?, c.isDigit = false ∧ c ≠ '.' ∧ c ≠ 'e' ∧ c ≠ 'E'

/-- The text is read as the number, whatever ends it. -/
structure Numeral (text : List Char) (x : ℚ) : Prop where
  starts : ∃ c chars, text = c :: chars ∧ (c.isDigit = true ∨ c = '-')
  reads : ∀ rest, EndsNumeral rest → parseNumber (text ++ rest) = some (x, rest)

variable {digits rest : List Char} {n places : ℕ}

theorem scanDigits_append (hdigits : ∀ c ∈ digits, c.isDigit) (hne : digits ≠ [])
    (hrest : ∀ c ∈ rest.head?, c.isDigit = false) : scanDigits (digits ++ rest) = some (digits, rest) := by
  have hends : rest.takeWhile Char.isDigit = [] ∧ rest.dropWhile Char.isDigit = rest := by
    cases rest with
    | nil => exact ⟨rfl, rfl⟩
    | cons c rest =>
      have hc := hrest c rfl
      exact ⟨List.takeWhile_cons_of_neg (by simp [hc]), List.dropWhile_cons_of_neg (by simp [hc])⟩
  unfold scanDigits
  rw [List.takeWhile_append_of_pos hdigits, List.dropWhile_append_of_pos hdigits, hends.1, hends.2, List.append_nil]
  simp [hne]

theorem isDigit_toDigits {c : Char} (h : c ∈ Nat.toDigits 10 n) : c.isDigit :=
  Nat.isDigit_of_mem_toDigits (by decide) (by decide) h

/-- Only zero is written with a zero in front. -/
theorem toDigits_eq_cons (hn : 0 < n) : ∃ c chars, Nat.toDigits 10 n = c :: chars ∧ c ≠ '0' := by
  induction n using Nat.strong_induction_on with
  | _ n ih =>
    by_cases hlt : n < 10
    · exact ⟨_, [], Nat.toDigits_of_lt_base hlt, by simp; omega⟩
    · obtain ⟨c, chars, hchars, hc⟩ := ih (n / 10) (by omega) (by omega)
      exact ⟨c, chars ++ [Nat.digitChar (n % 10)], by rw [Nat.toDigits_of_base_le (by decide) (by omega), hchars]; rfl, hc⟩

theorem scanInt_toDigits (hrest : ∀ c ∈ rest.head?, c.isDigit = false) :
    scanInt (Nat.toDigits 10 n ++ rest) = some (Nat.toDigits 10 n, rest) := by
  rcases Nat.eq_zero_or_pos n with rfl | hn
  · rw [Nat.toDigits_zero]
    rfl
  · obtain ⟨c, chars, hchars, hc⟩ := toDigits_eq_cons hn
    have hscan := scanDigits_append (fun c h => isDigit_toDigits h) (Nat.toDigits_ne_nil (n := n) (b := 10)) hrest
    rw [hchars] at hscan ⊢
    rw [List.cons_append] at hscan ⊢
    unfold scanInt
    split
    next hzero => exact absurd (List.cons.inj hzero).1 hc
    · exact hscan

theorem scanFraction_of_ends (hrest : EndsNumeral rest) : scanFraction rest = some ([], rest) := by
  unfold scanFraction
  split
  · exact absurd rfl (hrest '.' rfl).2.1
  · rfl

theorem scanExponent_of_ends (hrest : EndsNumeral rest) : scanExponent rest = some (0, rest) := by
  unfold scanExponent
  split
  · exact absurd rfl (hrest 'e' rfl).2.2.1
  · exact absurd rfl (hrest 'E' rfl).2.2.2
  · rfl

/-- An unsigned numeral is not taken for a signed one. -/
theorem parseNumber_toDigits (chars : List Char) :
    parseNumber (Nat.toDigits 10 n ++ chars) = parseMagnitude (Nat.toDigits 10 n ++ chars) := by
  obtain ⟨c, digits, hdigits⟩ := List.exists_cons_of_ne_nil (Nat.toDigits_ne_nil (n := n) (b := 10))
  have hc : c.isDigit := isDigit_toDigits (n := n) (by simp [hdigits])
  rw [hdigits, List.cons_append]
  unfold parseNumber
  split
  next hminus =>
    obtain ⟨rfl, -⟩ := List.cons.inj hminus
    exact absurd hc (by decide)
  · rfl

theorem parseMagnitude_toDigits (hrest : EndsNumeral rest) :
    parseMagnitude (Nat.toDigits 10 n ++ rest) = some ((n : ℚ), rest) := by
  unfold parseMagnitude
  rw [scanInt_toDigits fun c hc => (hrest c hc).1]
  simp [scanFraction_of_ends hrest, scanExponent_of_ends hrest]

theorem starts_toDigits (chars : List Char) :
    ∃ c chars', Nat.toDigits 10 n ++ chars = c :: chars' ∧ (c.isDigit = true ∨ c = '-') := by
  obtain ⟨c, digits, hdigits⟩ := List.exists_cons_of_ne_nil (Nat.toDigits_ne_nil (n := n) (b := 10))
  exact ⟨c, digits ++ chars, by rw [hdigits, List.cons_append], .inl (isDigit_toDigits (n := n) (by simp [hdigits]))⟩

theorem numeral_printInt (n : ℤ) : Numeral (printInt n) n := by
  cases n with
  | ofNat n =>
    refine ⟨?_, fun rest hrest => ?_⟩
    · have hstarts := starts_toDigits (n := n) []
      rwa [List.append_nil] at hstarts
    · change parseNumber (Nat.toDigits 10 n ++ rest) = _
      rw [parseNumber_toDigits, parseMagnitude_toDigits hrest]
      rfl
  | negSucc n =>
    refine ⟨⟨'-', _, rfl, .inr rfl⟩, fun rest hrest => ?_⟩
    change (parseMagnitude (Nat.toDigits 10 (n + 1) ++ rest)).map _ = _
    rw [parseMagnitude_toDigits hrest]
    simp [Int.cast_negSucc]

/-- A number that is printed with some places is read as the nearest one that has so many. -/
theorem numeral_printFixed (hplaces : 0 < places) {x : ℚ} (hx : 0 ≤ x) :
    Numeral (printFixed places x) (toPlaces places x) := by
  have hrounded : 0 ≤ roundHalfEven (x * 10 ^ places) := by
    have hmono := roundHalfEven_mono (show (0 : ℚ) ≤ x * 10 ^ places by positivity)
    have hzero : roundHalfEven 0 = 0 := by exact_mod_cast roundHalfEven_intCast 0
    omega
  obtain ⟨n, hn⟩ := Int.eq_ofNat_of_zero_le hrounded
  have hprinted : printFixed places x = Nat.toDigits 10 (n / 10 ^ places) ++ '.' :: lastDigits places n := by
    unfold printFixed
    rw [hn, Int.toNat_natCast]
  rw [hprinted]
  refine ⟨starts_toDigits _, fun rest hrest => ?_⟩
  have hfraction : scanFraction ('.' :: lastDigits places n ++ rest) = some (lastDigits places n, rest) := by
    refine scanDigits_append (fun c hc => isDigit_of_mem_lastDigits hc) ?_ fun c hc => (hrest c hc).1
    exact List.ne_nil_of_length_pos (by rwa [length_lastDigits])
  rw [List.append_assoc, parseNumber_toDigits]
  unfold parseMagnitude
  rw [scanInt_toDigits (by simp)]
  simp only [Option.bind_eq_bind, Option.bind_some, hfraction, scanExponent_of_ends hrest]
  rw [ofDigitChars_digits, length_lastDigits, toPlaces, hn, zero_sub, zpow_neg, zpow_natCast]
  rfl

/-! ### What is read of an object -/

/-- A member whose value is a number. -/
structure NumberMember where
  key : List Char
  text : List Char
  value : ℚ
  plain : ∀ c ∈ key, c ≠ '"' ∧ c ≠ '\\' ∧ 0x20 ≤ c.toNat
  numeral : Numeral text value

namespace NumberMember

def print (m : NumberMember) : List Char := '"' :: (m.key ++ '"' :: ':' :: m.text)

/-- The members after the first one, and the closing brace. -/
def printRest : List NumberMember → List Char
  | [] => ['}']
  | m :: members => ',' :: (m.print ++ printRest members)

def printObject (m : NumberMember) (members : List NumberMember) : List Char := '{' :: (m.print ++ printRest members)

def read {N : Type} (number : ℚ → N) (m : NumberMember) : List ℕ × Json N :=
  (m.key.flatMap utf16, .number (number m.value))

end NumberMember

theorem parseString_plain {key : List Char} (hplain : ∀ c ∈ key, c ≠ '"' ∧ c ≠ '\\' ∧ 0x20 ≤ c.toNat)
    (rest : List Char) :
    parseString (key ++ '"' :: rest) = some (key.flatMap utf16, rest) := by
  induction key with
  | nil => rfl
  | cons c key ih =>
    obtain ⟨hquote, hbackslash, hspace⟩ := hplain c List.mem_cons_self
    have htail := ih fun c hc => hplain c (List.mem_cons_of_mem _ hc)
    rw [List.cons_append, parseString.eq_4 _ _ hquote (fun _ _ _ _ _ h _ => hbackslash h) (fun _ _ h _ => hbackslash h), htail]
    simp [hbackslash, hspace, guard]

theorem skipSpace_of_head {c : Char} (h : isJsonSpace c = false) (chars : List Char) :
    skipSpace (c :: chars) = c :: chars := List.dropWhile_cons_of_neg (by simp [h])

variable {N : Type} {number : ℚ → N} {fuel : ℕ}

theorem parseValue_numeral {text : List Char} {x : ℚ} (h : Numeral text x) (hrest : EndsNumeral rest) :
    parseValue number (fuel + 1) (text ++ rest) = some (.number (number x), rest) := by
  obtain ⟨c, chars, rfl, hc⟩ := h.starts
  have hreads := h.reads rest hrest
  have hne : ∀ d : Char, d.isDigit = false → d ≠ '-' → c ≠ d := by
    rintro d hdigit hminus rfl
    rcases hc with hc | rfl
    · exact absurd hc (by simp [hdigit])
    · exact hminus rfl
  have hspace : isJsonSpace c = false := by
    simp [isJsonSpace, hne ' ' rfl (by decide), hne '\t' rfl (by decide), hne '\n' rfl (by decide), hne '\r' rfl (by decide)]
  rw [List.cons_append] at hreads ⊢
  rw [parseValue, skipSpace_of_head hspace]
  -- neither a bracket, a quote nor a literal starts with a digit or a sign
  split
  next heq => exact absurd (List.cons.inj heq).1 (hne _ rfl (by decide))
  next heq => exact absurd (List.cons.inj heq).1 (hne _ rfl (by decide))
  next heq => exact absurd (List.cons.inj heq).1 (hne _ rfl (by decide))
  next heq => exact absurd (List.cons.inj heq).1 (hne _ rfl (by decide))
  next heq => exact absurd (List.cons.inj heq).1 (hne _ rfl (by decide))
  next heq => exact absurd (List.cons.inj heq).1 (hne _ rfl (by decide))
  · rw [hreads]
    rfl

open NumberMember

/-- The members of an object of numbers are read one after the other. -/
theorem parseMembers_print (m : NumberMember) (members : List NumberMember) (hfuel : members.length + 2 ≤ fuel)
    (rest : List Char) : parseMembers number fuel (m.print ++ (printRest members ++ rest)) =
      some ((m :: members).map (read number), rest) := by
  induction members generalizing m fuel with
  | nil =>
    obtain ⟨fuel, rfl⟩ : ∃ f, fuel = f + 2 := ⟨fuel - 2, by simp at hfuel; omega⟩
    have hvalue : parseValue number (fuel + 1) (m.text ++ '}' :: rest) = some (.number (number m.value), '}' :: rest) :=
      parseValue_numeral m.numeral (by simp [EndsNumeral])
    have hkey := parseString_plain m.plain (':' :: (m.text ++ '}' :: rest))
    simp only [print, printRest, List.cons_append, List.nil_append, List.append_assoc]
    rw [parseMembers, skipSpace_of_head rfl]
    simp only [hkey, Option.bind_eq_bind, Option.bind_some, skipSpace_of_head (c := ':') rfl, hvalue,
      skipSpace_of_head (c := '}') rfl]
    rfl
  | cons m' members ih =>
    obtain ⟨fuel, rfl⟩ : ∃ f, fuel = f + 2 := ⟨fuel - 2, by simp at hfuel; omega⟩
    have hfollowing := ih m' (show members.length + 2 ≤ fuel + 1 by simp at hfuel; omega)
    have hvalue : parseValue number (fuel + 1) (m.text ++ ',' :: (m'.print ++ (printRest members ++ rest))) =
        some (.number (number m.value), ',' :: (m'.print ++ (printRest members ++ rest))) :=
      parseValue_numeral m.numeral (by simp [EndsNumeral])
    have hkey := parseString_plain m.plain (':' :: (m.text ++ ',' :: (m'.print ++ (printRest members ++ rest))))
    have hprinted : m.print ++ (printRest (m' :: members) ++ rest) =
        '"' :: (m.key ++ '"' :: ':' :: (m.text ++ ',' :: (m'.print ++ (printRest members ++ rest)))) := by
      simp [print, printRest]
    rw [hprinted, parseMembers, skipSpace_of_head rfl]
    simp only [hkey, Option.bind_eq_bind, Option.bind_some, skipSpace_of_head (c := ':') rfl, hvalue,
      skipSpace_of_head (c := ',') rfl, hfollowing]
    rfl

theorem length_le_printRest (members : List NumberMember) : members.length ≤ (printRest members).length := by
  induction members with
  | nil => simp
  | cons m members ih =>
    simp only [printRest, List.length_cons, List.length_append]
    omega

/-- `JSON.parse` reads an object of numbers as it was printed. -/
theorem jsonParse_printObject (m : NumberMember) (members : List NumberMember) :
    jsonParse number (printObject m members) = some (.object ((m :: members).map (read number))) := by
  have hfuel : members.length + 2 ≤ (printObject m members).length := by
    have hrest := length_le_printRest members
    simp only [printObject, print, List.length_cons, List.length_append]
    omega
  have hmembers : parseMembers number _ _ = some ((m :: members).map (read number), []) :=
    parseMembers_print m members hfuel []
  rw [List.append_nil] at hmembers
  have hvalue : parseValue number ((printObject m members).length + 1) (printObject m members) =
      some (.object ((m :: members).map (read number)), []) := by
    rw [parseValue]
    simp only [printObject, print, List.cons_append, skipSpace_of_head (c := '{') rfl, skipSpace_of_head (c := '"') rfl]
    simp only [printObject, print, List.cons_append] at hmembers
    change Option.map _ (parseMembers number _ _) = _
    rw [hmembers]
    rfl
  unfold jsonParse
  rw [hvalue]
  rfl

end Annotations.Js
