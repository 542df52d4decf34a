import PowGate.Text

/-! The compact JSON texts that a serializer writes: escaped strings and integers,
with readers that recover each one in front of any continuation. Two documents that
agree as bytes therefore agree field by field. -/
namespace PowGate.Json

open Text

/-- The short escapes; other control characters are written as `\u00xx`. -/
def escape (c : UInt8) : Bytes :=
  if c = 34 then [92, 34]
  else if c = 92 then [92, 92]
  else if c = 8 then [92, 98]
  else if c = 9 then [92, 116]
  else if c = 10 then [92, 110]
  else if c = 12 then [92, 102]
  else if c = 13 then [92, 114]
  else if c < 32 then [92, 117, 48, 48, hexDigit (c.toNat / 16), hexDigit (c.toNat % 16)]
  else [c]

def chars (s : Bytes) : Bytes := s.flatMap escape

/-- A quoted string. -/
def string (s : Bytes) : Bytes := 34 :: (chars s ++ [34])

/-- An array of serialized values. -/
def array (items : List Bytes) : Bytes := 91 :: (List.intercalate [44] items ++ [93])

/-- An object of serialized values. -/
def object (fields : List (Bytes × Bytes)) : Bytes :=
  123 :: (List.intercalate [44] (fields.map fun (key, value) => string key ++ 58 :: value) ++ [125])

def hexValue (c : UInt8) : Nat := if c ≤ 57 then c.toNat - 48 else c.toNat - 87

def unescape (c : UInt8) : Option UInt8 :=
  if c = 34 then some 34
  else if c = 92 then some 92
  else if c = 98 then some 8
  else if c = 116 then some 9
  else if c = 110 then some 10
  else if c = 102 then some 12
  else if c = 114 then some 13 else none

/-- Reads string characters up to the closing quote. -/
def readChars : Bytes → Option (Bytes × Bytes)
  | 34 :: rest => some ([], rest)
  | 92 :: 117 :: 48 :: 48 :: a :: b :: rest => do
    let (s, after) ← readChars rest
    return ((hexValue a * 16 + hexValue b).toUInt8 :: s, after)
  | 92 :: c :: rest => do
    let byte ← unescape c
    let (s, after) ← readChars rest
    return (byte :: s, after)
  | c :: rest => do
    let (s, after) ← readChars rest
    return (c :: s, after)
  | [] => none

def readString : Bytes → Option (Bytes × Bytes)
  | 34 :: rest => readChars rest
  | _ => none

def readDigits (s : Bytes) : Option (Nat × Bytes) :=
  if s.takeWhile isDigit = [] then none
  else some (value (s.takeWhile isDigit), s.dropWhile isDigit)

def readInteger : Bytes → Option (Int × Bytes)
  | 45 :: rest => (readDigits rest).map fun (n, after) => (-n, after)
  | s => (readDigits s).map fun (n, after) => (n, after)

theorem escape_cases (c : UInt8) :
    (∃ d, d ≠ 117 ∧ unescape d = some c ∧ escape c = [92, d]) ∨
    (c < 32 ∧ escape c = [92, 117, 48, 48, hexDigit (c.toNat / 16), hexDigit (c.toNat % 16)]) ∨
    (c ≠ 34 ∧ c ≠ 92 ∧ ¬c < 32 ∧ escape c = [c]) := by
  unfold escape
  split
  · next h => exact .inl ⟨34, by decide, by rw [h]; rfl, rfl⟩
  split
  · next h => exact .inl ⟨92, by decide, by rw [h]; rfl, rfl⟩
  split
  · next h => exact .inl ⟨98, by decide, by rw [h]; rfl, rfl⟩
  split
  · next h => exact .inl ⟨116, by decide, by rw [h]; rfl, rfl⟩
  split
  · next h => exact .inl ⟨110, by decide, by rw [h]; rfl, rfl⟩
  split
  · next h => exact .inl ⟨102, by decide, by rw [h]; rfl, rfl⟩
  split
  · next h => exact .inl ⟨114, by decide, by rw [h]; rfl, rfl⟩
  split
  · next h => exact .inr (.inl ⟨h, rfl⟩)
  · next quote back _ _ _ _ _ printable => exact .inr (.inr ⟨quote, back, printable, rfl⟩)

theorem hexValue_control (small : c < 32) :
    (hexValue (hexDigit (c.toNat / 16)) * 16 + hexValue (hexDigit (c.toNat % 16))).toUInt8 = c := by
  have all : ∀ n : Fin 32,
      (hexValue (hexDigit (n.val / 16)) * 16 + hexValue (hexDigit (n.val % 16))).toUInt8 =
        UInt8.ofNat n.val := by decide
  have := all ⟨c.toNat, UInt8.lt_iff_toNat_lt.mp small⟩
  simpa using this

theorem readChars_escape (c : UInt8) (text : Bytes) :
    readChars (escape c ++ text) = (readChars text).map fun (s, after) => (c :: s, after) := by
  rcases escape_cases c with ⟨d, plain, back, h⟩ | ⟨small, h⟩ | ⟨quote, slash, _, h⟩
  · rw [h]
    simp only [List.cons_append,List.nil_append]
    rw [readChars]
    · simp only [back]
      cases readChars text <;> rfl
    · rintro _ _ _ rfl
      exact absurd rfl plain
  · rw [h]
    simp only [List.cons_append,List.nil_append,readChars,hexValue_control small]
    cases readChars text <;> rfl
  · rw [h]
    simp only [List.cons_append,List.nil_append]
    rw [readChars]
    · cases readChars text <;> rfl
    · exact quote
    · rintro _ _ _ rfl
      exact absurd rfl slash
    · rintro _ _ rfl
      exact absurd rfl slash

@[simp] theorem readString_string (s rest : Bytes) : readString (string s ++ rest) = some (s, rest) := by
  have inner : readChars (chars s ++ 34 :: rest) = some (s, rest) := by
    induction s with
    | nil => rfl
    | cons c more ih =>
      rw [chars,List.flatMap_cons,List.append_assoc,readChars_escape]
      rw [chars] at ih
      rw [ih]
      rfl
  simpa [string,readString] using inner

theorem string_append_inj (same : string a ++ rest = string b ++ more) : a = b ∧ rest = more := by
  have := congrArg readString same
  simpa using this

/-- A byte that is written as itself. -/
def Plain (c : UInt8) : Prop := 32 ≤ c ∧ c ≠ 34 ∧ c ≠ 92

theorem escape_plain (plain : Plain c) : escape c = [c] := by
  obtain ⟨printable, quote, slash⟩ := plain
  have control : ∀ d < 32, c ≠ d := by
    rintro d small rfl
    exact absurd printable (by simpa [UInt8.not_le] using small)
  rw [escape,if_neg quote,if_neg slash,if_neg (control 8 (by decide)),if_neg (control 9 (by decide)),
    if_neg (control 10 (by decide)),if_neg (control 12 (by decide)),if_neg (control 13 (by decide)),
    if_neg (by simpa [UInt8.not_lt] using printable)]

theorem length_string (plain : ∀ c ∈ s, Plain c) : (string s).length = s.length + 2 := by
  have same : chars s = s := by
    induction s with
    | nil => rfl
    | cons c rest ih =>
      have first := escape_plain (plain c (by simp))
      have others := ih fun d member => plain d (by simp [member])
      rw [chars] at others
      rw [chars,List.flatMap_cons,first,others]
      rfl
  simp [string,same]

/-- Text that may follow a number. -/
def Breaks (rest : Bytes) : Prop := ∀ c ∈ rest.head?, isDigit c = false

theorem takeWhile_decimal (breaks : Breaks rest) :
    (decimal n ++ rest).takeWhile isDigit = decimal n ∧
      (decimal n ++ rest).dropWhile isDigit = rest := by
  have digits : ∀ c ∈ decimal n, isDigit c = true := fun c member => decimal_digits member
  rw [List.takeWhile_append_of_pos digits,List.dropWhile_append_of_pos digits]
  cases rest with
  | nil => simp
  | cons c more =>
    have stop : isDigit c = false := breaks c rfl
    simp [stop]

theorem readDigits_decimal (breaks : Breaks rest) :
    readDigits (decimal n ++ rest) = some (n, rest) := by
  obtain ⟨taken, left⟩ := takeWhile_decimal (n := n) breaks
  rw [readDigits,taken,left,if_neg (decimal_ne_nil n),value_decimal]

@[simp] theorem readInteger_integer (i : Int) (breaks : Breaks rest) :
    readInteger (integer i ++ rest) = some (i, rest) := by
  cases i with
  | ofNat n =>
    have plain : ∀ more, integer (Int.ofNat n) ++ rest ≠ 45 :: more := by
      intro more same
      obtain ⟨c, tail, shape⟩ := List.exists_cons_of_ne_nil (decimal_ne_nil n)
      have digit : isDigit c = true := decimal_digits (by rw [shape]; simp)
      simp only [integer,shape,List.cons_append,List.cons.injEq] at same
      rw [same.1] at digit
      exact absurd digit (by decide)
    rw [readInteger]
    · simp only [integer,readDigits_decimal breaks]
      rfl
    · exact plain
  | negSucc n =>
    simp only [integer,List.cons_append,readInteger,readDigits_decimal breaks]
    rfl

theorem integer_append_inj (same : integer i ++ rest = integer j ++ more)
    (breaks : Breaks rest) (stops : Breaks more) : i = j ∧ rest = more := by
  have := congrArg readInteger same
  simpa [breaks,stops] using this

end PowGate.Json
