import PowGate.Json

/-! A reader of JSON texts. A lexer takes one byte at a time and decodes strings as it goes; the
tokens are then read as one value. Whatever keeps the tokens of a text keeps its value. -/
namespace PowGate.Json

open Text

/-- What a text denotes. A number is kept as it is spelled. -/
inductive Value where
  | null
  | bool (b : Bool)
  | number (text : Bytes)
  | string (s : Bytes)
  | array (items : List Value)
  | object (fields : List (Bytes × Value))

inductive Token where
  | openObject
  | closeObject
  | openArray
  | closeArray
  | colon
  | comma
  | string (s : Bytes)
  | scalar (value : Value)

/-- Where the lexer stands between two bytes. -/
inductive Mode where
  | between
  | bare (text : Bytes)
  | string (s : Bytes)
  | escape (s : Bytes)
  /-- In a `\u` escape, with the digits so far and the high surrogate it completes, if any. -/
  | unicode (s : Bytes) (high : Option Nat) (digits : List Nat)
  /-- After a high surrogate: the escape of the low one must follow. -/
  | pair (s : Bytes) (high : Nat)
  | pairEscape (s : Bytes) (high : Nat)

structure Lexer where
  tokens : List Token
  mode : Mode

def Lexer.push (lexer : Lexer) (token : Token) : Lexer := ⟨lexer.tokens ++ [token], .between⟩

def Lexer.to (lexer : Lexer) (mode : Mode) : Lexer := { lexer with mode }

def isSpace (c : UInt8) : Bool := c ∈ [32, 9, 10, 13]

/-- The bytes of numbers and literals. -/
def isBare (c : UInt8) : Bool := isDigit c || (97 ≤ c && c ≤ 122) || c ∈ [43, 45, 46, 69]

def isExponent : Bytes → Bool
  | [] => true
  | e :: rest => (e = 101 || e = 69) &&
    let digits := match rest with
      | sign :: digits => if sign = 43 ∨ sign = 45 then digits else sign :: digits
      | [] => []
    digits ≠ [] && digits.all isDigit

def isFraction : Bytes → Bool
  | 46 :: rest => rest.takeWhile isDigit ≠ [] && isExponent (rest.dropWhile isDigit)
  | rest => isExponent rest

def isMagnitude : Bytes → Bool
  | 48 :: rest => isFraction rest
  | c :: rest => isDigit c && isFraction (rest.dropWhile isDigit)
  | [] => false

def isNumber : Bytes → Bool
  | 45 :: rest => isMagnitude rest
  | text => isMagnitude text

def scalar (text : Bytes) : Option Value :=
  if text = ascii "null" then some .null
  else if text = ascii "true" then some (.bool true)
  else if text = ascii "false" then some (.bool false)
  else if isNumber text then some (.number text) else none

def punctuation (c : UInt8) : Option Token :=
  if c = 123 then some .openObject
  else if c = 125 then some .closeObject
  else if c = 91 then some .openArray
  else if c = 93 then some .closeArray
  else if c = 58 then some .colon
  else if c = 44 then some .comma else none

/-- The escapes of one letter. -/
def letter (c : UInt8) : Option UInt8 := if c = 47 then some 47 else unescape c

def hexOf (c : UInt8) : Option Nat :=
  if isDigit c then some (c.toNat - 48)
  else if 97 ≤ c ∧ c ≤ 102 then some (c.toNat - 87)
  else if 65 ≤ c ∧ c ≤ 70 then some (c.toNat - 55) else none

/-- The code unit of four digits: a scalar, the first half of a pair or its second half. -/
def unit (s : Bytes) (high : Option Nat) (code : Nat) : Option Mode :=
  match high with
  | some high =>
    if 0xDC00 ≤ code ∧ code ≤ 0xDFFF then
      some (.string (s ++ String.utf8EncodeChar
        (Char.ofNat (0x10000 + (high - 0xD800) * 0x400 + (code - 0xDC00)))))
    else none
  | none =>
    if 0xD800 ≤ code ∧ code ≤ 0xDBFF then some (.pair s code)
    else if 0xDC00 ≤ code ∧ code ≤ 0xDFFF then none
    else some (.string (s ++ String.utf8EncodeChar (Char.ofNat code)))

def Lexer.between (lexer : Lexer) (c : UInt8) : Option Lexer :=
  if isSpace c then some (lexer.to .between)
  else if c = 34 then some (lexer.to (.string []))
  else if isBare c then some (lexer.to (.bare [c]))
  else (punctuation c).map lexer.push

def Lexer.step (lexer : Lexer) (c : UInt8) : Option Lexer :=
  match lexer.mode with
  | .between => lexer.between c
  | .bare text =>
    if isBare c then some (lexer.to (.bare (text ++ [c])))
    else do
      let value ← scalar text
      (lexer.push (.scalar value)).between c
  | .string s =>
    if c = 34 then some (lexer.push (.string s))
    else if c = 92 then some (lexer.to (.escape s))
    else if c < 32 then none else some (lexer.to (.string (s ++ [c])))
  | .escape s =>
    if c = 117 then some (lexer.to (.unicode s none []))
    else (letter c).map fun byte => lexer.to (.string (s ++ [byte]))
  | .unicode s high digits => do
    let digit ← hexOf c
    let digits := digits ++ [digit]
    if digits.length < 4 then some (lexer.to (.unicode s high digits))
    else (unit s high (digits.foldl (fun code digit => code * 16 + digit) 0)).map lexer.to
  | .pair s high => if c = 92 then some (lexer.to (.pairEscape s high)) else none
  | .pairEscape s high => if c = 117 then some (lexer.to (.unicode s (some high) [])) else none

def Lexer.run (lexer : Lexer) (text : Bytes) : Option Lexer := text.foldlM Lexer.step lexer

def Lexer.finish (lexer : Lexer) : Option (List Token) :=
  match lexer.mode with
  | .between => some lexer.tokens
  | .bare text => (scalar text).map fun value => lexer.tokens ++ [.scalar value]
  | _ => none

def lex (text : Bytes) : Option (List Token) := (Lexer.run ⟨[], .between⟩ text).bind Lexer.finish

/- The fuel of these readers is at least the number of tokens. -/
mutual

def readValue : Nat → List Token → Option (Value × List Token)
  | 0, _ => none
  | fuel + 1, tokens => match tokens with
    | .string s :: rest => some (.string s, rest)
    | .scalar value :: rest => some (value, rest)
    | .openArray :: .closeArray :: rest => some (.array [], rest)
    | .openArray :: rest => (readItems fuel rest).map fun (items, rest) => (.array items, rest)
    | .openObject :: .closeObject :: rest => some (.object [], rest)
    | .openObject :: rest => (readFields fuel rest).map fun (fields, rest) => (.object fields, rest)
    | _ => none

def readItems : Nat → List Token → Option (List Value × List Token)
  | 0, _ => none
  | fuel + 1, tokens => do
    let (item, rest) ← readValue fuel tokens
    match rest with
    | .closeArray :: rest => some ([item], rest)
    | .comma :: rest => (readItems fuel rest).map fun (items, rest) => (item :: items, rest)
    | _ => none

def readFields : Nat → List Token → Option (List (Bytes × Value) × List Token)
  | 0, _ => none
  | fuel + 1, tokens => match tokens with
    | .string key :: .colon :: rest => do
      let (value, rest) ← readValue fuel rest
      match rest with
      | .closeObject :: rest => some ([(key, value)], rest)
      | .comma :: rest => (readFields fuel rest).map fun (fields, rest) => ((key, value) :: fields, rest)
      | _ => none
    | _ => none

end

/-- The value of a text: one value and nothing after it. -/
def parse (text : Bytes) : Option Value := do
  let tokens ← lex text
  let (value, rest) ← readValue tokens.length tokens
  if rest.isEmpty then some value else none

section Lexing

variable (lexer : Lexer)

@[simp] theorem Lexer.run_nil : lexer.run [] = some lexer := rfl

@[simp] theorem Lexer.run_cons (c : UInt8) (text : Bytes) :
    lexer.run (c :: text) = (lexer.step c).bind fun next => next.run text := List.foldlM_cons ..

theorem Lexer.run_append (text rest : Bytes) :
    lexer.run (text ++ rest) = (lexer.run text).bind fun next => next.run rest := List.foldlM_append ..

@[simp] theorem Lexer.to_mode : (lexer.to m).mode = m := rfl

@[simp] theorem Lexer.push_mode : (lexer.push token).mode = .between := rfl

@[simp] theorem Lexer.to_to : (lexer.to m).to m' = lexer.to m' := rfl

@[simp] theorem Lexer.to_push : (lexer.to m).push token = lexer.push token := rfl

theorem hexOf_hexDigit (small : n < 16) : hexOf (hexDigit n) = some n := by
  have all : ∀ n : Fin 16, hexOf (hexDigit n.val) = some n.val := by decide
  exact all ⟨n, small⟩

/-- An ASCII byte may be written with its `\u` escape. -/
theorem Lexer.run_hex (small : c < 128) (s : Bytes) :
    (lexer.to (.string s)).run [92, 117, 48, 48, hexDigit (c.toNat / 16), hexDigit (c.toNat % 16)] =
      some (lexer.to (.string (s ++ [c]))) := by
  have bound : c.toNat < 128 := UInt8.lt_iff_toNat_lt.mp small
  have upper := hexOf_hexDigit (n := c.toNat / 16) (by omega)
  have lower := hexOf_hexDigit (n := c.toNat % 16) (by omega)
  have zero : hexOf 48 = some 0 := by decide
  have code : c.toNat / 16 * 16 + c.toNat % 16 = c.toNat := by omega
  simp [Lexer.step,zero,upper,lower,unit,code,utf8EncodeChar_ascii small,show ¬0xD800 ≤ c.toNat by omega,
    show ¬0xDC00 ≤ c.toNat by omega]

theorem Lexer.run_escape (c : UInt8) (s : Bytes) :
    (lexer.to (.string s)).run (escape c) = some (lexer.to (.string (s ++ [c]))) := by
  rcases escape_cases c with ⟨d, plain, back, h⟩ | ⟨small, h⟩ | ⟨quote, slash, printable, h⟩
  · have known : letter d = some c := by
      rw [letter,if_neg _,back]
      rintro rfl
      exact absurd back (by simp [unescape])
    simp [h,Lexer.step,plain,known]
  · rw [h]
    exact lexer.run_hex (Std.lt_of_lt_of_le small (by decide)) s
  · simp [h,Lexer.step,quote,slash,printable]

theorem Lexer.run_chars (text s : Bytes) :
    (lexer.to (.string s)).run (chars text) = some (lexer.to (.string (s ++ text))) := by
  induction text generalizing s with
  | nil => simp [chars]
  | cons c rest ih =>
    rw [chars,List.flatMap_cons,Lexer.run_append,Lexer.run_escape,Option.bind_some]
    rw [chars] at ih
    rw [ih,List.append_assoc,List.singleton_append]

/-- A serialized string is one token. -/
theorem Lexer.run_string (outside : lexer.mode = .between) (s rest : Bytes) :
    lexer.run (string s ++ rest) = (lexer.push (.string s)).run rest := by
  have opened : lexer.step 34 = some (lexer.to (.string [])) := by simp [Lexer.step,outside,Lexer.between,isSpace]
  rw [string,List.cons_append,Lexer.run_cons,opened,Option.bind_some,List.append_assoc,Lexer.run_append,
    Lexer.run_chars,Option.bind_some,List.singleton_append,Lexer.run_cons]
  simp [Lexer.step]

/-- A punctuation mark is one token. -/
theorem Lexer.step_mark (outside : lexer.mode = .between) (mark : punctuation c = some token) :
    lexer.step c = some (lexer.push token) := by
  have member : c ∈ ([123, 125, 91, 93, 58, 44] : Bytes) := by
    by_contra other
    simp only [List.mem_cons,List.not_mem_nil,or_false,not_or] at other
    simp [punctuation,other] at mark
  have plain : isSpace c = false ∧ c ≠ 34 ∧ isBare c = false := by
    simp only [List.mem_cons,List.not_mem_nil,or_false] at member
    rcases member with rfl | rfl | rfl | rfl | rfl | rfl <;> decide
  simp [Lexer.step,outside,Lexer.between,plain,mark]

/-- The tokens of an object's fields, when all values are strings. -/
def memberTokens : List (Bytes × Bytes) → List Token
  | [] => []
  | [(key, value)] => [.string key, .colon, .string value]
  | (key, value) :: rest => .string key :: .colon :: .string value :: .comma :: memberTokens rest

theorem Lexer.run_member (outside : lexer.mode = .between) (key value rest : Bytes) :
    lexer.run (string key ++ 58 :: (string value ++ rest)) =
      (((lexer.push (.string key)).push .colon).push (.string value)).run rest := by
  rw [lexer.run_string outside,Lexer.run_cons,Lexer.step_mark _ rfl (show punctuation 58 = some .colon from rfl),Option.bind_some,
    Lexer.run_string _ rfl]

theorem Lexer.run_members (fields : List (Bytes × Bytes)) (rest : Bytes) (outside : lexer.mode = .between) :
    lexer.run (List.intercalate [44] (fields.map fun (key, value) => string key ++ 58 :: string value) ++ rest) =
      Lexer.run ⟨lexer.tokens ++ memberTokens fields, .between⟩ rest := by
  fun_induction memberTokens fields generalizing lexer with
  | case1 =>
    cases lexer
    cases outside
    simp
  | case2 key value =>
    have one := lexer.run_member outside key value rest
    simpa [List.intercalate_singleton,Lexer.push] using one
  | case3 key value more nonempty ih =>
    have later : more.map (fun (key, value) => string key ++ 58 :: string value) ≠ [] := by simpa using nonempty
    rw [List.map_cons,List.intercalate_cons_of_ne_nil later]
    simp only [List.append_assoc,List.cons_append,List.nil_append]
    rw [lexer.run_member outside,Lexer.run_cons,Lexer.step_mark _ rfl (show punctuation 44 = some .comma from rfl),
      Option.bind_some,ih _ rfl]
    simp [Lexer.push]

theorem readFields_comma (fuel : Nat) (key value : Bytes) (tokens : List Token) :
    readFields (fuel + 2) (.string key :: .colon :: .string value :: .comma :: tokens) =
      (readFields (fuel + 1) tokens).map fun (fields, rest) => ((key, .string value) :: fields, rest) := rfl

theorem readFields_members (fields : List (Bytes × Bytes)) (nonempty : fields ≠ []) (rest : List Token)
    (enough : fields.length ≤ fuel) : readFields (fuel + 1) (memberTokens fields ++ .closeObject :: rest) =
      some (fields.map fun (key, value) => (key, .string value), rest) := by
  fun_induction memberTokens fields generalizing fuel with
  | case1 => exact absurd rfl nonempty
  | case2 key value =>
    obtain ⟨fuel, rfl⟩ := Nat.exists_eq_add_of_le' enough
    rfl
  | case3 key value more later ih =>
    obtain ⟨fuel, rfl⟩ := Nat.exists_eq_add_of_le' (Nat.le_trans (Nat.le_add_left 1 _) enough)
    have following := ih later (Nat.le_of_succ_le_succ enough)
    simp only [List.cons_append,readFields_comma,following]
    rfl

theorem readValue_members (fields : List (Bytes × Bytes)) (nonempty : fields ≠ []) (rest : List Token) (fuel : Nat) :
    readValue (fuel + 1) (.openObject :: (memberTokens fields ++ rest)) =
      (readFields fuel (memberTokens fields ++ rest)).map fun (fields, rest) => (.object fields, rest) := by
  fun_cases memberTokens fields with
  | case1 => exact absurd rfl nonempty
  | case2 => rfl
  | case3 => rfl

theorem memberTokens_length (fields : List (Bytes × Bytes)) : fields.length ≤ (memberTokens fields).length := by
  fun_induction memberTokens fields with
  | case1 => simp
  | case2 => simp
  | case3 key value more later ih =>
    simp only [List.length_cons]
    omega

/-- An object of strings is read back field by field. -/
theorem parse_object (fields : List (Bytes × Bytes)) (nonempty : fields ≠ []) :
    parse (object (fields.map fun (key, value) => (key, string value))) =
      some (.object (fields.map fun (key, value) => (key, .string value))) := by
  have tokens : lex (object (fields.map fun (key, value) => (key, string value))) =
      some (.openObject :: (memberTokens fields ++ [.closeObject])) := by
    have members := Lexer.run_members ⟨[.openObject], .between⟩ fields [125] rfl
    rw [lex,object,Lexer.run_cons,Lexer.step_mark _ rfl (show punctuation 123 = some .openObject from rfl),
      Option.bind_some,List.map_map]
    simp only [Lexer.push,List.nil_append]
    refine (congrArg (Option.bind · Lexer.finish) members).trans ?_
    rw [Lexer.run_cons,Lexer.step_mark _ rfl (show punctuation 125 = some .closeObject from rfl)]
    simp [Lexer.push,Lexer.finish]
  have enough : fields.length ≤ (memberTokens fields).length := memberTokens_length fields
  have length : (Token.openObject :: (memberTokens fields ++ [.closeObject])).length =
      (memberTokens fields).length + 1 + 1 := by simp
  rw [parse,tokens,Option.bind_eq_bind,Option.bind_some,length,readValue_members fields nonempty,
    readFields_members fields nonempty [] enough]
  rfl

end Lexing

end PowGate.Json
