import Mathlib.Data.List.Basic
import PowGate.Access
import PowGate.JsonReader
import PowGate.Scopes

/-! The captured request a challenge page carries. The payload is serialized first and its markup
characters are escaped in the serialized text; the page stays intact around the block, and a client
that reads the block finds the request it sent. -/
namespace PowGate

open Text

/-- `replay::SCRIPT_ID`. -/
def scriptId : Bytes := ascii "pow-replay"

def maxContentType : Nat := 200

/-- Keeps printable ASCII. A scalar beyond it has no byte in this range. -/
def sanitizeContentType (contentType : Bytes) : Bytes :=
  (contentType.filter fun c => 32 ≤ c && c ≤ 126).take maxContentType

/-- The three characters that could end the surrounding block, as escapes of the serialized text. -/
def markup (c : UInt8) : Bytes :=
  if c = 60 then ascii "\\u003c"
  else if c = 62 then ascii "\\u003e"
  else if c = 38 then ascii "\\u0026" else [c]

def escapeMarkup (json : Bytes) : Bytes := json.flatMap markup

/-- A request captured at the gate. -/
structure Captured where
  method : Bytes
  url : Bytes
  contentType : Bytes
  body : Bytes
  replayable : methodReplayable method = true
  safe : sameSitePath url = true

def Captured.new (method url contentType body : Bytes) : Option Captured :=
  if valid : methodReplayable method = true ∧ sameSitePath url = true then
    some ⟨method, url, sanitizeContentType contentType, body, valid.1, valid.2⟩
  else none

/-- The members of the serialized object; its map is ordered by key. -/
def Captured.members (captured : Captured) : List (Bytes × Bytes) :=
  [(ascii "body", b64url captured.body), (ascii "method", captured.method), (ascii "type", captured.contentType),
    (ascii "url", captured.url)]

def Captured.payload (captured : Captured) : Bytes :=
  escapeMarkup (Json.object (captured.members.map fun (key, value) => (key, Json.string value)))

def scriptOpen : Bytes := ascii "<script id=\"" ++ scriptId ++ ascii "\" type=\"application/json\">"

def Captured.scriptTag (captured : Captured) : Bytes := scriptOpen ++ captured.payload ++ ascii "</script>\n"

/-- Last case-insensitive occurrence of `needle`. -/
def rfindCi (haystack needle : Bytes) : Option Nat :=
  if needle = [] ∨ haystack.length < needle.length then none
  else (List.range (haystack.length - needle.length + 1)).reverse.find? fun i =>
    eqIgnoreCase ((haystack.drop i).take needle.length) needle

/-- Inserts before the last `</body>`, or at the end of a page without one. -/
def inject (page tag : Bytes) : Bytes :=
  let position := (rfindCi page (ascii "</body>")).getD page.length
  page.take position ++ tag ++ page.drop position

/-- `body_ready`: what cannot be captured gets the plain page. -/
def bodyReady (r : Request) (cfg : Cfg) (page : Bytes) (requestBody : Option Bytes) (out : Headers) : Response :=
  let body := requestBody.getD []
  let rendered :=
    match Captured.new r.method r.unparsedUri ((r.header (ascii "content-type")).getD []) body with
    | some captured => if body.length ≤ cfg.replayMaxBody then inject page captured.scriptTag else page
    | none => page
  send out 200 html rendered [(ascii "Cache-Control", ascii "no-store")]

section Markup

theorem markup_cases (c : UInt8) :
    (c ∈ ([60, 62, 38] : Bytes) ∧ c < 128 ∧
      markup c = [92, 117, 48, 48, hexDigit (c.toNat / 16), hexDigit (c.toNat % 16)]) ∨
    c ∉ ([60, 62, 38] : Bytes) ∧ markup c = [c] := by
  by_cases special : c ∈ ([60, 62, 38] : Bytes)
  · refine .inl ⟨special, ?_⟩
    simp only [List.mem_cons,List.not_mem_nil,or_false] at special
    rcases special with rfl | rfl | rfl <;> decide
  · refine .inr ⟨special, ?_⟩
    simp only [List.mem_cons,List.not_mem_nil,or_false,not_or] at special
    simp [markup,special]

theorem markup_plain (c : UInt8) : ∀ d ∈ markup c, d ≠ 60 ∧ d ≠ 62 ∧ d ≠ 38 := by
  have escapes : (markup 60 ++ markup 62 ++ markup 38).all (fun d => d ≠ 60 ∧ d ≠ 62 ∧ d ≠ 38) = true := by decide
  intro d inside
  rcases markup_cases c with ⟨special, _, _⟩ | ⟨other, shape⟩
  · have member : d ∈ markup 60 ++ markup 62 ++ markup 38 := by
      simp only [List.mem_cons,List.not_mem_nil,or_false] at special
      rcases special with rfl | rfl | rfl <;> simp [inside]
    simpa using List.all_eq_true.mp escapes d member
  · rw [shape,List.mem_singleton] at inside
    subst inside
    simpa using other

theorem escapeMarkup_plain (json : Bytes) : ∀ c ∈ escapeMarkup json, c ≠ 60 ∧ c ≠ 62 ∧ c ≠ 38 := by
  intro c member
  obtain ⟨original, _, inside⟩ := List.mem_flatMap.mp member
  exact markup_plain original c inside

/-- Only a string takes one of the three characters: every other place of a document refuses them. -/
theorem step_markup {lexer next : Json.Lexer} (special : c ∈ ([60, 62, 38] : Bytes)) (took : lexer.step c = some next) :
    ∃ s, lexer.mode = .string s ∧ next = lexer.to (.string (s ++ [c])) := by
  have outside : ∀ other : Json.Lexer, other.between c = none := by
    intro other
    simp only [List.mem_cons,List.not_mem_nil,or_false] at special
    rcases special with rfl | rfl | rfl <;> rfl
  have refused : Json.isBare c = false ∧ Json.letter c = none ∧ Json.hexOf c = none ∧ c ≠ 34 ∧ c ≠ 92 ∧ c ≠ 117 ∧
      ¬c < 32 := by
    simp only [List.mem_cons,List.not_mem_nil,or_false] at special
    rcases special with rfl | rfl | rfl <;> decide
  obtain ⟨bare, letter, digit, quote, slash, unicode, printable⟩ := refused
  unfold Json.Lexer.step at took
  cases mode : lexer.mode with
  | between => simp [mode,outside] at took
  | bare text => simp [mode,bare,outside] at took
  | string s =>
    simp only [mode,quote,slash,printable,if_false,Option.some.injEq] at took
    exact ⟨s, rfl, took.symm⟩
  | escape s => simp [mode,letter,unicode] at took
  | unicode s high digits => simp [mode,digit] at took
  | pair s high => simp [mode,slash] at took
  | pairEscape s high => simp [mode,unicode] at took

theorem run_markup {lexer next : Json.Lexer} (took : lexer.step c = some next) : lexer.run (markup c) = some next := by
  rcases markup_cases c with ⟨special, small, shape⟩ | ⟨_, shape⟩
  · obtain ⟨s, mode, rfl⟩ := step_markup special took
    have here : lexer = lexer.to (.string s) := by
      cases lexer
      cases mode
      rfl
    rw [shape,here]
    exact lexer.run_hex small s
  · simp [shape,took]

theorem run_escapeMarkup {lexer next : Json.Lexer} (ran : lexer.run text = some next) :
    lexer.run (escapeMarkup text) = some next := by
  induction text generalizing lexer with
  | nil => exact ran
  | cons c rest ih =>
    rw [Json.Lexer.run_cons] at ran
    obtain ⟨middle, took, ran⟩ := Option.bind_eq_some_iff.mp ran
    rw [escapeMarkup,List.flatMap_cons,Json.Lexer.run_append,run_markup took,Option.bind_some]
    exact ih ran

/-- Escaping a serialized text keeps what it denotes. -/
theorem parse_escapeMarkup (read : Json.parse text = some document) :
    Json.parse (escapeMarkup text) = some document := by
  obtain ⟨tokens, lexed, rest⟩ := Option.bind_eq_some_iff.mp read
  obtain ⟨last, ran, finished⟩ := Option.bind_eq_some_iff.mp lexed
  refine Option.bind_eq_some_iff.mpr ⟨tokens, ?_, rest⟩
  exact Option.bind_eq_some_iff.mpr ⟨last, run_escapeMarkup ran, finished⟩

end Markup

section Page

theorem captured_fields {captured : Captured} (made : Captured.new method url contentType body = some captured) :
    captured.method = method ∧ captured.url = url ∧ captured.contentType = sanitizeContentType contentType ∧
      captured.body = body := by
  unfold Captured.new at made
  split at made
  · cases made
    exact ⟨rfl, rfl, rfl, rfl⟩
  · cases made

theorem Captured.parse_payload (captured : Captured) :
    Json.parse captured.payload =
      some (.object (captured.members.map fun (key, value) => (key, .string value))) :=
  parse_escapeMarkup (Json.parse_object captured.members (List.cons_ne_nil _ _))

/-- Printable ASCII, as the source selects it among the characters of a text. -/
def printable (c : Char) : Bool := ' ' ≤ c && c ≤ '~'

theorem printable_iff : printable c = true ↔ 32 ≤ c.toNat ∧ c.toNat ≤ 126 := by
  simp only [printable,Bool.and_eq_true,decide_eq_true_eq,Char.le_def,UInt32.le_iff_toNat_le]
  exact Iff.rfl

theorem filter_utf8EncodeChar (c : Char) :
    (String.utf8EncodeChar c).filter (fun byte => 32 ≤ byte && byte ≤ 126) =
      if printable c then [UInt8.ofNat c.toNat] else [] := by
  rcases utf8EncodeChar_cases c with ⟨small, shape⟩ | ⟨wide, _, large⟩
  · have size : (UInt8.ofNat c.toNat).toNat = c.toNat := UInt8.toNat_ofNat_of_lt' (Nat.lt_trans small (by decide))
    have same : (32 ≤ UInt8.ofNat c.toNat && UInt8.ofNat c.toNat ≤ 126) = printable c := by
      rw [Bool.eq_iff_iff,printable_iff,Bool.and_eq_true,decide_eq_true_eq,decide_eq_true_eq,UInt8.le_iff_toNat_le,
        UInt8.le_iff_toNat_le,size]
      exact Iff.rfl
    rw [shape,List.filter_cons,same,List.filter_nil]
  · have hidden : ¬printable c = true := by
      rw [printable_iff]
      omega
    rw [if_neg hidden,List.filter_eq_nil_iff]
    intro byte member shown
    simp only [Bool.and_eq_true,decide_eq_true_eq] at shown
    exact absurd (Std.le_trans (large byte member) shown.2) (by decide)

/-- Selecting bytes is selecting characters. -/
theorem sanitizeContentType_chars (characters : List Char) :
    sanitizeContentType (characters.flatMap String.utf8EncodeChar) =
      ((characters.filter printable).take maxContentType).map fun c => UInt8.ofNat c.toNat := by
  have bytes : (characters.flatMap String.utf8EncodeChar).filter (fun byte => 32 ≤ byte && byte ≤ 126) =
      (characters.filter printable).map fun c => UInt8.ofNat c.toNat := by
    induction characters with
    | nil => rfl
    | cons c rest ih =>
      rw [List.flatMap_cons,List.filter_append,filter_utf8EncodeChar,ih,List.filter_cons]
      split
      · rfl
      · rfl
  rw [sanitizeContentType,bytes,List.map_take]

theorem scriptOpen_cons : ∃ rest, scriptOpen = 60 :: 115 :: rest ∧ 60 ∉ rest :=
  ⟨scriptOpen.drop 2, by decide, by decide⟩

/-- A payload has no `<`, so the block ends where its tag is written. -/
theorem Captured.scriptTag_close (captured : Captured) (before after : Bytes) :
    captured.scriptTag = before ++ (ascii "</script" ++ after) ↔
      before = scriptOpen ++ captured.payload ∧ after = ascii ">\n" := by
  have close : ascii "</script" = 60 :: ascii "/script" := by decide
  have ending : ascii "</script>\n" = ascii "</script" ++ ascii ">\n" := by decide
  constructor
  · intro same
    obtain ⟨rest, opened, free⟩ := scriptOpen_cons
    rw [Captured.scriptTag,opened,ending,close] at same
    simp only [List.cons_append,List.append_assoc] at same
    cases before with
    | nil =>
      -- the block opens with another tag
      have second : some (115 : UInt8) = some 47 := congrArg (fun bytes : Bytes => bytes[1]?) same
      exact absurd second (by decide)
    | cons c before =>
      have plain : 60 ∉ 115 :: (rest ++ captured.payload) := by
        have clean := escapeMarkup_plain (Json.object (captured.members.map fun (key, value) => (key, Json.string value)))
        simp only [List.mem_cons,List.mem_append,not_or]
        exact ⟨by decide, free, fun member => (clean 60 member).1 rfl⟩
      have tail : 60 ∉ ascii "/script" ++ ascii ">\n" := by decide
      obtain ⟨rfl, same⟩ := List.cons.inj same
      have parts : 115 :: (rest ++ captured.payload) ++ 60 :: (ascii "/script" ++ ascii ">\n") =
          before ++ 60 :: (ascii "/script" ++ after) := by simpa using same
      obtain ⟨rfl, _, back⟩ := (List.append_cons_inj_of_notMem plain tail).mp parts
      refine ⟨?_, (List.append_cancel_left back).symm⟩
      rw [opened]
      rfl
  · rintro ⟨rfl, rfl⟩
    rw [Captured.scriptTag,ending]

/-- The rendered page is the cached page, with at most one block in it. -/
theorem bodyReady_page (r : Request) (cfg : Cfg) (page : Bytes) (requestBody : Option Bytes) (out : Headers) :
    ∃ before after, page = before ++ after ∧
      ((bodyReady r cfg page requestBody out).body = before ++ after ∨
        ∃ captured : Captured, captured.method = r.method ∧ captured.url = r.unparsedUri ∧
          captured.body = requestBody.getD [] ∧ captured.body.length ≤ cfg.replayMaxBody ∧
          (bodyReady r cfg page requestBody out).body = before ++ captured.scriptTag ++ after) := by
  refine ⟨_, _, (List.take_append_drop ((rfindCi page (ascii "</body>")).getD page.length) page).symm, ?_⟩
  rw [List.take_append_drop]
  simp only [bodyReady,send]
  split
  · next captured made =>
    split
    · next small =>
      obtain ⟨methods, urls, _, bodies⟩ := captured_fields made
      exact .inr ⟨captured, methods, urls, bodies, by rwa [bodies], rfl⟩
    · exact .inl rfl
  · exact .inl rfl

/-- A captured request reaches the client as it was sent, and its block cannot be left early. -/
theorem captured_intact (method url body : Bytes) (characters : List Char) (captured : Captured)
    (made : Captured.new method url (characters.flatMap String.utf8EncodeChar) body = some captured) :
    (∀ c ∈ captured.payload, c ≠ 60 ∧ c ≠ 62 ∧ c ≠ 38) ∧
    (∃ encoded, unb64url encoded = some body ∧
      Json.parse captured.payload = some (.object [(ascii "body", .string encoded), (ascii "method", .string method),
        (ascii "type", .string (((characters.filter printable).take 200).map fun c => UInt8.ofNat c.toNat)),
        (ascii "url", .string url)])) ∧
    (∀ text document, Json.parse text = some document → Json.parse (escapeMarkup text) = some document) ∧
    ∀ before after, captured.scriptTag = before ++ (ascii "</script" ++ after) ↔
      before = scriptOpen ++ captured.payload ∧ after = ascii ">\n" := by
  obtain ⟨methods, urls, types, bodies⟩ := captured_fields made
  refine ⟨escapeMarkup_plain _, ⟨b64url body, unb64url_b64url body, ?_⟩, fun _ _ => parse_escapeMarkup,
    captured.scriptTag_close⟩
  rw [captured.parse_payload]
  simp only [Captured.members,List.map_cons,List.map_nil,methods,urls,types,bodies,sanitizeContentType_chars,
    maxContentType]

/-- A Content-Type that tries to close the block is carried as it is. -/
theorem captured_intact_hostile :
    ∃ captured encoded, Captured.new (ascii "POST") (ascii "/x") ("a\\</script>".toList.flatMap String.utf8EncodeChar)
        [1] = some captured ∧
      unb64url encoded = some [1] ∧
      Json.parse captured.payload = some (.object [(ascii "body", .string encoded),
        (ascii "method", .string (ascii "POST")), (ascii "type", .string (ascii "a\\</script>")),
        (ascii "url", .string (ascii "/x"))]) := by
  obtain ⟨captured, made⟩ := Option.isSome_iff_exists.mp (by decide : (Captured.new (ascii "POST") (ascii "/x")
    ("a\\</script>".toList.flatMap String.utf8EncodeChar) [1]).isSome = true)
  obtain ⟨_, ⟨encoded, decoded, read⟩, _⟩ := captured_intact _ _ _ _ captured made
  exact ⟨captured, encoded, made, decoded, read⟩

end Page

end PowGate
