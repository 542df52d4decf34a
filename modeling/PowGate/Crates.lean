import PowGate.Context
import Mathlib.Data.List.Flatten

/-! The wire records with the JSON texts written for them, and the third-party
crates as parameters: the MAC, the hash, the curve and the JSON readers. -/
namespace PowGate

open Text

/-- Valid UTF-8. -/
def IsText (s : Bytes) : Prop := ∃ scalars : List Char, s = scalars.flatMap String.utf8EncodeChar

theorem IsAscii.isText (ascii : IsAscii s) : IsText s := by
  refine ⟨s.map fun c => Char.ofNat c.toNat, ?_⟩
  induction s with
  | nil => rfl
  | cons c rest ih =>
    have one := utf8EncodeChar_ascii (ascii c (by simp))
    rw [List.map_cons,List.flatMap_cons,one,← ih fun d member => ascii d (by simp [member])]
    rfl

structure Challenge where
  version : UInt8
  salt : Bytes
  exp : Int64
  difficulty : UInt64
  token : Bytes
  deriving DecidableEq

/-- The submitted `/verify` body. -/
structure Submission where
  version : UInt8
  signature : Bytes
  salt : Bytes
  exp : Int64
  token : Bytes
  nonce : UInt64
  pubkey : Bytes
  difficulty : UInt64
  deriving DecidableEq

/-- Decoded no-JS grant payload. -/
structure Grant where
  path : Bytes
  context : Bytes
  id : Bytes
  version : UInt8
  iat : Int64
  delay : Int64
  deriving DecidableEq

structure Clearance where
  version : UInt8
  pk : Bytes
  context : Bytes
  assurance : Assurance
  iat : Int64
  exp : Int64
  deriving DecidableEq

def Grant.json (grant : Grant) : Bytes :=
  ascii "\x7b\"path\":" ++ (Json.string grant.path ++ (ascii ",\"context\":" ++
    (Json.string grant.context ++ (ascii ",\"id\":" ++ (Json.string grant.id ++
    (ascii ",\"version\":" ++ (integer grant.version.toNat ++ (ascii ",\"iat\":" ++
    (integer grant.iat.toInt ++ (ascii ",\"delay\":" ++ (integer grant.delay.toInt ++ [125])))))))))))

def Clearance.json (clearance : Clearance) : Bytes :=
  ascii "\x7b\"version\":" ++ (integer clearance.version.toNat ++ (ascii ",\"pk\":" ++
    (Json.string clearance.pk ++ (ascii ",\"context\":" ++ (Json.string clearance.context ++
    (ascii ",\"assurance\":" ++ (clearance.assurance.json ++ (ascii ",\"iat\":" ++
    (integer clearance.iat.toInt ++ (ascii ",\"exp\":" ++ (integer clearance.exp.toInt ++ [125])))))))))))

/-- The crates the protocol is built on: `hmac`, `sha2`, `p256` and `serde_json`. -/
structure Crates where
  hmacSha256 : Bytes → Bytes → Digest
  sha256 : Bytes → Digest
  /-- `VerifyingKey::from_sec1_bytes`. -/
  fromSec1Bytes : Bytes → Option Bytes
  /-- `Signature::from_slice`. -/
  fromSlice : Bytes → Option Bytes
  /-- `VerifyingKey::verify`. -/
  verify : Bytes → Bytes → Bytes → Bool
  readSubmission : Bytes → Option Submission
  readGrant : Bytes → Option Grant
  readClearance : Bytes → Option Clearance

/-- `serde_json` reads back what it wrote. -/
structure Crates.Lawful (crates : Crates) : Prop where
  grant : ∀ grant : Grant, IsText grant.path → IsText grant.context → IsText grant.id →
    crates.readGrant grant.json = some grant
  clearance : ∀ clearance : Clearance, IsText clearance.pk → IsText clearance.context →
    crates.readClearance clearance.json = some clearance

/-- `codec::b64url`. -/
def b64url (bytes : Bytes) : Bytes := Base64.encode bytes

/-- `codec::unb64url`. -/
def unb64url (s : Bytes) : Option Bytes := Base64.decode s

/-- `codec::unb64url_into` with an output slice of `size` bytes. -/
def unb64urlInto (size : Nat) (s : Bytes) : Option Bytes :=
  (Base64.decode s).filter fun bytes => bytes.length ≤ size

/-- `codec::unb64url_fixed`. -/
def unb64urlFixed (size : Nat) (s : Bytes) : Option Bytes :=
  (unb64urlInto size s).filter fun bytes => bytes.length = size

/-- Lowercase hex. -/
def hex (bytes : Bytes) : Bytes :=
  bytes.flatMap fun b => [hexDigit (b.toNat / 16), hexDigit (b.toNat % 16)]

/-- The text of a MAC under `key`, as tokens carry it. -/
def Crates.tag (crates : Crates) (key message : Bytes) : Bytes :=
  b64url (crates.hmacSha256 key message).toList

/-- `context::binding_prepared`. -/
def Crates.binding (crates : Crates) (key : Bytes) (ip : IpAddr) (userAgent scope issuer : Bytes)
    (address : AddressPolicy) : Option Bytes :=
  (address.network ip).map fun network =>
    crates.tag key (contextMessage network userAgent scope issuer address)

@[simp] theorem unb64url_b64url (bytes : Bytes) : unb64url (b64url bytes) = some bytes :=
  Base64.decode_encode bytes

theorem unb64urlFixed_b64url (bytes : Bytes) (size : bytes.length = n) :
    unb64urlFixed n (b64url bytes) = some bytes := by
  simp [unb64urlFixed,unb64urlInto,b64url,Option.filter,size]

theorem unb64urlFixed_some : unb64urlFixed n s = some bytes ↔ unb64url s = some bytes ∧ bytes.length = n := by
  unfold unb64urlFixed unb64urlInto unb64url
  cases Base64.decode s with
  | none => simp
  | some found =>
    simp only [Option.filter]
    constructor
    · intro h
      grind
    · intro h
      grind

theorem b64url_plain (bytes : Bytes) : ∀ c ∈ b64url bytes, c < 128 ∧ 32 ≤ c ∧ c ∉ [34, 46, 92, 124, 32, 38, 59] := by
  intro c member
  obtain ⟨n, small, rfl⟩ := Base64.encode_alphabet bytes c member
  exact Base64.symbol_plain small

theorem b64url_ascii (bytes : Bytes) : IsAscii (b64url bytes) :=
  fun c member => (b64url_plain bytes c member).1

theorem b64url_no_dot (bytes : Bytes) : 46 ∉ b64url bytes := by
  intro member
  have := (b64url_plain bytes 46 member).2.2
  exact this (by simp)

/-- The text of a token can be sent in a query or a cookie as it is. -/
theorem b64url_visible (a b : Bytes) :
    ∀ c ∈ b64url a ++ 46 :: b64url b, (33 ≤ c ∧ c < 128) ∧ c ≠ 38 ∧ c ≠ 59 := by
  have each : ∀ bytes, ∀ c ∈ b64url bytes, (33 ≤ c ∧ c < 128) ∧ c ≠ 38 ∧ c ≠ 59 := by
    intro bytes c member
    obtain ⟨high, low, free⟩ := b64url_plain bytes c member
    simp only [List.mem_cons,List.not_mem_nil,or_false,not_or] at free
    refine ⟨⟨?_, high⟩, free.2.2.2.2.2⟩
    have := free.2.2.2.2.1
    grind
  intro c member
  simp only [List.mem_append,List.mem_cons] at member
  rcases member with front | rfl | back
  · exact each a c front
  · decide
  · exact each b c back

theorem Crates.tag_length (crates : Crates) (key message : Bytes) : (crates.tag key message).length = 43 := by
  simp [tag,b64url,Base64.length_encode]

theorem Crates.tag_inj {crates : Crates} (same : crates.tag key message = crates.tag other text) :
    crates.hmacSha256 key message = crates.hmacSha256 other text := by
  have := Base64.encode_injective same
  exact Vector.toList_inj.mp this

end PowGate
