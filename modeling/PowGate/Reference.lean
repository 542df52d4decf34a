import PowGate.Engine
import PowGate.Sha256

/-! One concrete deployment. Its crates have real SHA-256 and HMAC, the points of P-256,
and JSON readers for records in the order and spelling the serializer uses, so the
assumed laws can be met; no signature verifies and no submission is read. -/
namespace PowGate.Reference

open Text

def readI64 (s : Bytes) : Option (Int64 × Bytes) := do
  let (n, rest) ← Json.readInteger s
  if -2 ^ 63 ≤ n ∧ n < 2 ^ 63 then some (Int64.ofInt n, rest) else none

def readU64 (s : Bytes) : Option (UInt64 × Bytes) := do
  let (n, rest) ← Json.readInteger s
  if 0 ≤ n ∧ n.toNat < 2 ^ 64 then some (n.toNat.toUInt64, rest) else none

def readU8 (s : Bytes) : Option (UInt8 × Bytes) := do
  let (n, rest) ← Json.readInteger s
  if 0 ≤ n ∧ n.toNat < 2 ^ 8 then some (n.toNat.toUInt8, rest) else none

def readGrant (raw : Bytes) : Option Grant := do
  let (path, rest) ← Json.readString (← stripPrefix (ascii "\x7b\"path\":") raw)
  let (context, rest) ← Json.readString (← stripPrefix (ascii ",\"context\":") rest)
  let (id, rest) ← Json.readString (← stripPrefix (ascii ",\"id\":") rest)
  let (version, rest) ← readU8 (← stripPrefix (ascii ",\"version\":") rest)
  let (iat, rest) ← readI64 (← stripPrefix (ascii ",\"iat\":") rest)
  let (delay, rest) ← readI64 (← stripPrefix (ascii ",\"delay\":") rest)
  if rest = [125] then some { path, context, id, version, iat, delay } else none

def readAssurance (s : Bytes) : Option (Assurance × Bytes) :=
  match stripPrefix (ascii "\x7b\"kind\":\"pow\",\"difficulty\":") s with
  | some rest => do
    let (difficulty, rest) ← readU64 rest
    return (.pow difficulty, ← stripPrefix [125] rest)
  | none => do
    let (delay, rest) ← readI64 (← stripPrefix (ascii "\x7b\"kind\":\"no_js\",\"delay\":") s)
    return (.noJs delay, ← stripPrefix [125] rest)

def readClearance (raw : Bytes) : Option Clearance := do
  let (version, rest) ← readU8 (← stripPrefix (ascii "\x7b\"version\":") raw)
  let (pk, rest) ← Json.readString (← stripPrefix (ascii ",\"pk\":") rest)
  let (context, rest) ← Json.readString (← stripPrefix (ascii ",\"context\":") rest)
  let (assurance, rest) ← readAssurance (← stripPrefix (ascii ",\"assurance\":") rest)
  let (iat, rest) ← readI64 (← stripPrefix (ascii ",\"iat\":") rest)
  let (exp, rest) ← readI64 (← stripPrefix (ascii ",\"exp\":") rest)
  if rest = [125] then some { version, pk, context, assurance, iat, exp } else none

/-- The field prime and the constant of P-256. -/
def p256Prime : Nat := 0xffffffff00000001000000000000000000000000ffffffffffffffffffffffff
def p256B : Nat := 0x5ac635d8aa3a93e7b3ebbd55769886bc651d06b0cc53b0f63bce3c3e27d2604b

def ofBigEndian (bytes : Bytes) : Nat := bytes.foldl (fun acc b => acc * 256 + b.toNat) 0

/-- An uncompressed point on the curve. -/
def onCurve (pk : Bytes) : Bool :=
  let x := ofBigEndian ((pk.drop 1).take 32)
  let y := ofBigEndian (pk.drop 33)
  pk.length = 65 && pk.head? = some 4 && x < p256Prime && y < p256Prime &&
    y * y % p256Prime = (x * x * x + 3 * (p256Prime - x) + p256B) % p256Prime

def crates : Crates where
  hmacSha256 := Sha256.hmac
  sha256 := Sha256.digest
  fromSec1Bytes pk := if onCurve pk then some pk else none
  fromSlice sig := if sig.length = 64 then some sig else none
  verify _ _ _ := false
  readSubmission _ := none
  readGrant := readGrant
  readClearance := readClearance

section Readers

variable {rest : Bytes}

theorem readI64_integer (x : Int64) (breaks : Json.Breaks rest) :
    readI64 (integer x.toInt ++ rest) = some (x, rest) := by
  simp only [readI64,Json.readInteger_integer _ breaks,Option.bind_eq_bind,Option.bind_some]
  rw [if_pos ⟨Int64.le_toInt x, Int64.toInt_lt x⟩,Int64.ofInt_toInt]

theorem readU64_integer (x : UInt64) (breaks : Json.Breaks rest) :
    readU64 (integer x.toNat ++ rest) = some (x, rest) := by
  simp only [readU64,Json.readInteger_integer _ breaks,Option.bind_eq_bind,Option.bind_some]
  rw [Int.toNat_natCast,if_pos ⟨Int.natCast_nonneg _, x.toNat_lt⟩]
  exact congrArg some (Prod.ext (UInt64.ofNat_toNat) rfl)

theorem readU8_integer (x : UInt8) (breaks : Json.Breaks rest) :
    readU8 (integer x.toNat ++ rest) = some (x, rest) := by
  simp only [readU8,Json.readInteger_integer _ breaks,Option.bind_eq_bind,Option.bind_some]
  rw [Int.toNat_natCast,if_pos ⟨Int.natCast_nonneg _, x.toNat_lt⟩]
  exact congrArg some (Prod.ext (UInt8.ofNat_toNat) rfl)

theorem breaks_of_head (head : rest.head? = some c) (stop : isDigit c = false) : Json.Breaks rest := by
  intro d member
  rw [head] at member
  cases member
  exact stop

theorem readAssurance_json (assurance : Assurance) :
    readAssurance (assurance.json ++ rest) = some (assurance, rest) := by
  have brace : Json.Breaks (125 :: rest) := breaks_of_head rfl (by decide)
  cases assurance with
  | pow difficulty =>
    simp only [Assurance.json,List.append_assoc,readAssurance,stripPrefix_append,List.cons_append,
      List.nil_append,readU64_integer difficulty brace]
    simp [stripPrefix]
  | noJs delay =>
    have other : stripPrefix (ascii "\x7b\"kind\":\"pow\",\"difficulty\":")
        (ascii "\x7b\"kind\":\"no_js\",\"delay\":" ++ (integer delay.toInt ++ 125 :: rest)) = none := by
      rfl
    simp only [Assurance.json,List.append_assoc,readAssurance,List.cons_append,List.nil_append,other,
      stripPrefix_append,Option.bind_eq_bind,Option.bind_some,readI64_integer delay brace]
    simp [stripPrefix]

theorem readGrant_json (grant : Grant) : readGrant grant.json = some grant := by
  have iat : ∀ more, Json.Breaks (ascii ",\"iat\":" ++ more) := fun _ => breaks_of_head rfl (by decide)
  have delay : ∀ more, Json.Breaks (ascii ",\"delay\":" ++ more) := fun _ => breaks_of_head rfl (by decide)
  have brace : Json.Breaks [125] := breaks_of_head rfl (by decide)
  simp only [readGrant,Grant.json,stripPrefix_append,Json.readString_string,Option.bind_eq_bind,
    Option.bind_some,readU8_integer grant.version (iat _),readI64_integer grant.iat (delay _),
    readI64_integer grant.delay brace,if_true]

theorem readClearance_json (clearance : Clearance) :
    readClearance clearance.json = some clearance := by
  have pk : ∀ more, Json.Breaks (ascii ",\"pk\":" ++ more) := fun _ => breaks_of_head rfl (by decide)
  have exp : ∀ more, Json.Breaks (ascii ",\"exp\":" ++ more) := fun _ => breaks_of_head rfl (by decide)
  have brace : Json.Breaks [125] := breaks_of_head rfl (by decide)
  simp only [readClearance,Clearance.json,stripPrefix_append,Json.readString_string,
    Option.bind_eq_bind,Option.bind_some,readU8_integer clearance.version (pk _),
    readAssurance_json,readI64_integer clearance.iat (exp _),readI64_integer clearance.exp brace,
    if_true]

theorem lawful : crates.Lawful where
  grant grant _ _ _ := readGrant_json grant
  clearance clearance _ _ := readClearance_json clearance

end Readers

/-- No directive is set. -/
def unset : Directives where
  enabled := none
  trusted := none
  decision := none
  pagePath := []
  nojsPagePath := []
  difficulty := none
  hmacKeyFile := []
  clearanceTtl := none
  proofSkew := none
  requireProof := none
  ipv4Prefix := none
  ipv6Prefix := none
  policy := []
  endpoint := []
  replay := none
  replayMaxBody := none
  cookieName := []
  cookieScopeSuffix := none
  cookieDomain := []
  cookiePath := []
  cookieSamesite := []
  cookieSecure := none
  cookieHttponly := none

/-- The gate is on, with everything else left at its default. -/
def gateOn : Directives := { unset with enabled := some true }

/-- Every file is a 32-byte key. -/
def startup : Startup where
  readFile _ := some (List.replicate 32 75)
  defaultPage := ascii "page"
  defaultNojsPage := ascii "nojs"
  solverJs := []

def location : LocationConf := inherit crates unset gateOn

def cfg : Cfg := buildCfg startup.readFile location

def worker : Worker where
  crates := crates
  issuer := some (Vector.replicate 32 73)
  clusterEnabled := false
  clusterAvailable := false
  verifierResult _ _ := false
  bodyLimit := true
  readBodyStatus := 0
  solverJs := []

/-- A plain `GET` from 192.0.2.1. -/
def request (uri : Bytes) : Request where
  method := ascii "GET"
  uri := uri
  unparsedUri := uri
  args := []
  server := ascii "example.test"
  headers := []
  ip := some (.v4 0xc0000201)
  contentLength := -1

def readings (now : Int64) : Readings := ⟨now, now, now, Vector.replicate 16 0⟩

end PowGate.Reference
