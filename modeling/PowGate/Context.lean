import PowGate.Base64
import PowGate.Json

/-! Client and policy binding. A context is an opaque MAC over length-prefixed
fields; the address and the User-Agent stay inside it. -/
namespace PowGate

open Text

/-- A 32-byte digest or tag. -/
abbrev Digest := Vector UInt8 32

inductive IpAddr where
  | v4 (bits : BitVec 32)
  | v6 (bits : BitVec 128)
  deriving DecidableEq, Repr

/-- `::ffff:a.b.c.d` for some IPv4 address. -/
def toIpv4Mapped (bits : BitVec 128) : Option (BitVec 32) :=
  if bits >>> 32 = 0xffff then some (bits.setWidth 32) else none

def v4Text (bits : BitVec 32) : Bytes :=
  decimal (bits.toNat / 2 ^ 24) ++ 46 :: decimal (bits.toNat / 2 ^ 16 % 256) ++
    46 :: decimal (bits.toNat / 2 ^ 8 % 256) ++ 46 :: decimal (bits.toNat % 256)

def segments (bits : BitVec 128) : List Nat :=
  (List.range 8).map fun i => bits.toNat / 2 ^ (112 - 16 * i) % 65536

def hexText (n : Nat) : Bytes := (Nat.toDigits 16 n).map fun c => c.toNat.toUInt8

def joinSegments (chunk : List Nat) : Bytes := List.intercalate [58] (chunk.map hexText)

/-- A run of segments: first index and length. -/
structure Span where
  start : Nat
  len : Nat
  deriving DecidableEq

/-- The first longest run of zero segments. -/
def longestZeros : List Nat → Nat → Span → Span → Span
  | [], _, _, longest => longest
  | segment :: rest, i, current, longest =>
    if segment = 0 then
      let current : Span := if current.len = 0 then ⟨i, 1⟩ else ⟨current.start, current.len + 1⟩
      longestZeros rest (i + 1) current (if longest.len < current.len then current else longest)
    else longestZeros rest (i + 1) ⟨0, 0⟩ longest

/-- The text the standard library prints for an address. -/
def IpAddr.text : IpAddr → Bytes
  | .v4 bits => v4Text bits
  | .v6 bits =>
    match toIpv4Mapped bits with
    | some inner => ascii "::ffff:" ++ v4Text inner
    | none =>
      let all := segments bits
      let zeros := longestZeros all 0 ⟨0, 0⟩ ⟨0, 0⟩
      if 1 < zeros.len then
        joinSegments (all.take zeros.start) ++ ascii "::" ++
          joinSegments (all.drop (zeros.start + zeros.len))
      else joinSegments all

structure AddressPolicy where
  ipv4Prefix : UInt8
  ipv6Prefix : UInt8
  deriving DecidableEq

def AddressPolicy.valid (policy : AddressPolicy) : Bool :=
  1 ≤ policy.ipv4Prefix && policy.ipv4Prefix ≤ 32 && 1 ≤ policy.ipv6Prefix && policy.ipv6Prefix ≤ 128

/-- IPv4-mapped sockets and native IPv4 identify the same client. -/
def IpAddr.unmap : IpAddr → IpAddr
  | .v6 bits => match toIpv4Mapped bits with
    | some inner => .v4 inner
    | none => .v6 bits
  | ip => ip

def AddressPolicy.network (policy : AddressPolicy) (ip : IpAddr) : Option IpAddr :=
  if policy.valid then
    some (match ip.unmap with
      | .v4 bits => .v4 (bits &&& (BitVec.allOnes 32 <<< (32 - policy.ipv4Prefix.toNat)))
      | .v6 bits => .v6 (bits &&& (BitVec.allOnes 128 <<< (128 - policy.ipv6Prefix.toNat))))
  else none

/-- Pre-serialized policy fields: everything after the host, and the whole scope when a
cookie domain replaces the host. -/
structure Scope where
  tail : Bytes
  domain : Option Bytes
  deriving DecidableEq

def trimDots (s : Bytes) : Bytes := s.dropWhile (· = 46)

/-- The four last fields are serialized as an array of their own, whose opening bracket becomes a comma. -/
def Scope.new (domain : Option Bytes) (name path endpoint policy : Bytes) : Scope :=
  let fields := Json.array [Json.string name, Json.string path, Json.string endpoint, Json.string policy]
  let tail := 44 :: fields.drop 1
  { tail
    domain := domain.map fun domain =>
      let domain := lower (trimDots domain)
      if domain = [] then [] else 91 :: (Json.string domain ++ tail) }

def isUpper (c : UInt8) : Bool := 65 ≤ c && c ≤ 90

/-- A host is raw bytes of the request, so the spliced scope may turn out to be no text. -/
def Scope.forHost (scope : Scope) (host : Bytes) : Option Bytes :=
  match scope.domain with
  | some domain => if domain = [] then none else some domain
  | none =>
    let host := trimDots host
    if host = [] then none
    else
      let host := if host.any isUpper then lower host else host
      fromUtf8 (91 :: (Json.string host ++ scope.tail))

/-- `u64::to_be_bytes`. -/
def be64 (n : Nat) : Bytes := (List.range 8).map fun i => (n / 256 ^ (7 - i)).toUInt8

/-- What `HmacKey::fields` feeds to the MAC. -/
def framed (fields : List Bytes) : Bytes := fields.flatMap fun field => be64 field.length ++ field

def contextMessage (network : IpAddr) (userAgent scope issuer : Bytes) (policy : AddressPolicy) : Bytes :=
  framed [ascii "pow-gate-context-v2", network.text, userAgent, scope, issuer,
    [policy.ipv4Prefix, policy.ipv6Prefix]]

/-- Assurance is authenticated in both challenges and clearances. -/
inductive Assurance where
  | pow (difficulty : UInt64)
  | noJs (delay : Int64)
  deriving DecidableEq, Repr

def Assurance.satisfies : Assurance → Assurance → Bool
  | .pow got, .pow need => need > 0 && got ≥ need
  | .noJs got, .noJs need => need > 0 && got ≥ need
  | _, _ => false

/-- Tagged by `kind`, in snake case. -/
def Assurance.json : Assurance → Bytes
  | .pow difficulty => ascii "\x7b\"kind\":\"pow\",\"difficulty\":" ++ (integer difficulty.toNat ++ [125])
  | .noJs delay => ascii "\x7b\"kind\":\"no_js\",\"delay\":" ++ (integer delay.toInt ++ [125])

theorem be64_length (n : Nat) : (be64 n).length = 8 := by simp [be64]

/-- A context message starts with the zero bytes of a length, unlike any text. -/
theorem contextMessage_head (network : IpAddr) (userAgent scope issuer : Bytes)
    (policy : AddressPolicy) :
    (contextMessage network userAgent scope issuer policy).head? = some 0 := by
  have size : be64 (ascii "pow-gate-context-v2").length = 0 :: [0, 0, 0, 0, 0, 0, 19] := by decide
  simp only [contextMessage,framed,List.flatMap_cons,size,List.cons_append]
  rfl

/-- The store identity sits at a fixed distance from the end. -/
theorem contextMessage_issuer
    (same : contextMessage network userAgent scope issuer policy =
      contextMessage network' userAgent' scope' issuer' policy')
    (size : issuer.length = issuer'.length) : issuer = issuer' := by
  have split : ∀ network userAgent scope issuer policy, contextMessage network userAgent scope issuer policy =
      (framed [ascii "pow-gate-context-v2", network.text, userAgent, scope] ++ be64 issuer.length) ++
        (issuer ++ (be64 2 ++ [policy.ipv4Prefix, policy.ipv6Prefix])) := by
    intro network userAgent scope issuer policy
    simp [contextMessage,framed]
  rw [split,split] at same
  obtain ⟨_, back⟩ := List.append_inj' same (by simp [size,be64_length])
  exact List.append_inj_left back size

end PowGate
