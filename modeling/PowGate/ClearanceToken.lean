import PowGate.Crates

/-! The clearance token. Verification decodes into bounded storage and runs its
callback only after every check has passed. -/
namespace PowGate.Clearance

open Text

def macPrefix : Bytes := ascii "pow-gate-clearance-v2|"

/-- The MACed text of a payload. -/
def macInput (payload : Bytes) : Bytes := macPrefix ++ payload

def payload (pk context : Bytes) (assurance : Assurance) (iat ttl : Int64) : Clearance where
  version := 2
  pk := b64url pk
  context := context
  assurance := assurance
  iat := iat
  exp := iat + ttl

/-- The text `payload.tag` of a clearance. -/
def text (crates : Crates) (key : Bytes) (clearance : Clearance) : Bytes :=
  b64url clearance.json ++ 46 :: crates.tag key (macInput (b64url clearance.json))

def issue (crates : Crates) (key pk context : Bytes) (assurance : Assurance) (iat ttl : Int64) : Bytes :=
  text crates key (payload pk context assurance iat ttl)

/-- The authenticated payload and its decoded key. -/
structure Verified where
  clearance : Clearance
  publicKey : Bytes
  deriving DecidableEq

/-- The decoded key: the canonical shape for proof of work, none without scripts. -/
def publicKey (clearance : Clearance) : Option Bytes :=
  match clearance.assurance with
  | .pow _ => (unb64urlFixed 65 clearance.pk).filter fun pk => pk.head? = some 4
  | .noJs _ => if clearance.pk = [] then some [] else none

/-- `i64::checked_sub`. -/
def checkedSub (a b : Int64) : Option Int64 :=
  let exact := a.toInt - b.toInt
  if -2 ^ 63 ≤ exact ∧ exact < 2 ^ 63 then some (Int64.ofInt exact) else none

def useAuthenticatedPayload (crates : Crates) (decoded context : Bytes) (required : Assurance)
    (now maxAge : Int64) : Option Verified := do
  let clearance ← crates.readClearance decoded
  if clearance.version ≠ 2 ∨ clearance.context ≠ context ∨
      clearance.assurance.satisfies required = false ∨ clearance.exp ≤ now ∨ now < clearance.iat ∨
      maxAge ≤ 0 then none
  else
    let age ← checkedSub now clearance.iat
    if maxAge ≤ age then none
    else (publicKey clearance).map fun key => ⟨clearance, key⟩

/-- Payloads of at most 680 characters are decoded into a 512-byte buffer. -/
def decodePayload (payload : Bytes) : Option Bytes :=
  if payload.length ≤ 512 / 3 * 4 then unb64urlInto 512 payload else unb64url payload

/-- `verify_prepared`, before the callback. -/
def verified (crates : Crates) (key token context : Bytes) (required : Assurance)
    (now maxAge : Int64) : Option Verified :=
  if 4096 < token.length then none
  else do
    let (payload, tag) ← splitOnce 46 token
    let provided ← unb64urlFixed 32 tag
    if (crates.hmacSha256 key (macInput payload)).toList ≠ provided then none
    else useAuthenticatedPayload crates (← decodePayload payload) context required now maxAge

def withVerifiedPrepared (crates : Crates) (key token context : Bytes) (required : Assurance)
    (now maxAge : Int64) (useClearance : Verified → α) : Option α :=
  (verified crates key token context required now maxAge).map useClearance

/-- The conditions on an authentic payload. -/
structure Current (clearance : Clearance) (context : Bytes) (required : Assurance)
    (now maxAge : Int64) : Prop where
  version : clearance.version = 2
  context : clearance.context = context
  assurance : clearance.assurance.satisfies required = true
  begun : clearance.iat ≤ now
  unexpired : now < clearance.exp
  young : now.toInt - clearance.iat.toInt < maxAge.toInt

theorem checkedSub_some : checkedSub a b = some c ↔
    c.toInt = a.toInt - b.toInt := by
  unfold checkedSub
  simp only
  constructor
  · intro found
    split at found
    · next range =>
      cases found
      rw [Int64.toInt_ofInt_of_le (by simpa using range.1) (by simpa using range.2)]
    · cases found
  · intro same
    have low := Int64.le_toInt c
    have high := Int64.toInt_lt c
    rw [if_pos ⟨by omega, by omega⟩,← same,Int64.ofInt_toInt]

section Specification

variable {crates : Crates} {key token decoded context : Bytes} {required : Assurance}
  {now maxAge : Int64} {found : Verified}

theorem useAuthenticatedPayload_some :
    useAuthenticatedPayload crates decoded context required now maxAge = some found ↔
      crates.readClearance decoded = some found.clearance ∧
        Current found.clearance context required now maxAge ∧
        publicKey found.clearance = some found.publicKey := by
  have zero : Int64.toInt 0 = 0 := by decide
  unfold useAuthenticatedPayload
  constructor
  · intro used
    obtain ⟨clearance, read, used⟩ := Option.bind_eq_some_iff.mp used
    split at used
    · cases used
    · next checks =>
      obtain ⟨age, difference, used⟩ := Option.bind_eq_some_iff.mp used
      split at used
      · cases used
      · next old =>
        obtain ⟨key, opened, rfl⟩ := Option.map_eq_some_iff.mp used
        have exact := checkedSub_some.mp difference
        simp only [not_or,Decidable.not_not,Bool.not_eq_false,Int64.le_iff_toInt_le,
          Int64.lt_iff_toInt_lt] at checks old
        obtain ⟨version, same, assurance, unexpired, begun, _⟩ := checks
        rw [exact] at old
        exact ⟨read, ⟨version, same, assurance, Int64.le_iff_toInt_le.mpr (Int.not_lt.mp begun),
          Int64.lt_iff_toInt_lt.mpr (Int.not_le.mp unexpired), Int.not_le.mp old⟩, opened⟩
  · rintro ⟨read, ⟨version, same, assurance, begun, unexpired, young⟩, opened⟩
    have low := Int64.le_iff_toInt_le.mp begun
    have high := Int64.toInt_lt maxAge
    have exact : (Int64.ofInt (now.toInt - found.clearance.iat.toInt)).toInt =
        now.toInt - found.clearance.iat.toInt :=
      Int64.toInt_ofInt_of_le (by omega) (by omega)
    have difference := checkedSub_some.mpr exact
    rw [read,Option.bind_eq_bind,Option.bind_some,if_neg,difference,Option.bind_eq_bind,
      Option.bind_some,if_neg,opened,Option.map_some]
    · simp only [Int64.le_iff_toInt_le,exact]
      omega
    · simp only [version,same,assurance,Int64.le_iff_toInt_le,Int64.lt_iff_toInt_lt,zero,ne_eq,
        not_true,false_or,Bool.true_eq_false]
      have := Int64.lt_iff_toInt_lt.mp unexpired
      omega

/-- What an accepted text is: the sealed payload of the clearance that was read. -/
structure Authentic (crates : Crates) (key token : Bytes) (clearance : Clearance) : Prop where
  short : token.length ≤ 4096
  sealed : ∃ raw, token = b64url raw ++ 46 :: crates.tag key (macInput (b64url raw)) ∧
    crates.readClearance raw = some clearance

/-- The buffer is never too small for a payload that is decoded into it. -/
theorem decodePayload_eq (payload : Bytes) : decodePayload payload = unb64url payload := by
  unfold decodePayload
  split
  · next short =>
    unfold unb64urlInto unb64url
    cases opened : Base64.decode payload with
    | none => rfl
    | some raw =>
      have size := Base64.length_encode raw
      rw [Base64.encode_of_decode opened] at size
      have fits : raw.length ≤ 512 := by omega
      simp [Option.filter,fits]
  · rfl

theorem verified_some : verified crates key token context required now maxAge = some found ↔
    Authentic crates key token found.clearance ∧
      Current found.clearance context required now maxAge ∧
      publicKey found.clearance = some found.publicKey := by
  unfold verified
  constructor
  · intro passed
    split at passed
    · cases passed
    · next short =>
      obtain ⟨⟨payload, tag⟩, cut, passed⟩ := Option.bind_eq_some_iff.mp passed
      obtain ⟨provided, opened, passed⟩ := Option.bind_eq_some_iff.mp passed
      split at passed
      · cases passed
      · next same =>
        obtain ⟨raw, unpacked, used⟩ := Option.bind_eq_some_iff.mp passed
        obtain ⟨read, current, shape⟩ := useAuthenticatedPayload_some.mp used
        rw [decodePayload_eq] at unpacked
        have sealed : b64url raw = payload := Base64.encode_of_decode unpacked
        have mac : Base64.encode provided = tag :=
          Base64.encode_of_decode (unb64urlFixed_some.mp opened).1
        refine ⟨⟨by omega, raw, ?_, read⟩, current, shape⟩
        rw [(splitOnce_some cut).1,sealed,Crates.tag,Decidable.not_not.mp same,b64url,mac]
  · rintro ⟨⟨short, raw, rfl, read⟩, current, shape⟩
    have cut := splitOnce_append _ (crates.tag key (macInput (b64url raw))) (b64url_no_dot raw)
    have opened := unb64urlFixed_b64url (n := 32)
      (crates.hmacSha256 key (macInput (b64url raw))).toList (by simp)
    rw [if_neg (by omega),cut]
    simp only [Option.bind_eq_bind,Option.bind_some,Crates.tag,opened,decodePayload_eq,
      unb64url_b64url,ne_eq,not_true,if_false]
    exact useAuthenticatedPayload_some.mpr ⟨read, current, shape⟩

end Specification

end PowGate.Clearance
