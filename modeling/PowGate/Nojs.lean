import PowGate.Crates

/-! The no-JS grant: a MACed payload that may be redeemed once its wait is over.
Issuing degrades an unsafe return path to `/`; verifying bounds the token length. -/
namespace PowGate

open Text

/-- `uri::same_site_path`: absolute, not protocol-relative, printable, free of quotes,
angle brackets and backslashes. -/
def sameSitePath (path : Bytes) : Bool :=
  path.head? = some 47 && !((stripPrefix [47, 47] path).isSome) &&
    path.all fun b => 0x21 ≤ b && b < 0x7f && b ∉ [34, 60, 62, 92]

namespace Nojs

def nojsGrace : Int64 := 120

inductive Verdict where
  | ok (grant : Grant)
  | tooEarly (grant : Grant)
  | bad
  deriving DecidableEq

def macInput (payload : Bytes) : Bytes := ascii "nojs-v2|" ++ payload

/-- The path a grant really carries. -/
def safePath (path : Bytes) : Bytes := if sameSitePath path then path else ascii "/"

def newGrant (random : Vector UInt8 16) (path : Bytes) (delay now : Int64) (context : Bytes) : Grant where
  context := context
  id := b64url random.toList
  version := 2
  path := safePath path
  iat := now
  delay := delay

/-- The text `payload.tag` of a grant. -/
def text (crates : Crates) (key : Bytes) (grant : Grant) : Bytes :=
  b64url grant.json ++ 46 :: crates.tag key (macInput (b64url grant.json))

/-- Mint a grant for `path` with a minimum wait of `delay` seconds. -/
def issue (crates : Crates) (key : Bytes) (random : Vector UInt8 16) (path : Bytes)
    (delay now : Int64) (context : Bytes) : Bytes :=
  text crates key (newGrant random path delay now context)

/-- The checks on an authenticated payload. -/
def judge (grant : Grant) (now : Int64) (context : Bytes) : Verdict :=
  if grant.version ≠ 2 ∨ grant.context ≠ context ∨ sameSitePath grant.path = false ∨
      ¬ (1 ≤ grant.delay ∧ grant.delay ≤ 30) ∨ now < grant.iat ∨
      nojsGrace.toInt ≤ (now.toInt - grant.iat.toInt).natAbs then .bad
  else if now < grant.iat + grant.delay then .tooEarly grant else .ok grant

def verify (crates : Crates) (key token : Bytes) (now : Int64) (context : Bytes) : Verdict :=
  if 8192 < token.length then .bad
  else match splitOnce 46 token with
  | none => .bad
  | some (payload, tag) =>
    match unb64url tag with
    | none => .bad
    | some provided =>
      if (crates.hmacSha256 key (macInput payload)).toList ≠ provided then .bad
      else match (unb64url payload).bind crates.readGrant with
      | none => .bad
      | some grant => judge grant now context

theorem safePath_safe (path : Bytes) : sameSitePath (safePath path) = true := by
  unfold safePath
  split
  · assumption
  · decide

theorem sameSitePath_plain (safe : sameSitePath path = true) : ∀ c ∈ path, Json.Plain c ∧ c < 128 := by
  intro c member
  simp only [sameSitePath,Bool.and_eq_true,List.all_eq_true,decide_eq_true_eq] at safe
  obtain ⟨⟨low, high⟩, free⟩ := safe.2 c member
  simp only [List.mem_cons,List.not_mem_nil,or_false,not_or] at free
  simp only [UInt8.le_iff_toNat_le,UInt8.lt_iff_toNat_lt] at low high
  refine ⟨⟨UInt8.le_iff_toNat_le.mpr ?_, free.1, free.2.2.2⟩, UInt8.lt_iff_toNat_lt.mpr ?_⟩
  · exact Nat.le_trans (by decide) low
  · exact Nat.lt_of_lt_of_le high (by decide)

/-- Everything an accepted text is: within the length bound, and the sealed payload of the
grant that was read. -/
structure Authentic (crates : Crates) (key token : Bytes) (grant : Grant) : Prop where
  short : token.length ≤ 8192
  sealed : ∃ raw, token = b64url raw ++ 46 :: crates.tag key (macInput (b64url raw)) ∧
    crates.readGrant raw = some grant

theorem verify_eq (authentic : Authentic crates key token grant) :
    verify crates key token now context = judge grant now context := by
  obtain ⟨short, raw, rfl, read⟩ := authentic
  have cut := splitOnce_append _ (crates.tag key (macInput (b64url raw))) (b64url_no_dot raw)
  rw [verify,if_neg (by omega),cut]
  simp [Crates.tag,read]

theorem verify_authentic (passed : verify crates key token now context ≠ .bad) :
    ∃ grant, Authentic crates key token grant := by
  unfold verify at passed
  split at passed
  · exact absurd rfl passed
  · next short =>
    split at passed
    · exact absurd rfl passed
    · next payload tag cut =>
      split at passed
      · exact absurd rfl passed
      · next provided opened =>
        split at passed
        · exact absurd rfl passed
        · next same =>
          split at passed
          · exact absurd rfl passed
          · next grant parsed =>
            obtain ⟨raw, unpacked, read⟩ := Option.bind_eq_some_iff.mp parsed
            have body := Base64.encode_of_decode unpacked
            have mac := Base64.encode_of_decode opened
            refine ⟨grant, by omega, raw, ?_, read⟩
            have sealed : b64url raw = payload := body
            rw [(splitOnce_some cut).1,sealed,Crates.tag,Decidable.not_not.mp same,b64url,mac]

/-- The checks of an authentic grant, spelled out. -/
structure Admissible (grant : Grant) (now : Int64) (context : Bytes) : Prop where
  version : grant.version = 2
  context : grant.context = context
  path : sameSitePath grant.path = true
  delay : 1 ≤ grant.delay ∧ grant.delay ≤ 30
  begun : grant.iat ≤ now
  fresh : now.toInt - grant.iat.toInt < 120

theorem judge_eq (admissible : Admissible grant now context) :
    judge grant now context =
      if now < grant.iat + grant.delay then .tooEarly grant else .ok grant := by
  obtain ⟨version, same, path, delay, begun, fresh⟩ := admissible
  have grace : nojsGrace.toInt = 120 := by decide
  have order := Int64.le_iff_toInt_le.mp begun
  have early : ¬ now < grant.iat := by
    rw [Int64.lt_iff_toInt_lt]
    omega
  rw [judge,if_neg]
  simp only [version,same,path,delay,early,grace,ne_eq,not_true,false_or,and_self,
    Bool.true_eq_false]
  omega

theorem judge_admissible (passed : judge grant now context ≠ .bad) : Admissible grant now context := by
  unfold judge at passed
  split at passed
  · exact absurd rfl passed
  · next checks =>
    have grace : nojsGrace.toInt = 120 := by decide
    simp only [not_or,not_not,grace] at checks
    obtain ⟨version, same, path, delay, begun, fresh⟩ := checks
    rw [Int64.lt_iff_toInt_lt] at begun
    exact ⟨version, same, by simpa using path, delay, Int64.le_iff_toInt_le.mpr (by omega), by omega⟩

theorem judge_grant (judged : judge grant now context = .ok found ∨ judge grant now context = .tooEarly found) :
    found = grant := by
  have passed : judge grant now context ≠ .bad := by
    rcases judged with h | h <;> simp [h]
  rw [judge_eq (judge_admissible passed)] at judged
  split at judged <;> simp_all

end Nojs

end PowGate
