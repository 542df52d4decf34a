import PowGate.RequestProof

/-! The proof-of-work challenge: its target arithmetic, the MACed parameters and the
checks on a submitted solution. -/
namespace PowGate

open Text

/-- Long division base 256, most significant digit first, in 128-bit arithmetic. -/
def longDivision (d : Nat) : List UInt8 → Nat → List UInt8
  | [], _ => []
  | digit :: rest, remainder =>
    let cur := (remainder <<< 8 % 2 ^ 128) ||| digit.toNat
    (cur / d).toUInt8 :: longDivision d rest (cur % d)

/-- `floor(2^256 / difficulty)` as 32 big-endian bytes; the maximum for `0` and `1`. -/
def difficultyToTarget (difficulty : UInt64) : Bytes :=
  if difficulty ≤ 1 then List.replicate 32 0xff
  else (longDivision difficulty.toNat (1 :: List.replicate 32 0) 0).drop 1

/-- Strictly less, big-endian. -/
def hashBelow : Bytes → Bytes → Bool
  | h :: hash, t :: target => if h ≠ t then h < t else hashBelow hash target
  | _, _ => false

def powHash (crates : Crates) (salt : Bytes) (nonce : UInt64) : Digest :=
  crates.sha256 (salt ++ decimal nonce.toNat)

def solutionValid (crates : Crates) (salt : Bytes) (nonce difficulty : UInt64) : Bool :=
  hashBelow (powHash crates salt nonce).toList (difficultyToTarget difficulty)

namespace Pow

/-- The MACed parameters, a JSON array. -/
def binding (salt : Bytes) (exp : Int64) (difficulty : UInt64) (pk context : Bytes) : Bytes :=
  91 :: (Json.string (ascii "pow-gate-challenge-v2") ++ 44 :: (Json.string salt ++ 44 ::
    (integer exp.toInt ++ 44 :: (integer difficulty.toNat ++ 44 :: (Json.string (b64url pk) ++ 44 ::
    (Json.string context ++ [93]))))))

/-- The token of a challenge with these parameters. -/
def token (crates : Crates) (key salt : Bytes) (exp : Int64) (difficulty : UInt64)
    (pk context : Bytes) : Bytes :=
  crates.tag key (binding salt exp difficulty pk context)

def issue (crates : Crates) (key : Bytes) (random : Vector UInt8 16) (pk context : Bytes)
    (difficulty : UInt64) (now ttl : Int64) : Challenge :=
  let salt := hex random.toList
  let exp := now + ttl
  { version := 2, salt, exp, difficulty
    token := token crates key salt exp difficulty pk context }

inductive Verdict where
  | ok
  | expired
  | badToken
  | wrongSolution
  deriving DecidableEq, Repr

def verifySolution (crates : Crates) (key : Bytes) (challenge : Challenge) (nonce : UInt64)
    (pk context : Bytes) (required : UInt64) (now : Int64) : Verdict :=
  if challenge.version ≠ 2 ∨ challenge.difficulty = 0 ∨ challenge.difficulty ≠ required ∨
      token crates key challenge.salt challenge.exp challenge.difficulty pk context ≠
        challenge.token then .badToken
  else if challenge.exp ≤ now then .expired
  else if solutionValid crates challenge.salt nonce challenge.difficulty = false then .wrongSolution
  else .ok

/-- What a verified solution has established. -/
structure Solved (crates : Crates) (key : Bytes) (challenge : Challenge) (nonce : UInt64)
    (pk context : Bytes) (required : UInt64) (now : Int64) : Prop where
  version : challenge.version = 2
  difficulty : challenge.difficulty = required
  positive : 0 < required
  token : challenge.token = token crates key challenge.salt challenge.exp required pk context
  unexpired : now < challenge.exp
  solution : solutionValid crates challenge.salt nonce required = true

theorem verifySolution_ok : verifySolution crates key challenge nonce pk context required now = .ok ↔
    Solved crates key challenge nonce pk context required now := by
  constructor
  · intro passed
    unfold verifySolution at passed
    split at passed
    · cases passed
    split at passed
    · cases passed
    split at passed
    · cases passed
    · next checks late solution =>
      simp only [not_or,Decidable.not_not] at checks
      obtain ⟨version, nonzero, difficulty, token⟩ := checks
      rw [difficulty] at nonzero token solution
      exact ⟨version, difficulty, UInt64.pos_iff_ne_zero.mpr nonzero, token.symm,
        by simpa [Int64.not_le] using late, by simpa using solution⟩
  · rintro ⟨version, difficulty, positive, token, unexpired, solution⟩
    have nonzero := UInt64.pos_iff_ne_zero.mp positive
    rw [verifySolution,if_neg,if_neg,if_neg]
    · simp [difficulty,solution]
    · simpa [Int64.not_le] using unexpired
    · simp [version,difficulty,nonzero,token]

theorem breaks_comma (rest : Bytes) : Json.Breaks (44 :: rest) := by
  intro c member
  simp only [List.head?_cons,Option.mem_def,Option.some.injEq] at member
  subst member
  decide

/-- The MACed text determines every parameter. -/
theorem binding_injective (same : binding salt exp difficulty pk context =
      binding salt' exp' difficulty' pk' context') :
    salt = salt' ∧ exp = exp' ∧ difficulty = difficulty' ∧ pk = pk' ∧ context = context' := by
  simp only [binding,List.cons.injEq,true_and] at same
  have afterLabel := (Json.string_append_inj same).2
  obtain ⟨salts, rest⟩ := Json.string_append_inj (List.cons.inj afterLabel).2
  obtain ⟨exps, rest⟩ := Json.integer_append_inj (List.cons.inj rest).2 (breaks_comma _) (breaks_comma _)
  obtain ⟨difficulties, rest⟩ :=
    Json.integer_append_inj (List.cons.inj rest).2 (breaks_comma _) (breaks_comma _)
  obtain ⟨keys, rest⟩ := Json.string_append_inj (List.cons.inj rest).2
  obtain ⟨contexts, _⟩ := Json.string_append_inj (List.cons.inj rest).2
  exact ⟨salts, Int64.toInt_inj.mp exps, UInt64.toNat_inj.mp (Int.ofNat_inj.mp difficulties),
    Base64.encode_injective keys, contexts⟩

end Pow

end PowGate
