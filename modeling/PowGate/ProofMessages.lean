import PowGate.Pow
import PowGate.Reference

/-! The two texts a client key signs, a request proof and a redemption: which of them
can be equal. A request proof is cut at its first and at its last space; a redemption
has one space only, because a token that was checked is base64url. -/
namespace PowGate.Proof

open Text

theorem integer_no_space (i : Int) : 32 ∉ integer i := by
  intro member
  rcases integer_bytes member with digit | minus
  · simp [isDigit] at digit
  · cases minus

/-- A method without spaces ends at the first space of the message. -/
theorem splitOnce_message (path : Bytes) (ts : Int64) (plain : 32 ∉ verb) :
    splitOnce 32 (message verb path ts) = some (verb, path ++ 32 :: integer ts.toInt) := by
  simp [message,plain]

/-- The timestamp starts after the last space. -/
theorem rsplitOnce_message (verb path : Bytes) (ts : Int64) :
    rsplitOnce 32 (message verb path ts) = some (verb ++ 32 :: path, integer ts.toInt) := by
  have grouped : message verb path ts = (verb ++ 32 :: path) ++ 32 :: integer ts.toInt := by
    simp [message]
  rw [grouped,rsplitOnce_append _ _ (integer_no_space _)]

theorem message_injective (plain : 32 ∉ verb) (plain' : 32 ∉ verb')
    (same : message verb path ts = message verb' path' ts') :
    verb = verb' ∧ path = path' ∧ ts = ts' := by
  have starts := splitOnce_message path ts plain
  rw [same,splitOnce_message path' ts' plain'] at starts
  have ends := rsplitOnce_message verb path ts
  rw [same,rsplitOnce_message] at ends
  simp only [Option.some.injEq,Prod.mk.injEq] at starts ends
  obtain ⟨rfl, _⟩ := starts
  obtain ⟨front, stamps⟩ := ends
  have paths := List.append_cancel_left front
  have times : some ts' = some ts := by
    rw [← parseI64_integer ts',stamps,parseI64_integer]
  exact ⟨rfl, (List.cons.inj paths).2.symm, (Option.some.inj times).symm⟩

/-- A request proof has two spaces, a redemption of a token without spaces one. -/
theorem message_ne_challengeMessage (verb path : Bytes) (ts : Int64) (plain : 32 ∉ token) :
    message verb path ts ≠ challengeMessage token := by
  intro same
  have spaces : (challengeMessage token).count 32 = 1 := by
    rw [challengeMessage,List.count_append,List.count_eq_zero.mpr plain]
    decide
  rw [← same] at spaces
  simp only [message,List.count_append,List.count_cons_self] at spaces
  omega

/-- A token that passed the comparison with the HMAC has the base64url alphabet. -/
theorem token_no_space (passed : Pow.verifySolution crates key challenge nonce pk context required now ≠ .badToken) :
    32 ∉ challenge.token := by
  have tagged : Pow.token crates key challenge.salt challenge.exp challenge.difficulty pk context =
      challenge.token := by
    by_contra other
    exact passed (by simp [Pow.verifySolution,other])
  rw [← tagged]
  intro member
  exact (b64url_plain _ 32 member).2.2 (by simp)

/-- One signature verifies under the key for two different messages. -/
def Doubles (crates : Crates) (pk sig text text' : Bytes) : Prop :=
  text ≠ text' ∧ verifySignature crates pk text sig = true ∧ verifySignature crates pk text' sig = true

theorem check_valid (passed : check crates pk verb path ts sig now skew = .valid) :
    verifySignature crates pk (message verb path ts) sig = true := by
  unfold check at passed
  split at passed
  · cases passed
  split at passed
  · cases passed
  split at passed
  · assumption
  · cases passed

/-- Messages are apart, between two requests and between a request and a redemption. So a
signature that does not verify for both of two such messages proves one request or redeems one
challenge, not both. -/
theorem signature_keeps_its_purpose :
    (∀ verb path ts verb' path' ts', 32 ∉ verb → 32 ∉ verb' →
      message verb path ts = message verb' path' ts' → verb = verb' ∧ path = path' ∧ ts = ts') ∧
    (∀ crates key challenge nonce pk context required now,
      Pow.verifySolution crates key challenge nonce pk context required now ≠ .badToken →
      ∀ verb path ts, message verb path ts ≠ challengeMessage challenge.token) ∧
    (∀ crates pk sig key challenge nonce context required now verb path ts clock skew,
      ¬Doubles crates pk sig (message verb path ts) (challengeMessage challenge.token) →
      Pow.verifySolution crates key challenge nonce pk context required now ≠ .badToken →
      (check crates pk verb path ts sig clock skew = .valid → verifyChallenge crates pk challenge.token sig = false) ∧
      (verifyChallenge crates pk challenge.token sig = true → check crates pk verb path ts sig clock skew ≠ .valid)) ∧
    ∀ crates pk sig verb path ts clock skew verb' path' ts' clock' skew', 32 ∉ verb → 32 ∉ verb' →
      ¬Doubles crates pk sig (message verb path ts) (message verb' path' ts') →
      check crates pk verb path ts sig clock skew = .valid →
      check crates pk verb' path' ts' sig clock' skew' = .valid →
      verb = verb' ∧ path = path' ∧ ts = ts' := by
  refine ⟨fun _ _ _ _ _ _ plain plain' => message_injective plain plain',
    fun _ _ _ _ _ _ _ _ passed verb path ts =>
      message_ne_challengeMessage verb path ts (token_no_space passed), ?_, ?_⟩
  · intro crates pk sig key challenge nonce context required now verb path ts clock skew single passed
    have apart : ¬(check crates pk verb path ts sig clock skew = .valid ∧ verifyChallenge crates pk challenge.token sig = true) :=
      fun ⟨proved, redeemed⟩ =>
        single ⟨message_ne_challengeMessage verb path ts (token_no_space passed), check_valid proved, redeemed⟩
    refine ⟨fun proved => ?_, fun redeemed proved => apart ⟨proved, redeemed⟩⟩
    by_contra redeemed
    exact apart ⟨proved, by simpa using redeemed⟩
  · intro crates pk sig verb path ts clock skew verb' path' ts' clock' skew' plain plain' single proved proved'
    refine message_injective plain plain' ?_
    by_contra differ
    exact single ⟨differ, check_valid proved, check_valid proved'⟩

section Sample

def fixedBytes (size n : Nat) : Bytes := (List.range size).reverse.map fun i => (n >>> (8 * i)).toUInt8

/-- The base point of the curve: the public key of the private key one. -/
def basePoint : Bytes :=
  4 :: (fixedBytes 32 0x6b17d1f2e12c4247f8bce6e563a440f277037d812deb33a0f4a13945d898c296 ++
    fixedBytes 32 0x4fe342e2fe1a7f9b8ee7eb4a7c0f9e162bce33576b315ececbb6406837bf51f5)

/-- Made by that key for `GET / 100`. -/
def sampleSignature : Bytes :=
  fixedBytes 32 0x8e533b6fa0bf7b4625bb30667c01fb607ef9f8b8a80fef5b300628703187b2a3 ++
    fixedBytes 32 0xdc2bd434a3bd2f28181e800f47f8754ddc55b9ddb61275a4dc91633cd20489c1

/-- The reference crates, with the verification of that signature. -/
def sampleCrates : Crates :=
  { Reference.crates with
    verify := fun vk text sig => vk = basePoint && text = ascii "GET / 100" && sig = sampleSignature }

theorem sample_single (text text' : Bytes) : ¬Doubles sampleCrates basePoint sampleSignature text text' := by
  have one : ∀ text, verifySignature sampleCrates basePoint text sampleSignature = true →
      text = ascii "GET / 100" := by
    intro text verified
    have known : sampleCrates.fromSec1Bytes basePoint = some basePoint := by decide +kernel
    have sized : sampleCrates.fromSlice sampleSignature = some sampleSignature := by decide +kernel
    simp only [verifySignature,known,sized] at verified
    simpa [sampleCrates] using verified
  rintro ⟨differ, verified, verified'⟩
  exact differ ((one text verified).trans (one text' verified').symm)

/-- The captured proof of `GET / 100` does not redeem a challenge of the same key. -/
theorem signature_keeps_its_purpose_sample :
    check sampleCrates basePoint (ascii "GET") (ascii "/") 100 sampleSignature 100 30 = .valid ∧
    verifyChallenge sampleCrates basePoint
      (Pow.issue sampleCrates [] (Vector.replicate 16 0) basePoint [] 1 0 60).token sampleSignature = false := by
  have proved : check sampleCrates basePoint (ascii "GET") (ascii "/") 100 sampleSignature 100 30 = .valid := by
    decide +kernel
  have issued : Pow.verifySolution sampleCrates []
      (Pow.issue sampleCrates [] (Vector.replicate 16 0) basePoint [] 1 0 60) 0 basePoint [] 1 60 ≠ .badToken := by
    simp [Pow.verifySolution,Pow.issue]
  refine ⟨proved, ?_⟩
  exact (signature_keeps_its_purpose.2.2.1 _ _ _ _ _ _ _ _ _ _ _ _ _ _ (sample_single _ _) issued).1 proved

end Sample

end PowGate.Proof
