import PowGate.Crates

/-! Signatures by the client's key: the per-request proof and the redemption of a
challenge. -/
namespace PowGate.Proof

open Text

/-- `proof::verify_signature` of the portable build. -/
def verifySignature (crates : Crates) (pk message sig : Bytes) : Bool :=
  match crates.fromSec1Bytes pk with
  | none => false
  | some vk => match crates.fromSlice sig with
    | none => false
    | some sig => crates.verify vk message sig

/-- The signed message of a request. -/
def message (method path : Bytes) (ts : Int64) : Bytes :=
  method ++ 32 :: (path ++ 32 :: integer ts.toInt)

inductive ProofCheck where
  | valid
  | skewed
  | invalid
  deriving DecidableEq, Repr

/-- A timestamp outside the window is reported before any signature is examined. -/
def check (crates : Crates) (pk method path : Bytes) (ts : Int64) (sig : Bytes) (now skew : Int64) :
    ProofCheck :=
  if skew < 0 then .invalid
  else if skew.toInt < (now.toInt - ts.toInt).natAbs then .skewed
  else if verifySignature crates pk (message method path ts) sig then .valid
  else .invalid

/-- The canonical WebCrypto encoding of a key on the curve. -/
def validPublicKey (crates : Crates) (pk : Bytes) : Bool :=
  pk.length = 65 && pk.head? = some 4 && (crates.fromSec1Bytes pk).isSome

def challengeMessage (token : Bytes) : Bytes := ascii "pow-gate-redeem-v2 " ++ token

/-- Redemption proves possession of the key committed to the challenge. -/
def verifyChallenge (crates : Crates) (pk token sig : Bytes) : Bool :=
  verifySignature crates pk (challengeMessage token) sig

end PowGate.Proof
