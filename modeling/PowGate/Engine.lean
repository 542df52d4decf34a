import PowGate.ClearanceToken
import PowGate.Config
import PowGate.Ledger
import PowGate.Nojs
import PowGate.Pow

/-! The endpoint handlers over the protocol core. A handler's answer keeps what it
hands out (a challenge, a no-JS page, a prepared redemption) apart from the bytes
of the response. The outcome variables for the log are left out. -/
namespace PowGate

open Text

abbrev Headers := List (Bytes × Bytes)

structure Response where
  status : Nat
  contentType : Bytes
  body : Bytes
  headers : Headers
  deriving DecidableEq

/-- `response::no_store`. -/
def noStore (out : Headers) : Headers :=
  if out.any fun (key, _) => eqIgnoreCase key (ascii "cache-control") then out
  else out ++ [(ascii "Cache-Control", ascii "no-store")]

/-- A header is not added twice with the same value. -/
def addHeader (out : Headers) (field : Bytes × Bytes) : Headers :=
  if out.any fun (key, value) => eqIgnoreCase key field.1 && value = field.2 then out else out ++ [field]

/-- `response::send_with_headers` on a request whose outgoing headers are `out`. -/
def send (out : Headers) (status : Nat) (contentType body : Bytes) (headers : Headers) : Response where
  status := status
  contentType := contentType
  body := body
  headers := noStore (headers.foldl addHeader out)

def plainText : Bytes := ascii "text/plain"
def html : Bytes := ascii "text/html; charset=utf-8"

/-- What a redemption consumes: a solved challenge with its key, or a grant waited for. -/
inductive Origin where
  | work (submission : Submission) (pk : Bytes)
  | wait (grant : Grant)
  deriving DecidableEq

/-- A response that waits for the store to accept the redemption: the clearance, the
`Set-Cookie` value that carries it, and where to redirect. -/
structure Prepared where
  clearance : Clearance
  cookie : Bytes
  redirect : Option Bytes
  deriving DecidableEq

/-- What a handler does with its request. -/
inductive Answer where
  /-- `NGX_DECLINED`: the request goes on to the upstream. -/
  | declined
  /-- An HTTP status for nginx to answer with. -/
  | code (status : Nat) (out : Headers)
  | sent (response : Response)
  /-- Fresh challenge parameters for a key and a context, with the server's clock. -/
  | challenge (challenge : Challenge) (pk context : Bytes) (now : Int64) (out : Headers)
  /-- The no-JS page for the pass URL of a fresh grant. -/
  | nojsPage (template : Bytes) (grant : Grant) (passUrl : Bytes) (delay : Int64) (out : Headers)
  /-- The request body is read first. -/
  | readBody (out : Headers)
  /-- A panic, which ends the worker process. -/
  | abort
  /-- `redemption::redeem`. -/
  | redeem (origin : Origin) (token : Bytes) (expires : Int64) (grant : Prepared) (out : Headers)
  deriving DecidableEq

/-- What a worker's other parts answer while a request is handled. -/
structure Worker where
  crates : Crates
  /-- `redemption::issuer`. -/
  issuer : Option Digest
  clusterEnabled : Bool
  clusterAvailable : Bool
  verifierResult : Bytes → IpAddr → Bool
  /-- `body_limit::enable`. -/
  bodyLimit : Bool
  /-- The status of `ngx_http_read_client_request_body`. -/
  readBodyStatus : Int
  solverJs : Bytes

def Worker.solverQuery (w : Worker) : Bytes := PowGate.solverQuery w.crates w.solverJs

/-- The clock readings of one handler, in the order it makes them, and its random bytes. -/
structure Readings where
  clock : Int64
  later : Int64
  last : Int64
  random : Vector UInt8 16

def challengeGrace : Int64 := 120
def verifyLimit : Nat := 8192

section Handlers

variable (w : Worker) (r : Request) (cfg : Cfg) (t : Readings)

def issueChallenge (required : Assurance) (out : Headers) : Answer :=
  if cfg.keyOk = false ∨ (w.clusterEnabled ∧ ¬ w.clusterAvailable) then
    .sent (send out 503 plainText (ascii "unavailable\n") [])
  else match required with
  | .noJs _ => .code 400 out
  | .pow difficulty =>
    let pk := ((r.headerLimited (ascii "x-pow-key") 87).filter fun s => s.length = 87).bind unb64url
    match pk.filter (Proof.validPublicKey w.crates) with
    | none => .code 400 out
    | some pk => match clientContext w.crates w.issuer r cfg with
      | none => .code 503 out
      | some context =>
        .challenge (Pow.issue w.crates cfg.key t.random pk context difficulty t.clock challengeGrace)
          pk context t.later out

/-- The body of a challenge response; the keys of a JSON value are sorted. -/
def Challenge.body (challenge : Challenge) (now : Int64) : Bytes :=
  ascii "\x7b\"difficulty\":" ++ (integer challenge.difficulty.toNat ++ (ascii ",\"exp\":" ++
    (integer challenge.exp.toInt ++ (ascii ",\"now\":" ++ (integer now.toInt ++ (ascii ",\"salt\":" ++
    (Json.string challenge.salt ++ (ascii ",\"token\":" ++ (Json.string challenge.token ++
    (ascii ",\"version\":" ++ (integer challenge.version.toNat ++ [125])))))))))))

/-- The phase handler of `verify`: bound the body, then read it. -/
def verifySolution (out : Headers) : Answer :=
  if verifyLimit < r.contentLength then .code 413 out
  else if w.bodyLimit = false then .code 503 out
  else if 300 ≤ w.readBodyStatus then .code w.readBodyStatus.toNat out
  else .readBody out

def rejected (out : Headers) (status : Nat) : Answer :=
  .sent (send out status plainText (ascii "rejected\n") [])

/-- The requirement derived again from the decision of this request. -/
def requiredAssurance (lc : LocationConf) : Assurance :=
  assuranceFor (.parse (r.evalComplexValue lc.decision)) cfg

/-- The clearance is minted before the store is asked, and sent only after it accepted. -/
def prepare (pk context : Bytes) (assurance : Assurance) (redirect : Option Bytes) : Prepared where
  clearance := Clearance.payload pk context assurance t.clock cfg.clearanceTtl
  cookie := buildSetCookie
    (Clearance.issue w.crates cfg.key pk context assurance t.clock cfg.clearanceTtl) cfg.cookie
  redirect := redirect

/-- The body callback of `verify`. `body` is what could be read, if anything. -/
def verifyBody (lc : LocationConf) (body : Option Bytes) (out : Headers) : Answer :=
  if cfg.keyOk = false then rejected out 503
  else match (body.filter fun b => b.length ≤ verifyLimit).bind w.crates.readSubmission with
  | none => rejected out 400
  | some sub => match requiredAssurance r cfg lc with
    | .noJs _ => rejected out 400
    | .pow difficulty =>
      match (unb64url sub.pubkey).filter (Proof.validPublicKey w.crates) with
      | none => rejected out 400
      | some pk => match clientContext w.crates w.issuer r cfg with
        | none => rejected out 503
        | some context =>
          let challenge : Challenge := ⟨sub.version, sub.salt, sub.exp, sub.difficulty, sub.token⟩
          if Pow.verifySolution w.crates cfg.key challenge sub.nonce pk context difficulty t.clock ≠ .ok then
            rejected out 400
          else match unb64url sub.signature with
          | none => rejected out 400
          | some signature =>
            if Proof.verifyChallenge w.crates pk challenge.token signature = false then rejected out 400
            else
              .redeem (.work sub pk) challenge.token challenge.exp
                (prepare w cfg t pk context (.pow difficulty) none) out

def redirectBody (path : Bytes) : Bytes :=
  ascii "<html><body><a href=\"" ++ path ++ ascii "\">Continue</a></body></html>\n"

def passUrl (token : Bytes) : Bytes := cfg.endpoint ++ ascii "pass?t=" ++ token

/-- The handler of `pass`. -/
def pass (template : Bytes) (required : Assurance) (out : Headers) : Answer :=
  if cfg.keyOk = false then .sent (send out 503 plainText (ascii "unavailable\n") [])
  else match required with
  | .pow _ => .code 400 out
  | .noJs delay => match clientContext w.crates w.issuer r cfg with
    | none => .code 503 out
    | some context =>
      let token := (r.queryParam (ascii "t")).getD []
      match Nojs.verify w.crates cfg.key token t.clock context with
      | .ok grant =>
        if grant.delay ≠ delay then .code 400 out
        else .redeem (.wait grant) token (grant.iat + Nojs.nojsGrace)
            (prepare w cfg t [] context (.noJs delay) (some grant.path)) out
      | .tooEarly grant =>
        let fresh := Nojs.newGrant t.random grant.path delay t.clock context
        .nojsPage template fresh (passUrl cfg (Nojs.text w.crates cfg.key fresh)) grant.delay out
      | .bad => .sent (send out 302 html (redirectBody (ascii "/"))
          [(ascii "Location", ascii "/"), (ascii "Cache-Control", ascii "no-store")])

/-- The three results of a clearance check. -/
inductive ClearanceCheck where
  | valid
  | proofSkewed
  | invalid
  deriving DecidableEq, Repr

/-- `<base64url-sig>.<unix-ts>`. -/
def parseProof (h : Bytes) : Option (Bytes × Int64) := do
  let (sig, ts) ← rsplitOnce 46 h
  return (← unb64urlFixed 64 sig, ← parseI64 ts)

/-- Only scripts can attach the proof header, and browsers mark them so. -/
def canCarryProof : Bool :=
  match r.header (ascii "sec-fetch-dest") with
  | some dest => eqIgnoreCase dest (ascii "empty")
  | none => false

/-- The callback of the clearance check: the proof requirement. -/
def checkProof (now : Int64) (cleared : Clearance.Verified) : ClearanceCheck :=
  match r.header (ascii "x-pow-proof") with
  | some proofHeader => match parseProof proofHeader with
    | none => .invalid
    | some (sig, ts) =>
      match Proof.check w.crates cleared.publicKey r.method r.uri ts sig now cfg.proofSkew with
      | .valid => .valid
      | .skewed => .proofSkewed
      | .invalid => .invalid
  | none => if cfg.requireProof && canCarryProof r then .invalid else .valid

def checkClearance (required : Assurance) (now : Int64) : ClearanceCheck :=
  if cfg.keyOk = false then .invalid
  else match r.cookie cfg.cookie.name with
  | none => .invalid
  | some token =>
    if 4096 < token.length then .invalid
    else match clientContext w.crates w.issuer r cfg with
    | none => .invalid
    | some context =>
      (Clearance.withVerifiedPrepared w.crates cfg.key token context required now cfg.clearanceTtl
        (checkProof w r cfg now)).getD .invalid

end Handlers

/-- The response to a redemption: the clearance leaves only when the store accepted. -/
def finish (out : Headers) (outcome : Ledger.Outcome) (grant : Prepared) : Response :=
  match outcome with
  | .accepted => match grant.redirect with
    | some path => send out 302 html (redirectBody path)
        [(ascii "Location", path), (ascii "Set-Cookie", grant.cookie)]
    | none => send out 204 plainText [] [(ascii "Set-Cookie", grant.cookie)]
  | .reused => send out 409 plainText (ascii "redemption rejected\n") []
  | .expired => send out 400 plainText (ascii "redemption rejected\n") []
  | .full => send out 503 plainText (ascii "redemption rejected\n") []

end PowGate
