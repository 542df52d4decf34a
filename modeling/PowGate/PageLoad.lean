import Mathlib.Data.Rat.Floor
import PowGate.Effects
import PowGate.ProofFetch

/-! One load of the challenge page, from `run` to the moment it leaves. Everything the page waits
for is up to the browser and the network: each wait takes one turn, in which requests may fail or
be answered by anything, keys and storage may be refused and the page may be hidden. The listener
that asks for the time when a page comes back into view is not part of it. -/
namespace PowGate.Visits

open Text Effects Effect

/-- A property of the parsed JSON as the checks of `attempt` see it. Numbers too large are infinite. -/
inductive Field where
  | number (q : ℚ)
  | infinite
  | text (s : Bytes)
  | other
  deriving DecidableEq

structure Data where
  version : Field
  difficulty : Field
  exp : Field
  salt : Field
  token : Field
  deriving DecidableEq

/-- The fields of a challenge that the solution sends back. -/
structure Challenge where
  version : ℚ
  difficulty : Nat
  exp : ℚ
  salt : Bytes
  token : Bytes
  deriving DecidableEq

def isSafeInteger (q : ℚ) : Bool := q.den = 1 && q.num.natAbs ≤ 9007199254740991

/-- The checks of `attempt` that do not look at the clock. -/
def Data.challenge (data : Data) : Option Challenge :=
  match data with
  | ⟨.number v, .number d, .number e, .text s, .text t⟩ =>
    if v = 2 ∧ isSafeInteger d = true ∧ 1 ≤ d then some ⟨v, d.num.toNat, e, s, t⟩ else none
  | _ => none

structure Post where
  challenge : Challenge
  signature : Bytes
  nonce : Nat
  pubkey : Bytes
  deriving DecidableEq

inductive Request where
  | challenge (key : Bytes)
  | verify (post : Post)
  | status (proof : Bytes)
  | resync
  | resend
  deriving DecidableEq

/-- The status and the `X-Pow-Reason` of a response. -/
structure Answer where
  code : Nat
  reason : Option Bytes
  deriving DecidableEq

def Answer.ok (answer : Answer) : Bool := 200 ≤ answer.code && answer.code ≤ 299

def Answer.skewed (answer : Answer) : Bool := answer.reason = some (ascii "proof_skew")

def transient (code : Nat) : Bool := code ∈ [408, 425, 429, 500, 502, 503, 504]

/-- What a server, the network and the page did, in the order the page saw it. -/
inductive Event where
  | request (r : Request)
  | answered (answer : Answer)
  | lost (message : String)
  | read (data : Data)
  | hidden
  | reload
  | shown
  | failed (message : String)
  deriving DecidableEq

/-- What the browser gives when the page has waited: each component is used by the wait it belongs
to. The clocks and `stale` are read at the start of the turn. -/
structure Turn where
  hidden : Bool
  fetched : Except String Answer
  json : Except String Data
  text : Except String Unit
  solve : Bytes → Nat → ℚ → Except String Nat
  sign : Bytes → Except String Bytes
  key : Except String Bytes
  stale : Bool
  resyncing : Bool
  nowSec : ℚ
  dateNow : Int

/-- The request of `readReplay`. A body that is not base64 has no bytes. -/
structure Capture where
  verb : Bytes
  path : Bytes
  form : Bool
  bytes : Option Bytes

structure Marker where
  path : Bytes
  at_ : Int
  count : Nat
  deriving DecidableEq

/-- A stored text: one that `navigationCount` wrote, or one that `JSON.parse` refuses. -/
inductive Stored where
  | marker (m : Marker)
  | garbled
  deriving DecidableEq

/-- `window.name`: empty, of the site, or with the prefix of `navigationCount`. -/
inductive WindowName where
  | empty
  | site
  | ours (stored : Stored)
  deriving DecidableEq

structure Tab where
  session : Option Stored
  name : WindowName
  deriving DecidableEq

/-- Which of the operations of `sessionStorage` the browser refuses. -/
structure Storage where
  readable : Bool
  writable : Bool
  deriving DecidableEq

def Storage.read (storage : Storage) (tab : Tab) : Option Stored :=
  if storage.readable then tab.session else
  match tab.name with
  | .ours stored => some stored
  | _ => none

def Storage.write (storage : Storage) (tab : Tab) (stored : Option Stored) : Tab :=
  if storage.writable then { tab with session := stored } else
  match stored, tab.name with
  | some stored, .empty => { tab with name := .ours stored }
  | some stored, .ours _ => { tab with name := .ours stored }
  | none, .ours _ => { tab with name := .empty }
  | _, .site => tab
  | none, .empty => tab

structure Load where
  href : Bytes
  statusPath : Bytes
  capture : Option Capture
  storage : Storage
  turns : Nat → Turn

structure World where
  pos : Nat
  stopped : Bool
  log : List Event
  tab : Tab

abbrev Page := Effect World String

def emit (event : Event) : Page Unit := change fun w => { w with log := w.log ++ [event] }

section Steps

variable (load : Load)

def turn : Page Turn := look fun w => load.turns w.pos

def wait : Page Turn := fun w =>
  let turn := load.turns w.pos
  (.ok turn, if turn.hidden then { w with pos := w.pos + 1, stopped := true, log := w.log ++ [.hidden] }
    else { w with pos := w.pos + 1 })

/-- What `fetchBounded` returns: the parsed JSON or the response. -/
inductive Got where
  | data (d : Data)
  | response (answer : Answer)

def Got.ok : Got → Bool
  | .data _ => false
  | .response answer => answer.ok

def Got.skewed : Got → Bool
  | .data _ => false
  | .response answer => answer.skewed

def pause (retry : Bool) (left : Nat) : Page Unit := do
  if retry && 0 < left then let _ ← wait load

/-- The start of a turn of the loop of `fetchBounded`. -/
def send (r : Request) : Page Unit := do
  if ← look World.stopped then raise "Page closed"
  emit (.request r)

/-- One turn of the loop: what `fetchBounded` returns, or the error it goes on with. -/
def fetchOnce (r : Request) (readJSON retry : Bool) : Page (Except String Got) := do
  send r
  match (← wait load).fetched with
  | .error e => do
    emit (.lost e)
    pure (.error e)
  | .ok answer => do
    emit (.answered answer)
    if answer.ok && readJSON then
      match (← wait load).json with
      | .error e => pure (.error e)
      | .ok d => do
        emit (.read d)
        pure (.ok (.data d))
    else if !retry || !transient answer.code then pure (.ok (.response answer))
    else pure (.error ("HTTP " ++ toString answer.code))

def fetchLoop (r : Request) (readJSON retry : Bool) : Nat → String → Page Got
  | 0, error => raise error
  | left + 1, _ => do
    match ← fetchOnce load r readJSON retry with
    | .ok got => pure got
    | .error e => do
      pause load retry left
      fetchLoop r readJSON retry left e

def fetchBounded (r : Request) (readJSON retry : Bool) : Page Got :=
  fetchLoop load r readJSON retry (if retry then 4 else 1) "Request failed"

/-- The promise of `crypto.subtle.sign`. -/
def sign (message : Bytes) : Page Bytes := do
  match (← wait load).sign message with
  | .error e => raise e
  | .ok signature => pure (Base64.encode signature)

def resyncClock : Page Unit := do
  if !(← turn load).resyncing then emit (.request .resync)
  let _ ← wait load

def signProof (verb path : Bytes) : Page Bytes := do
  if (← turn load).stale then resyncClock load
  let ts := (← turn load).nowSec.floor
  let signature ← sign load (verb ++ 32 :: path ++ 32 :: integer ts)
  pure (signature ++ 46 :: integer ts)

def redeemMessage (token : Bytes) : Bytes := ascii "pow-gate-redeem-v2 " ++ token

def solve (challenge : Challenge) : Page Nat := do
  match (← wait load).solve challenge.salt challenge.difficulty challenge.exp with
  | .error e => raise e
  | .ok nonce => pure nonce

/-- The checks of the challenge response. A response that was not read as JSON has no version. -/
def checked (got : Got) : Page Challenge := do
  match got with
  | .response _ => raise "Invalid or expired challenge response"
  | .data d =>
    match d.challenge with
    | none => raise "Invalid or expired challenge response"
    | some challenge =>
      if challenge.exp ≤ (← turn load).nowSec then raise "Invalid or expired challenge response"
      else pure challenge

def attempt (pubRaw : Bytes) : Page Bool := do
  let got ← fetchBounded load (.challenge (Base64.encode pubRaw)) true true
  let challenge ← checked load got
  let nonce ← solve load challenge
  let signature ← sign load (redeemMessage challenge.token)
  let got ← fetchBounded load (.verify ⟨challenge, signature, nonce, Base64.encode pubRaw⟩) false false
  pure got.ok

/-- The loop of `clearanceAccepted`, with so many turns left. -/
def acceptedLoop : Nat → Page Bool
  | 0 => pure false
  | left + 1 => do
    let proof ← signProof load (ascii "GET") load.statusPath
    let got ← fetchBounded load (.status proof) false true
    if got.ok then pure true else if got.skewed then acceptedLoop left else pure false

def clearanceAccepted : Page Bool := acceptedLoop load 2

/-- The `catch` of an attempt, with so many left. -/
def recover (left : Nat) (e : String) : Page Unit := do
  if (← look World.stopped) || left = 0 then raise e
  let _ ← wait load

/-- The body of the loop of `run`: the value of `ok` after it. When the second assignment throws,
`ok` keeps the value of the first. -/
def once (pubRaw : Bytes) (left : Nat) : Page Bool := do
  match ← caught (attempt load pubRaw) with
  | .error e => do
    recover load left e
    pure false
  | .ok false => pure false
  | .ok true => do
    match ← caught (clearanceAccepted load) with
    | .error e => do
      recover load left e
      pure true
    | .ok ok => pure ok

def attempts (pubRaw : Bytes) : Nat → Page Bool
  | 0 => pure false
  | left + 1 => do
    if ← once load pubRaw left then pure true else attempts pubRaw left

/-- The `value` of `navigationCount`; none where `JSON.parse` throws. -/
def marker (now : Int) (tab : Tab) : Option Marker :=
  match load.storage.read tab with
  | some .garbled => none
  | some (.marker m) =>
    if m.path ≠ load.href ∨ (now - m.at_).natAbs > 300000 then some ⟨load.href, now, 0⟩ else some m
  | none => some ⟨load.href, now, 0⟩

def navigationCount (increment : Bool) : Page Nat := fun w =>
  match marker load (load.turns w.pos).dateNow w.tab with
  | none => (.ok 0, w)
  | some m =>
    if increment then
      (.ok (m.count + 1), { w with tab := load.storage.write w.tab (some (.marker { m with count := m.count + 1 })) })
    else if 3 ≤ m.count then (.ok m.count, { w with tab := load.storage.write w.tab none })
    else (.ok m.count, w)

/-- One request of the `fetch` that `installProofFetch` puts in. -/
def proofSend (capture : Capture) : Page Answer := do
  let _ ← caught (signProof load (Solver.upper capture.verb) capture.path)
  emit (.request .resend)
  match (← wait load).fetched with
  | .error e => do
    emit (.lost e)
    raise e
  | .ok answer => do
    emit (.answered answer)
    pure answer

def proofFetch (capture : Capture) : Nat → Page Answer
  | 0 => proofSend load capture
  | left + 1 => do
    let answer ← proofSend load capture
    if !answer.skewed || (Solver.upper capture.verb ≠ ascii "GET" && Solver.upper capture.verb ≠ ascii "HEAD") then pure answer
    else proofFetch capture left

def replay (capture : Capture) : Page Unit := do
  match capture.bytes with
  | none => raise "InvalidCharacterError"
  | some _ =>
    if capture.form ∧ Solver.upper capture.verb = ascii "POST" then emit (.request .resend)
    else do
      let _ ← proofFetch load capture 1
      match (← wait load).text with
      | .error e => raise e
      | .ok _ => emit .shown

def depart : Page Unit := do
  match load.capture with
  | none => emit .reload
  | some capture =>
    match ← caught (replay load capture) with
    | .ok _ => pure ()
    | .error _ => emit .reload

/-- The end of `run`, once `ok` is set. -/
def leave : Page Unit := do
  let _ ← navigationCount load true
  depart load

def verification : Page Unit := do
  if 3 ≤ (← navigationCount load false) then
    raise "Page still requires verification. Check policy and cookie scope, then retry."
  else
    match (← wait load).key with
    | .error e => raise e
    | .ok pubRaw =>
      if ← attempts load pubRaw 3 then leave load
      else raise "Clearance was not accepted. Check cookie settings and retry."

def run : Page Unit := do
  match ← caught (verification load) with
  | .ok _ => pure ()
  | .error e => do
    if !(← look World.stopped) then emit (.failed e)

end Steps

/-- A load of the page in a tab, and the tab it leaves. -/
def visit (load : Load) (tab : Tab) : World := (run load ⟨0, false, [], tab⟩).2

end PowGate.Visits
