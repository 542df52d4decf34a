import PowGate.Crates
import PowGate.Decision

/-! What a handler reads off a request and its location: headers, cookies, the
decision value and the client context. Values handed over by nginx are raw bytes;
header values become text by lossy decoding. -/
namespace PowGate

open Text

/-- The parts of an nginx request that the module reads. -/
structure Request where
  method : Bytes
  uri : Bytes
  unparsedUri : Bytes
  args : Bytes
  server : Bytes
  headers : List (Bytes × Bytes)
  /-- The socket address, after any `realip` rewriting. -/
  ip : Option IpAddr
  /-- `content_length_n`, `-1` when there is none or it is unknown. -/
  contentLength : Int

/-- `runtime::now` on what `duration_since` returns: nothing before the epoch. -/
def Runtime.now (sinceEpoch : Option UInt64) : Int64 :=
  (sinceEpoch.map fun secs => Int64.ofInt secs.toNat).getD 0

/-- A literal or an nginx variable, evaluated for a request. -/
abbrev ComplexValue := Request → Option Bytes

structure CookieConfig where
  name : Bytes
  domain : Option Bytes
  path : Bytes
  samesite : Bytes
  secure : Bool
  httpOnly : Bool
  maxAgeSecs : Int64

/-- The resolved configuration of a location. -/
structure Cfg where
  scope : Scope
  key : Bytes
  keyOk : Bool
  difficulty : UInt64
  address : AddressPolicy
  clearanceTtl : Int64
  proofSkew : Int64
  requireProof : Bool
  replay : Bool
  replayMaxBody : Nat
  endpoint : Bytes
  cookie : CookieConfig

namespace Request

/-- The first header of that name, in any case. -/
def rawHeader (r : Request) (name : Bytes) : Option Bytes :=
  (r.headers.find? fun (key, _) => eqIgnoreCase key name).map (·.2)

def header (r : Request) (name : Bytes) : Option Bytes := (r.rawHeader name).map lossy

/-- A short protocol header: longer values and ill-formed text read as absent. -/
def headerLimited (r : Request) (name : Bytes) (limit : Nat) : Option Bytes :=
  (r.rawHeader name).filter fun value => value.length ≤ limit && lossy value == value

def cookieValue (value name : Bytes) : Option Bytes :=
  (((value.splitOn 59).filterMap fun pair => splitOnce 61 (trim pair)).find? fun (key, _) =>
    key = name).map (·.2)

/-- The first cookie of that name over all `Cookie` headers. -/
def cookie (r : Request) (name : Bytes) : Option Bytes :=
  r.headers.findSome? fun (key, value) =>
    if eqIgnoreCase key (ascii "cookie") then cookieValue (lossy value) name else none

/-- The declared length of a request body. -/
def bodyLength (r : Request) : Option Nat :=
  if 0 < r.contentLength then some r.contentLength.toNat else none

/-- The first `name=value` of the query string, not percent-decoded. -/
def queryParam (r : Request) (name : Bytes) : Option Bytes :=
  (((r.args.splitOn 38).filterMap (splitOnce 61)).find? fun (key, _) => key = name).map (·.2)

/-- An unset value reads as the empty string. -/
def evalComplexValue (r : Request) (value : Option ComplexValue) : Bytes :=
  match value with
  | none => []
  | some value => ((value r).map lossy).getD []

/-- The trusted value is compared byte for byte. -/
def isTrusted (r : Request) (value : Option ComplexValue) : Bool :=
  match value with
  | none => false
  | some value => value r = some (ascii "1")

variable {name content : Bytes}

/-- A query of one parameter reads back as its value. -/
theorem queryParam_single (r : Request) (query : r.args = name ++ 61 :: content)
    (plain : 61 ∉ name ∧ 38 ∉ name) (free : 38 ∉ content) : r.queryParam name = some content := by
  have whole : 38 ∉ r.args := by
    rw [query]
    simp [plain.2,free]
  have cut := splitOnce_append name content plain.1
  rw [queryParam,List.splitOn_eq_singleton whole,query]
  simp [cut]

/-- So does a single cookie. -/
theorem cookie_single (r : Request) (sent : r.headers = [(ascii "Cookie", name ++ 61 :: content)])
    (plain : 61 ∉ name ∧ 59 ∉ name) (free : 59 ∉ content) (visible : Visible (name ++ 61 :: content)) :
    r.cookie name = some content := by
  have read : lossy (name ++ 61 :: content) = name ++ 61 :: content :=
    lossyFrom_ascii fun c member => (visible c member).2
  have whole : 59 ∉ name ++ 61 :: content := by simp [plain.2,free]
  have cut := splitOnce_append name content plain.1
  have named : eqIgnoreCase (ascii "Cookie") (ascii "cookie") = true := by decide
  rw [cookie,sent,List.findSome?_cons]
  simp only [named,if_true,read,cookieValue,List.splitOn_eq_singleton whole]
  simp [trim_visible visible,cut]

end Request

/-- The opaque binding of address, User-Agent, policy scope and replay store. -/
def clientContext (crates : Crates) (issuer : Option Digest) (r : Request) (cfg : Cfg) : Option Bytes := do
  let issuer ← issuer
  let ip ← r.ip
  let scope ← cfg.scope.forHost r.server
  crates.binding cfg.key ip ((r.header (ascii "user-agent")).getD []) scope issuer.toList cfg.address

/-- The message a client context is the MAC of. -/
def clientMessage (issuer : Option Digest) (r : Request) (cfg : Cfg) : Option Bytes := do
  let issuer ← issuer
  let ip ← r.ip
  let scope ← cfg.scope.forHost r.server
  let network ← cfg.address.network ip
  return contextMessage network ((r.header (ascii "user-agent")).getD []) scope issuer.toList cfg.address

theorem clientContext_eq (crates : Crates) (issuer : Option Digest) (r : Request) (cfg : Cfg) :
    clientContext crates issuer r cfg = (clientMessage issuer r cfg).map (crates.tag cfg.key) := by
  unfold clientContext clientMessage
  cases issuer with
  | none => rfl
  | some store =>
    cases r.ip with
    | none => rfl
    | some ip =>
      cases cfg.scope.forHost r.server with
      | none => simp
      | some scope => cases network : cfg.address.network ip <;> simp [Crates.binding,network]

theorem clientMessage_head (found : clientMessage issuer r cfg = some message) :
    message.head? = some 0 := by
  obtain ⟨store, _, found⟩ := Option.bind_eq_some_iff.mp found
  obtain ⟨ip, _, found⟩ := Option.bind_eq_some_iff.mp found
  obtain ⟨scope, _, found⟩ := Option.bind_eq_some_iff.mp found
  obtain ⟨network, _, found⟩ := Option.bind_eq_some_iff.mp found
  obtain rfl := Option.some.inj found
  exact contextMessage_head _ _ _ _ _

/-- A context is the tag of its message. -/
theorem clientContext_tag (found : clientContext crates issuer r cfg = some context) :
    ∃ message, clientMessage issuer r cfg = some message ∧ context = crates.tag cfg.key message := by
  rw [clientContext_eq] at found
  obtain ⟨message, same, rfl⟩ := Option.map_eq_some_iff.mp found
  exact ⟨message, same, rfl⟩

/-- A context message names the store it was made under. -/
theorem clientMessage_issuer (found : clientMessage issuer r cfg = some message)
    (found' : clientMessage issuer' r' cfg' = some message) : issuer = issuer' := by
  obtain ⟨store, rfl, found⟩ := Option.bind_eq_some_iff.mp found
  obtain ⟨ip, _, found⟩ := Option.bind_eq_some_iff.mp found
  obtain ⟨scope, _, found⟩ := Option.bind_eq_some_iff.mp found
  obtain ⟨network, _, found⟩ := Option.bind_eq_some_iff.mp found
  obtain ⟨store', rfl, found'⟩ := Option.bind_eq_some_iff.mp found'
  obtain ⟨ip', _, found'⟩ := Option.bind_eq_some_iff.mp found'
  obtain ⟨scope', _, found'⟩ := Option.bind_eq_some_iff.mp found'
  obtain ⟨network', _, found'⟩ := Option.bind_eq_some_iff.mp found'
  have texts := contextMessage_issuer ((Option.some.inj found).trans (Option.some.inj found').symm) (by simp)
  rw [Vector.toList_inj.mp texts]

def assuranceFor (decision : Decision) (cfg : Cfg) : Assurance :=
  match decision with
  | .challengeNoJs delay => .noJs delay
  | .challenge (some n) => .pow n
  | _ => .pow cfg.difficulty

/-- A `Set-Cookie` value; `SameSite=None` forces `Secure`. -/
def buildSetCookie (value : Bytes) (c : CookieConfig) : Bytes :=
  c.name ++ 61 :: value ++ ascii "; Path=" ++ c.path ++
    (match c.domain with | some d => ascii "; Domain=" ++ d | none => []) ++
    ascii "; Max-Age=" ++ integer c.maxAgeSecs.toInt ++ ascii "; SameSite=" ++ c.samesite ++
    (if c.secure || eqIgnoreCase c.samesite (ascii "None") then ascii "; Secure" else []) ++
    (if c.httpOnly then ascii "; HttpOnly" else [])

end PowGate
