import PowGate.Reference

/-! The access-phase handler: internal endpoints first, then trust, decision, verifier
and clearance, and last the challenge the decision picked. -/
namespace PowGate

open Text

def serveChallengePage (page : Bytes) (out : Headers) : Answer := .sent (send out 200 html page [])

/-- `serve_nojs_page`: both placeholders are filled per request. -/
def nojsPageBody (template passUrl : Bytes) (delay : Int64) : Bytes :=
  replaceAll (replaceAll template (placeholder "pass_url") passUrl) (placeholder "delay")
    (integer delay.toInt)

/-- `replay::method_replayable`. -/
def methodReplayable (method : Bytes) : Bool :=
  method ≠ [] && (method.all fun b => (65 ≤ b && b ≤ 90) || (97 ≤ b && b ≤ 122)) &&
    !([ascii "GET", ascii "HEAD", ascii "TRACE", ascii "CONNECT"].any (eqIgnoreCase · method))

section Handlers

variable (w : Worker) (r : Request) (cfg : Cfg) (t : Readings)

/-- The response body of an answer that the module sends itself. -/
def Answer.response : Answer → Option Response
  | .sent response => some response
  | .challenge issued _ _ now out => some (send out 200 (ascii "application/json") (issued.body now)
      [(ascii "Cache-Control", ascii "no-store")])
  | .nojsPage template _ passUrl delay out => some (send out 200 html (nojsPageBody template passUrl delay)
      [(ascii "Cache-Control", ascii "no-store")])
  | _ => none

/-- The server time goes out on every answer of this endpoint. -/
def status (required : Assurance) (out : Headers) : Answer :=
  let base := [(ascii "Cache-Control", ascii "no-store"), (ascii "X-Pow-Now", integer t.clock.toInt)]
  match checkClearance w r cfg required t.later with
  | .valid => .sent (send out 204 plainText [] base)
  | .proofSkewed => .sent (send out 409 plainText (ascii "proof timestamp outside window\n")
      (base ++ [(ascii "X-Pow-Reason", ascii "proof_skew")]))
  | .invalid => .sent (send out 409 plainText (ascii "clearance missing or invalid\n") base)

/-- Only the fingerprinted URL may be cached. -/
def serveSolver (out : Headers) : Answer :=
  let cache := if r.args = w.solverQuery then ascii "public, max-age=31536000, immutable"
    else ascii "no-store"
  .sent (send out 200 (ascii "text/javascript; charset=utf-8") w.solverJs [(ascii "Cache-Control", cache)])

/-- The endpoints the module owns. -/
inductive Endpoint where
  | challenge
  | pass
  | status
  | solver
  | verify
  deriving DecidableEq

def Endpoint.ofSuffix (suffix : Bytes) : Option Endpoint :=
  if suffix = ascii "challenge" then some .challenge
  else if suffix = ascii "pass" then some .pass
  else if suffix = ascii "status" then some .status
  else if suffix = ascii "solver.js" then some .solver
  else if suffix = ascii "verify" then some .verify
  else none

def Endpoint.admits (endpoint : Endpoint) (method : Bytes) : Bool :=
  match endpoint with
  | .challenge | .pass | .status => method = ascii "GET"
  | .solver => method = ascii "GET" || method = ascii "HEAD"
  | .verify => method = ascii "POST"

/-- `None` when the suffix names no endpoint. -/
def routeInternal (suffix : Bytes) (required : Assurance) (nojsTemplate : Bytes) : Option Answer :=
  (Endpoint.ofSuffix suffix).map fun endpoint =>
    let methodOk := endpoint.admits r.method
    let out := if endpoint ≠ .solver ∨ methodOk = false then noStore [] else []
    if methodOk = false then .code 405 out
    else match endpoint with
    | .challenge => issueChallenge w r cfg t required out
    | .solver => serveSolver w r out
    | .verify => PowGate.verifySolution w r out
    | .status => PowGate.status w r cfg t required out
    | .pass => PowGate.pass w r cfg t nojsTemplate required out

/-- A challenged body is captured only if the client can render the page and replay it. -/
def shouldCapture : Bool :=
  cfg.replay &&
    (match r.bodyLength with
      | some n => n ≤ cfg.replayMaxBody
      | none => false) &&
    (match r.header (ascii "sec-fetch-dest") with
      | some dest => [ascii "document", ascii "iframe", ascii "frame"].any (eqIgnoreCase dest ·)
      | none => true) &&
    methodReplayable r.method

def captureThenChallenge (page : Bytes) (out : Headers) : Answer :=
  if 300 ≤ w.readBodyStatus then serveChallengePage page out else .readBody out

/-- The answer to a client without clearance. -/
def challengeClient (lc : LocationConf) (decision : Decision) (out : Headers) : Answer :=
  match decision with
  | .challengeNoJs delay =>
    if w.clusterEnabled ∧ ¬ w.clusterAvailable then .code 503 out
    else match clientContext w.crates w.issuer r cfg with
    | none => .code 503 out
    | some context =>
      let grant := Nojs.newGrant t.random r.unparsedUri delay t.last context
      .nojsPage lc.nojsPageCache grant (passUrl cfg (Nojs.text w.crates cfg.key grant)) delay out
  | _ =>
    if shouldCapture r cfg then captureThenChallenge w lc.pageCache out
    else serveChallengePage lc.pageCache out

/-- Past trust and the decision: clearance, or a challenge. -/
def gate (lc : LocationConf) (decision : Decision) : Answer :=
  match checkClearance w r cfg (assuranceFor decision cfg) t.clock with
  | .valid => .declined
  | .proofSkewed => challengeClient w r cfg t lc decision
      (noStore [] ++ [(ascii "X-Pow-Now", integer t.later.toInt), (ascii "X-Pow-Reason", ascii "proof_skew")])
  | .invalid => challengeClient w r cfg t lc decision (noStore [])

/-- `str::is_char_boundary` in front of the rest of a text. -/
def boundary : Bytes → Bool
  | [] => true
  | b :: _ => b < 128 || 192 ≤ b

/-- The handler for a location whose configuration has been resolved to `cfg`. -/
def powGateAccess (lc : LocationConf) : Answer :=
  if lc.enabled = false then .declined
  else
    let decision := Decision.parse (r.evalComplexValue lc.decision)
    let required := assuranceFor decision cfg
    match (if cfg.endpoint = [] then none else stripPrefix cfg.endpoint r.uri) with
    | some suffix =>
      -- The suffix is sliced off a text whose bytes nobody has checked.
      if boundary suffix then (routeInternal w r cfg t suffix required lc.nojsPageCache).getD .declined else .abort
    | none =>
      if r.isTrusted lc.trusted then .declined
      else match decision with
      | .allow => .declined
      | .deny => .code 403 (noStore [])
      | .verify name =>
        if (r.ip.map (w.verifierResult name)).getD false then .declined
        else gate w r cfg t lc decision
      | _ => gate w r cfg t lc decision

theorem boundary_named (named : Endpoint.ofSuffix suffix = some endpoint) : boundary suffix = true := by
  unfold Endpoint.ofSuffix at named
  split at named
  · next same => subst same; decide
  split at named
  · next same => subst same; decide
  split at named
  · next same => subst same; decide
  split at named
  · next same => subst same; decide
  split at named
  · next same => subst same; decide
  · cases named

/-- Everything the handler can do, and when. -/
inductive AccessEffect (lc : LocationConf) : Answer → Prop where
  | disabled (off : lc.enabled = false) : AccessEffect lc .declined
  | stray (enabled : lc.enabled = true)
    (inside : (if cfg.endpoint = [] then none else stripPrefix cfg.endpoint r.uri) = some suffix)
    (whole : boundary suffix = true) (unknown : Endpoint.ofSuffix suffix = none) : AccessEffect lc .declined
  | aborted : AccessEffect lc .abort
  | routed (enabled : lc.enabled = true)
    (inside : (if cfg.endpoint = [] then none else stripPrefix cfg.endpoint r.uri) = some suffix)
    (found : routeInternal w r cfg t suffix (assuranceFor (.parse (r.evalComplexValue lc.decision)) cfg)
      lc.nojsPageCache = some answer) : AccessEffect lc answer
  | trusted (known : r.isTrusted lc.trusted = true) : AccessEffect lc .declined
  | allowed (parsed : .parse (r.evalComplexValue lc.decision) = Decision.allow) : AccessEffect lc .declined
  | denied : AccessEffect lc (.code 403 (noStore []))
  | confirmed (parsed : .parse (r.evalComplexValue lc.decision) = Decision.verify name)
    (crawler : (r.ip.map (w.verifierResult name)).getD false = true) : AccessEffect lc .declined
  | gated (outside : (if cfg.endpoint = [] then none else stripPrefix cfg.endpoint r.uri) = none)
    (stranger : r.isTrusted lc.trusted = false) :
    AccessEffect lc (gate w r cfg t lc (.parse (r.evalComplexValue lc.decision)))

end Handlers

section Closed

variable {w : Worker} {r : Request} {cfg : Cfg} {t : Readings} {lc : LocationConf}

theorem access_effect (handled : powGateAccess w r cfg t lc = answer) : AccessEffect w r cfg t lc answer := by
  subst handled
  unfold powGateAccess
  split
  · next off => exact .disabled off
  next on =>
  have enabled : lc.enabled = true := by simpa using on
  simp only
  split
  · next suffix inside =>
    by_cases whole : boundary suffix = true
    swap
    · rw [if_neg whole]
      exact .aborted
    rw [if_pos whole]
    cases found : routeInternal w r cfg t suffix (assuranceFor (.parse (r.evalComplexValue lc.decision)) cfg)
      lc.nojsPageCache with
    | none => exact .stray enabled inside whole (Option.map_eq_none_iff.mp found)
    | some answer => exact .routed enabled inside found
  next outside =>
  split
  · next known => exact .trusted known
  next unknown =>
  have stranger : r.isTrusted lc.trusted = false := by simpa using unknown
  split
  · next parsed => exact .allowed parsed
  · exact .denied
  · next parsed =>
    split
    · next crawler => exact .confirmed parsed crawler
    · exact .gated outside stranger
  · exact .gated outside stranger

theorem issueChallenge_closed : issueChallenge w r cfg t required out ≠ .declined := by
  unfold issueChallenge
  split
  · simp
  split
  · simp
  simp only
  split
  · simp
  split <;> simp

theorem pass_closed : pass w r cfg t template required out ≠ .declined := by
  unfold pass
  split
  · simp
  split
  · simp
  split
  · simp
  simp only
  split
  · split <;> simp
  · simp
  · simp

theorem status_closed : status w r cfg t required out ≠ .declined := by
  unfold status
  simp only
  split <;> simp

theorem verifySolution_closed : verifySolution w r out ≠ .declined := by
  unfold verifySolution
  split
  · simp
  split
  · simp
  split <;> simp

/-- A named endpoint always answers itself. -/
theorem routeInternal_closed (found : routeInternal w r cfg t suffix required template = some answer) :
    answer ≠ .declined := by
  obtain ⟨endpoint, _, rfl⟩ := Option.map_eq_some_iff.mp found
  simp only
  split
  · simp
  cases endpoint with
  | challenge => exact issueChallenge_closed
  | pass => exact pass_closed
  | status => exact status_closed
  | solver => simp [serveSolver]
  | verify => exact verifySolution_closed

theorem challengeClient_closed : challengeClient w r cfg t lc decision out ≠ .declined := by
  unfold challengeClient
  split
  · split
    · simp
    split <;> simp
  · split
    · unfold captureThenChallenge serveChallengePage
      split <;> simp
    · simp [serveChallengePage]

theorem gate_declined :
    gate w r cfg t lc decision = .declined ↔
      checkClearance w r cfg (assuranceFor decision cfg) t.clock = .valid := by
  unfold gate
  split
  · simp [*]
  · simp [*,challengeClient_closed]
  · simp [*,challengeClient_closed]

end Closed

/-- The reasons for which a gate may let a request through. -/
def Justified (w : Worker) (r : Request) (cfg : Cfg) (t : Readings) (lc : LocationConf) : Prop :=
  let decision := r.evalComplexValue lc.decision
  (∃ trusted, lc.trusted = some trusted ∧ trusted r = some (ascii "1")) ∨
  decision = ascii "allow" ∨
  (∃ name ip, name ≠ [] ∧ decision = ascii "verify:" ++ name ∧ r.ip = some ip ∧
    w.verifierResult name ip = true) ∨
  checkClearance w r cfg (assuranceFor (.parse decision) cfg) t.clock = .valid

/-- A URI under the endpoint whose rest can be sliced off and names none of its routes. -/
def Stray (r : Request) (cfg : Cfg) : Prop :=
  cfg.endpoint ≠ [] ∧ ∃ suffix, r.uri = cfg.endpoint ++ suffix ∧ boundary suffix = true ∧
    suffix ∉ [ascii "challenge", ascii "pass", ascii "status", ascii "solver.js", ascii "verify"]

theorem ofSuffix_none : Endpoint.ofSuffix suffix = none ↔
    suffix ∉ [ascii "challenge", ascii "pass", ascii "status", ascii "solver.js", ascii "verify"] := by
  unfold Endpoint.ofSuffix
  simp only [List.mem_cons,List.not_mem_nil,or_false,not_or]
  split
  · simp [*]
  split
  · simp [*]
  split
  · simp [*]
  split
  · simp [*]
  split
  · simp [*]
  · simp [*]

theorem isTrusted_iff {r : Request} {source : Option ComplexValue} : r.isTrusted source = true ↔
    ∃ trusted, source = some trusted ∧ trusted r = some (ascii "1") := by
  cases source <;> simp [Request.isTrusted]

section Exits

variable {w : Worker} {r : Request} {cfg : Cfg} {t : Readings} {lc : LocationConf}

/-- A stray URI leaves the handler before anything about the client is looked at. -/
theorem stray_declined (enabled : lc.enabled = true) (stray : Stray r cfg) :
    powGateAccess w r cfg t lc = .declined := by
  obtain ⟨nonempty, suffix, uri, whole, unknown⟩ := stray
  simp [powGateAccess,enabled,nonempty,uri,whole,routeInternal,ofSuffix_none.mpr unknown]

/-- Every other exit to the upstream is justified. -/
theorem declined_justified (enabled : lc.enabled = true) (owned : ¬ Stray r cfg)
    (declined : powGateAccess w r cfg t lc = .declined) : Justified w r cfg t lc := by
  generalize answered : Answer.declined = answer at declined
  cases access_effect declined with
  | disabled off =>
    rw [enabled] at off
    cases off
  | @stray suffix _ route whole unknown =>
    split at route
    · cases route
    · next nonempty => exact absurd ⟨nonempty, suffix, stripPrefix_some route, whole, ofSuffix_none.mp unknown⟩ owned
  | aborted => cases answered
  | routed _ _ found => exact absurd answered.symm (routeInternal_closed found)
  | trusted known => exact .inl (isTrusted_iff.mp known)
  | allowed parsed => exact .inr (.inl (Decision.parse_allow.mp parsed))
  | denied => cases answered
  | @confirmed name parsed crawler =>
    obtain ⟨text, nonempty⟩ := Decision.parse_verify.mp parsed
    cases address : r.ip with
    | none => simp [address] at crawler
    | some ip =>
      rw [address,Option.map_some,Option.getD_some] at crawler
      exact .inr (.inr (.inl ⟨name, ip, nonempty, text, address, crawler⟩))
  | gated => exact .inr (.inr (.inr (gate_declined.mp answered.symm)))

end Exits

/-- Off the stray URIs a request reaches the upstream only for one of the reasons; every stray one
reaches it, whatever the trust, the decision and the clearance are. -/
theorem declined_only_if_justified (w : Worker) (r : Request) (t : Readings) (lc : LocationConf)
    (readFile : Bytes → Option Bytes) (enabled : lc.enabled = true) :
    (¬ Stray r (buildCfg readFile lc) → powGateAccess w r (buildCfg readFile lc) t lc = .declined →
      Justified w r (buildCfg readFile lc) t lc) ∧
    (Stray r (buildCfg readFile lc) → powGateAccess w r (buildCfg readFile lc) t lc = .declined) :=
  ⟨declined_justified enabled, stray_declined enabled⟩

/-- The root path of a default location is not stray. -/
theorem declined_only_if_justified_root :
    ¬ Stray (Reference.request (ascii "/")) Reference.cfg ∧
    (powGateAccess Reference.worker (Reference.request (ascii "/")) Reference.cfg
        (Reference.readings 1000) Reference.location = .declined →
      Justified Reference.worker (Reference.request (ascii "/")) Reference.cfg
        (Reference.readings 1000) Reference.location) := by
  have owned : ¬ Stray (Reference.request (ascii "/")) Reference.cfg := by
    rintro ⟨_, suffix, uri, _⟩
    have size := congrArg List.length uri
    have stem : Reference.cfg.endpoint.length = 6 := by decide
    rw [List.length_append,stem] at size
    have whole : (Reference.request (ascii "/")).uri.length = 1 := by decide
    omega
  exact ⟨owned, (declined_only_if_justified _ _ _ _ Reference.startup.readFile rfl).1 owned⟩

/-- An unknown name under the default endpoint reaches the upstream with no cookie, no
trust and the default challenge decision. -/
theorem unknown_endpoint_slips_past :
    Reference.location.enabled = true ∧
    powGateAccess Reference.worker (Reference.request (ascii "/.pow/x")) Reference.cfg
      (Reference.readings 1000) Reference.location = .declined ∧
    ¬ Justified Reference.worker (Reference.request (ascii "/.pow/x")) Reference.cfg
      (Reference.readings 1000) Reference.location := by
  refine ⟨rfl, by rfl, ?_⟩
  rintro (⟨trusted, set, _⟩ | allow | ⟨name, ip, _, verify, _⟩ | cleared)
  · cases set
  · exact absurd allow (by decide)
  · have empty : ([] : Bytes) = ascii "verify:" ++ name := verify
    simp [ascii] at empty
  · cases cleared

end PowGate
