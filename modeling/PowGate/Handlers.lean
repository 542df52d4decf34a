import PowGate.Access

/-! What must have been true when a handler hands something out. Each answer that
issues a challenge or a grant, or that asks the store to redeem one, is inverted once
here; the runs of the server are reasoned about through these facts alone. -/
namespace PowGate

open Text

section Handlers

variable {w : Worker} {r : Request} {cfg : Cfg} {t : Readings} {lc : LocationConf}
  {required : Assurance} {out out' : Headers} {template : Bytes} {context pk token passUrl : Bytes}
  {challenge : Challenge} {grant : Grant} {prepared : Prepared} {origin : Origin}
  {now delay expires : Int64} {body : Option Bytes}

/-- The facts behind an issued challenge. -/
structure IssuedFor (w : Worker) (r : Request) (cfg : Cfg) (t : Readings) (challenge : Challenge)
    (pk context : Bytes) : Prop where
  usable : cfg.keyOk = true
  bound : clientContext w.crates w.issuer r cfg = some context
  canonical : Proof.validPublicKey w.crates pk = true
  fresh : challenge = Pow.issue w.crates cfg.key t.random pk context challenge.difficulty t.clock
    challengeGrace

theorem issueChallenge_issued
    (answer : issueChallenge w r cfg t required out = .challenge challenge pk context now out') :
    IssuedFor w r cfg t challenge pk context := by
  unfold issueChallenge at answer
  split at answer
  · cases answer
  next serving =>
  split at answer
  · cases answer
  simp only at answer
  split at answer
  · cases answer
  next key keyed =>
  split at answer
  · cases answer
  next bound found =>
  simp only [Answer.challenge.injEq] at answer
  obtain ⟨rfl, rfl, rfl, _, _⟩ := answer
  simp only [not_or,Bool.not_eq_false] at serving
  obtain ⟨_, valid⟩ := Option.filter_eq_some_iff.mp keyed
  exact ⟨serving.1, found, valid, rfl⟩

/-- The facts behind a redemption of work. -/
structure Worked (w : Worker) (r : Request) (cfg : Cfg) (t : Readings) (lc : LocationConf)
    (sub : Submission) (pk context : Bytes) (d : UInt64) : Prop where
  usable : cfg.keyOk = true
  required : requiredAssurance r cfg lc = .pow d
  key : unb64url sub.pubkey = some pk
  canonical : Proof.validPublicKey w.crates pk = true
  bound : clientContext w.crates w.issuer r cfg = some context
  solved : Pow.Solved w.crates cfg.key ⟨sub.version, sub.salt, sub.exp, sub.difficulty, sub.token⟩
    sub.nonce pk context d t.clock
  signed : ∃ signature, unb64url sub.signature = some signature ∧
    Proof.verifyChallenge w.crates pk sub.token signature = true

theorem verifyBody_redeem
    (answer : verifyBody w r cfg t lc body out = .redeem origin token expires prepared out') :
    ∃ sub pk context d, (body.filter fun b => b.length ≤ verifyLimit).bind w.crates.readSubmission = some sub ∧
      Worked w r cfg t lc sub pk context d ∧ origin = .work sub pk ∧ token = sub.token ∧
      expires = sub.exp ∧ prepared = prepare w cfg t pk context (.pow d) none := by
  unfold verifyBody at answer
  split at answer
  · cases answer
  next usable =>
  split at answer
  · cases answer
  next sub read =>
  split at answer
  · cases answer
  next d required =>
  split at answer
  · cases answer
  next pk keyed =>
  split at answer
  · cases answer
  next context found =>
  simp only at answer
  split at answer
  · cases answer
  next solved =>
  split at answer
  · cases answer
  next signature opened =>
  split at answer
  · cases answer
  next signed =>
  simp only [Answer.redeem.injEq] at answer
  obtain ⟨rfl, rfl, rfl, rfl, _⟩ := answer
  obtain ⟨key, valid⟩ := Option.filter_eq_some_iff.mp keyed
  exact ⟨sub, pk, context, d, read, ⟨by simpa using usable, required, key, valid, found,
    Pow.verifySolution_ok.mp (Decidable.not_not.mp solved), signature, opened, by simpa using signed⟩,
    rfl, rfl, rfl, rfl⟩

/-- The facts behind a redemption of a wait. -/
structure Waited (w : Worker) (r : Request) (cfg : Cfg) (t : Readings) (grant : Grant)
    (token context : Bytes) : Prop where
  usable : cfg.keyOk = true
  bound : clientContext w.crates w.issuer r cfg = some context
  presented : (r.queryParam (ascii "t")).getD [] = token
  authentic : Nojs.Authentic w.crates cfg.key token grant
  admissible : Nojs.Admissible grant t.clock context
  ended : grant.iat + grant.delay ≤ t.clock

theorem pass_redeem
    (answer : pass w r cfg t template required out = .redeem origin token expires prepared out') :
    ∃ grant context, Waited w r cfg t grant token context ∧ origin = .wait grant ∧
      expires = grant.iat + Nojs.nojsGrace ∧
      prepared = prepare w cfg t [] context (.noJs grant.delay) (some grant.path) := by
  unfold pass at answer
  split at answer
  · cases answer
  next usable =>
  split at answer
  · cases answer
  next delay =>
  split at answer
  · cases answer
  next context found =>
  simp only at answer
  split at answer
  · next grant verdict =>
    split at answer
    · cases answer
    next same =>
    simp only [Answer.redeem.injEq] at answer
    obtain ⟨rfl, rfl, rfl, rfl, _⟩ := answer
    obtain ⟨inner, authentic⟩ := Nojs.verify_authentic (by rw [verdict]; simp)
    rw [Nojs.verify_eq authentic] at verdict
    obtain rfl := Nojs.judge_grant (.inl verdict)
    have admissible := Nojs.judge_admissible (by rw [verdict]; simp)
    rw [Nojs.judge_eq admissible] at verdict
    split at verdict
    · cases verdict
    next late =>
    rw [Decidable.not_not] at same
    subst same
    exact ⟨_, context, ⟨by simpa using usable, found, rfl, authentic, admissible,
      by simpa [Int64.not_lt] using late⟩, rfl, rfl, rfl⟩
  · cases answer
  · cases answer

/-- The facts behind a page with a fresh grant. -/
structure Granted (w : Worker) (r : Request) (cfg : Cfg) (grant : Grant) : Prop where
  bound : clientContext w.crates w.issuer r cfg = some grant.context
  minted : ∃ random path delay now, grant = Nojs.newGrant random path delay now grant.context

theorem pass_page
    (answer : pass w r cfg t template required out = .nojsPage page grant passUrl delay out') :
    Granted w r cfg grant := by
  unfold pass at answer
  split at answer
  · cases answer
  split at answer
  · cases answer
  split at answer
  · cases answer
  next context found =>
  simp only at answer
  split at answer
  · split at answer <;> cases answer
  · simp only [Answer.nojsPage.injEq] at answer
    obtain ⟨_, rfl, _, _, _⟩ := answer
    exact ⟨found, _, _, _, _, rfl⟩
  · cases answer

theorem challengeClient_page
    (answer : challengeClient w r cfg t lc decision out = .nojsPage page grant passUrl delay out') :
    Granted w r cfg grant := by
  unfold challengeClient at answer
  split at answer
  · split at answer
    · cases answer
    split at answer
    · cases answer
    next context found =>
    simp only [Answer.nojsPage.injEq] at answer
    obtain ⟨_, rfl, _, _, _⟩ := answer
    exact ⟨found, _, _, _, _, rfl⟩
  · unfold captureThenChallenge serveChallengePage at answer
    split at answer
    · split at answer <;> cases answer
    · cases answer

/-- A valid check rests on an accepted clearance in the client's cookie. -/
theorem checkClearance_valid (checked : checkClearance w r cfg required now = .valid) :
    ∃ token context verified, r.cookie cfg.cookie.name = some token ∧
      clientContext w.crates w.issuer r cfg = some context ∧
      Clearance.verified w.crates cfg.key token context required now cfg.clearanceTtl = some verified := by
  unfold checkClearance at checked
  split at checked
  · cases checked
  split at checked
  · cases checked
  next token carried =>
  split at checked
  · cases checked
  split at checked
  · cases checked
  next context bound =>
  simp only [Clearance.withVerifiedPrepared] at checked
  cases result : Clearance.verified w.crates cfg.key token context required now cfg.clearanceTtl with
  | none =>
    rw [result] at checked
    cases checked
  | some verified => exact ⟨token, context, verified, carried, bound, result⟩

/-- What an answer hands out. -/
inductive Answer.Kind where
  | quiet
  | challenge
  | page
  | redemption

def Answer.kind : Answer → Answer.Kind
  | .challenge .. => .challenge
  | .nojsPage .. => .page
  | .redeem .. => .redemption
  | _ => .quiet

def Answer.Quiet (answer : Answer) : Prop := answer.kind = .quiet

theorem issueChallenge_kind (handled : issueChallenge w r cfg t required out = answer) :
    answer.Quiet ∨ answer.kind = .challenge := by
  subst handled
  unfold issueChallenge
  split
  · exact .inl rfl
  split
  · exact .inl rfl
  simp only
  split
  · exact .inl rfl
  split
  · exact .inl rfl
  · exact .inr rfl

theorem verifyBody_kind (handled : verifyBody w r cfg t lc body out = answer) :
    answer.Quiet ∨ answer.kind = .redemption := by
  subst handled
  unfold verifyBody
  split
  · exact .inl rfl
  split
  · exact .inl rfl
  split
  · exact .inl rfl
  split
  · exact .inl rfl
  split
  · exact .inl rfl
  simp only
  split
  · exact .inl rfl
  split
  · exact .inl rfl
  split
  · exact .inl rfl
  · exact .inr rfl

theorem pass_kind (handled : pass w r cfg t template required out = answer) :
    answer.kind ≠ .challenge := by
  subst handled
  unfold pass
  split
  · nofun
  split
  · nofun
  split
  · nofun
  simp only
  split
  · split <;> nofun
  · nofun
  · nofun

theorem challengeClient_kind (handled : challengeClient w r cfg t lc decision out = answer) :
    answer.Quiet ∨ answer.kind = .page := by
  subst handled
  unfold challengeClient
  split
  · split
    · exact .inl rfl
    split
    · exact .inl rfl
    · exact .inr rfl
  · unfold captureThenChallenge serveChallengePage
    split
    · split <;> exact .inl rfl
    · exact .inl rfl

theorem routeInternal_cases
    (found : routeInternal w r cfg t suffix required template = some answer) :
    answer.Quiet ∨ (∃ out, issueChallenge w r cfg t required out = answer) ∨
      suffix = ascii "pass" ∧ r.method = ascii "GET" ∧ ∃ out, pass w r cfg t template required out = answer := by
  obtain ⟨endpoint, named, rfl⟩ := Option.map_eq_some_iff.mp found
  simp only
  split
  · exact .inl rfl
  next admitted =>
  cases endpoint with
  | challenge => exact .inr (.inl ⟨_, rfl⟩)
  | pass =>
    refine .inr (.inr ⟨?_, by simpa [Endpoint.admits] using admitted, _, rfl⟩)
    unfold Endpoint.ofSuffix at named
    grind
  | status =>
    refine .inl ?_
    simp only [status]
    split <;> rfl
  | solver => exact .inl rfl
  | verify =>
    refine .inl ?_
    simp only [verifySolution]
    split
    · rfl
    split
    · rfl
    split <;> rfl

theorem gate_cases (answer : Answer) (gated : gate w r cfg t lc decision = answer) :
    answer.Quiet ∨ ∃ out, challengeClient w r cfg t lc decision out = answer := by
  unfold gate at gated
  split at gated
  · subst gated
    exact .inl rfl
  · exact .inr ⟨_, gated⟩
  · exact .inr ⟨_, gated⟩

/-- Where the answers of the access handler come from. -/
theorem access_cases (answer : Answer) (handled : powGateAccess w r cfg t lc = answer) :
    answer.Quiet ∨ (∃ required out, issueChallenge w r cfg t required out = answer) ∨
      (∃ required out, pass w r cfg t lc.nojsPageCache required out = answer) ∨
      (∃ decision out, challengeClient w r cfg t lc decision out = answer) := by
  cases access_effect handled with
  | disabled => exact .inl rfl
  | stray => exact .inl rfl
  | aborted => exact .inl rfl
  | routed _ _ found =>
    rcases routeInternal_cases found with quiet | ⟨out, h⟩ | ⟨_, _, out, h⟩
    · exact .inl quiet
    · exact .inr (.inl ⟨_, out, h⟩)
    · exact .inr (.inr (.inl ⟨_, out, h⟩))
  | trusted => exact .inl rfl
  | allowed => exact .inl rfl
  | denied => exact .inl rfl
  | confirmed => exact .inl rfl
  | gated =>
    rcases gate_cases _ rfl with quiet | ⟨out, h⟩
    · exact .inl quiet
    · exact .inr (.inr (.inr ⟨_, out, h⟩))

theorem access_challenge (handled : powGateAccess w r cfg t lc = .challenge challenge pk context now out) :
    IssuedFor w r cfg t challenge pk context := by
  rcases access_cases _ handled with quiet | ⟨_, _, h⟩ | ⟨_, _, h⟩ | ⟨_, _, h⟩
  · cases quiet
  · exact issueChallenge_issued h
  · exact absurd rfl (pass_kind h)
  · rcases challengeClient_kind h with quiet | page
    · cases quiet
    · cases page

theorem access_redeem (handled : powGateAccess w r cfg t lc = .redeem origin token expires prepared out) :
    ∃ grant context, Waited w r cfg t grant token context ∧ origin = .wait grant ∧
      expires = grant.iat + Nojs.nojsGrace ∧
      prepared = prepare w cfg t [] context (.noJs grant.delay) (some grant.path) := by
  rcases access_cases _ handled with quiet | ⟨_, _, h⟩ | ⟨_, _, h⟩ | ⟨_, _, h⟩
  · cases quiet
  · rcases issueChallenge_kind h with quiet | challenge
    · cases quiet
    · cases challenge
  · exact pass_redeem h
  · rcases challengeClient_kind h with quiet | page
    · cases quiet
    · cases page

theorem access_page (handled : powGateAccess w r cfg t lc = .nojsPage page grant passUrl delay out) :
    Granted w r cfg grant := by
  rcases access_cases _ handled with quiet | ⟨_, _, h⟩ | ⟨_, _, h⟩ | ⟨_, _, h⟩
  · cases quiet
  · rcases issueChallenge_kind h with quiet | challenge
    · cases quiet
    · cases challenge
  · exact pass_page h
  · exact challengeClient_page h

/-- Without clearance the no-JS tier answers with a page and a fresh grant. -/
theorem access_waits (enabled : lc.enabled = true)
    (outside : (if cfg.endpoint = [] then none else stripPrefix cfg.endpoint r.uri) = none)
    (stranger : r.isTrusted lc.trusted = false)
    (decided : Decision.parse (r.evalComplexValue lc.decision) = .challengeNoJs delay)
    (unseen : checkClearance w r cfg (.noJs delay) t.clock = .invalid)
    (up : ¬ (w.clusterEnabled = true ∧ ¬ w.clusterAvailable = true))
    (bound : clientContext w.crates w.issuer r cfg = some context)
    (minted : Nojs.newGrant t.random r.unparsedUri delay t.last context = grant) :
    powGateAccess w r cfg t lc = .nojsPage lc.nojsPageCache grant
      (PowGate.passUrl cfg (Nojs.text w.crates cfg.key grant)) delay (noStore []) := by
  subst minted
  rw [powGateAccess,if_neg (by simp [enabled]),outside]
  simp only [stranger,decided,Bool.false_eq_true,if_false,gate,assuranceFor,unseen,challengeClient,if_neg up,bound]

/-- The pass URL of a grant whose wait is over asks for its redemption. -/
theorem access_passes (enabled : lc.enabled = true) (usable : cfg.keyOk = true)
    (inside : (if cfg.endpoint = [] then none else stripPrefix cfg.endpoint r.uri) = some (ascii "pass"))
    (method : r.method = ascii "GET")
    (decided : Decision.parse (r.evalComplexValue lc.decision) = .challengeNoJs grant.delay)
    (bound : clientContext w.crates w.issuer r cfg = some context)
    (presented : r.queryParam (ascii "t") = some token)
    (verdict : Nojs.verify w.crates cfg.key token t.clock context = .ok grant) :
    powGateAccess w r cfg t lc = .redeem (.wait grant) token (grant.iat + Nojs.nojsGrace)
      (prepare w cfg t [] context (.noJs grant.delay) (some grant.path)) (noStore []) := by
  have admitted : Endpoint.admits .pass r.method = true := by
    rw [method]
    decide
  have named : Endpoint.ofSuffix (ascii "pass") = some .pass := by decide
  rw [powGateAccess,if_neg (by simp [enabled]),inside]
  simp only [boundary_named named,if_true]
  simp only [decided,assuranceFor,routeInternal,named,Option.map_some,Option.getD_some,admitted,pass,usable,bound,
    presented,verdict]
  simp

theorem checkClearance_accepts (usable : cfg.keyOk = true) (carried : r.cookie cfg.cookie.name = some token)
    (bound : clientContext w.crates w.issuer r cfg = some context)
    (accepted : Clearance.verified w.crates cfg.key token context required now cfg.clearanceTtl = some verified)
    (bare : r.header (ascii "x-pow-proof") = none) (optional : cfg.requireProof = false) :
    checkClearance w r cfg required now = .valid := by
  have short := (Clearance.verified_some.mp accepted).1.short
  rw [checkClearance,if_neg (by simp [usable]),carried]
  simp only [bound,Clearance.withVerifiedPrepared,accepted,Option.map_some,Option.getD_some,checkProof,bare,optional,
    Bool.false_and,Bool.false_eq_true,if_false]
  rw [if_neg (by omega)]

end Handlers

end PowGate
