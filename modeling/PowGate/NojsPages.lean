import PowGate.Flows
import PowGate.Server

/-! The wait a no-JS page announces against the wait of the grant inside it. The gate renders
both from the decision. A pass URL that comes too early is answered with a fresh grant for the
delay now required, on a page that still announces the delay of the old grant. -/
namespace PowGate

open Text

section Pages

variable {w : Worker} {r : Request} {cfg : Cfg} {t : Readings} {lc : LocationConf} {required : Assurance}
  {out out' : Headers} {template page url context : Bytes} {grant old : Grant} {delay : Int64}

/-- The URI below the endpoint. -/
def endpointSuffix (r : Request) (cfg : Cfg) : Option Bytes :=
  if cfg.endpoint = [] then none else stripPrefix cfg.endpoint r.uri

/-- The page answers a pass URL that came too early. -/
structure Rechallenged (w : Worker) (r : Request) (cfg : Cfg) (t : Readings) (required : Assurance) (grant old : Grant) :
    Prop where
  usable : cfg.keyOk = true
  bound : clientContext w.crates w.issuer r cfg = some grant.context
  early : Nojs.verify w.crates cfg.key ((r.queryParam (ascii "t")).getD []) t.clock grant.context = .tooEarly old
  demanded : required = .noJs grant.delay
  fresh : grant = Nojs.newGrant t.random old.path grant.delay t.clock grant.context

theorem pass_rechallenged
    (answer : pass w r cfg t template required out = .nojsPage page grant url delay out') :
    ∃ old, Rechallenged w r cfg t required grant old ∧ delay = old.delay ∧
      url = passUrl cfg (Nojs.text w.crates cfg.key grant) := by
  unfold pass at answer
  split at answer
  · cases answer
  next usable =>
  split at answer
  · cases answer
  split at answer
  · cases answer
  next context found =>
  simp only at answer
  split at answer
  · split at answer <;> cases answer
  · next old early =>
    simp only [Answer.nojsPage.injEq] at answer
    obtain ⟨_, rfl, rfl, rfl, _⟩ := answer
    exact ⟨old, ⟨by simpa using usable, found, early, rfl, rfl⟩, rfl, rfl⟩
  · cases answer

/-- The page answers a request without clearance: both waits are that of the decision. -/
structure Challenged (w : Worker) (r : Request) (cfg : Cfg) (t : Readings) (decision : Decision) (grant : Grant) :
    Prop where
  decided : decision = .challengeNoJs grant.delay
  up : ¬ (w.clusterEnabled = true ∧ ¬ w.clusterAvailable = true)
  bound : clientContext w.crates w.issuer r cfg = some grant.context
  fresh : grant = Nojs.newGrant t.random r.unparsedUri grant.delay t.last grant.context

theorem challengeClient_challenged
    (answer : challengeClient w r cfg t lc decision out = .nojsPage page grant url delay out') :
    Challenged w r cfg t decision grant ∧ delay = grant.delay ∧
      url = passUrl cfg (Nojs.text w.crates cfg.key grant) := by
  unfold challengeClient at answer
  split at answer
  · split at answer
    · cases answer
    next up =>
    split at answer
    · cases answer
    next context found =>
    simp only [Answer.nojsPage.injEq] at answer
    obtain ⟨_, rfl, rfl, rfl, _⟩ := answer
    exact ⟨⟨rfl, up, found, rfl⟩, rfl, rfl⟩
  · unfold captureThenChallenge serveChallengePage at answer
    split at answer
    · split at answer <;> cases answer
    · cases answer

theorem gate_challenged (answer : gate w r cfg t lc decision = .nojsPage page grant url delay out) :
    Challenged w r cfg t decision grant ∧ delay = grant.delay ∧
      url = passUrl cfg (Nojs.text w.crates cfg.key grant) := by
  rcases gate_cases _ answer with quiet | ⟨_, served⟩
  · cases quiet
  · exact challengeClient_challenged served

/-- Where a no-JS page comes from. -/
theorem access_page_cases (handled : powGateAccess w r cfg t lc = .nojsPage page grant url delay out) :
    url = passUrl cfg (Nojs.text w.crates cfg.key grant) ∧
    (endpointSuffix r cfg = none ∧ r.isTrusted lc.trusted = false ∧
      Challenged w r cfg t (.parse (r.evalComplexValue lc.decision)) grant ∧ delay = grant.delay ∨
      lc.enabled = true ∧ endpointSuffix r cfg = some (ascii "pass") ∧ r.method = ascii "GET" ∧
      ∃ old, Rechallenged w r cfg t (requiredAssurance r cfg lc) grant old ∧ delay = old.delay) := by
  generalize served : Answer.nojsPage page grant url delay out = answer at handled
  cases access_effect handled with
  | routed enabled inside found =>
    subst served
    rcases routeInternal_cases found with quiet | ⟨_, issued⟩ | ⟨rfl, method, _, passed⟩
    · cases quiet
    · rcases issueChallenge_kind issued with quiet | challenge
      · cases quiet
      · cases challenge
    · obtain ⟨old, early, same, linked⟩ := pass_rechallenged passed
      exact ⟨linked, .inr ⟨enabled, inside, method, old, early, same⟩⟩
  | gated outside stranger =>
    obtain ⟨fresh, same, linked⟩ := gate_challenged served.symm
    exact ⟨linked, .inl ⟨outside, stranger, fresh, same⟩⟩
  | _ => cases served

theorem Rechallenged.presented (early : Rechallenged w r cfg t required grant old) :
    Nojs.Authentic w.crates cfg.key ((r.queryParam (ascii "t")).getD []) old ∧
    Nojs.Admissible old t.clock grant.context ∧ t.clock < old.iat + old.delay := by
  obtain ⟨found, authentic⟩ := Nojs.verify_authentic (by rw [early.early]; simp)
  have judged := early.early
  rw [Nojs.verify_eq authentic] at judged
  obtain rfl := Nojs.judge_grant (.inr judged)
  have admissible := Nojs.judge_admissible (by rw [judged]; simp)
  rw [Nojs.judge_eq admissible] at judged
  refine ⟨authentic, admissible, ?_⟩
  by_contra late
  rw [if_neg late] at judged
  cases judged

/-- A fresh grant whose wait is over is not too early. -/
theorem Nojs.waited_not_early {crates : Crates} {random : Vector UInt8 16} {path : Bytes} {iat : Int64} (lawful : crates.Lawful)
    (ascii : IsAscii context) (waited : iat.toInt + delay.toInt ≤ now.toInt) :
    Nojs.verify crates key (Nojs.issue crates key random path delay iat context) now context' ≠ .tooEarly old := by
  intro early
  obtain ⟨_, short, _⟩ := Nojs.verify_authentic (by rw [early]; simp)
  rw [Nojs.verify_eq (Nojs.issue_authentic lawful ascii short)] at early
  have admissible := Nojs.judge_admissible (by rw [early]; simp)
  rw [Nojs.judge_eq admissible] at early
  have range := admissible.delay
  have one : Int64.toInt 1 = 1 := by decide
  have low := Int64.le_toInt iat
  have high := Int64.toInt_lt now
  simp only [Nojs.newGrant,Int64.le_iff_toInt_le,one] at range
  have sum : (iat + delay).toInt = iat.toInt + delay.toInt := by
    rw [Int64.toInt_add]
    exact Int.bmod_eq_of_le (by omega) (by omega)
  have waited : ¬ now < iat + delay := by
    rw [Int64.lt_iff_toInt_lt,sum]
    omega
  simp [Nojs.newGrant,waited] at early

/-- The request presents a grant at the pass URL that still waits, and that waits for less than
the policy requires by now. -/
structure Lengthened (v : Visit) : Prop where
  enabled : v.lc.enabled = true
  usable : v.cfg.keyOk = true
  inside : endpointSuffix v.r v.cfg = some (ascii "pass")
  method : v.r.method = ascii "GET"
  presented : ∃ old delay context, requiredAssurance v.r v.cfg v.lc = .noJs delay ∧
    clientContext v.w.crates v.w.issuer v.r v.cfg = some context ∧
    Nojs.Authentic v.w.crates v.cfg.key ((v.r.queryParam (ascii "t")).getD []) old ∧
    Nojs.Admissible old v.t.clock context ∧ v.t.clock < old.iat + old.delay ∧ old.delay < delay

/-- A page that announces at least the wait of its grant, so that its pass URL is not too early
after that time. -/
structure Honest (v : Visit) (grant : Grant) (url : Bytes) (delay : Int64) : Prop where
  covers : grant.delay ≤ delay
  waited : ∀ token now context old, url = passUrl v.cfg token →
    grant.iat.toInt + delay.toInt ≤ now.toInt → now.toInt < grant.iat.toInt + 120 →
    Nojs.verify v.w.crates v.cfg.key token now context ≠ .tooEarly old

def HonestPages (v : Visit) : Prop :=
  ∀ page grant url delay out, powGateAccess v.w v.r v.cfg v.t v.lc = .nojsPage page grant url delay out →
    Honest v grant url delay

theorem honest_of_covers {v : Visit} (lawful : v.w.crates.Lawful)
    (bound : clientContext v.w.crates v.w.issuer v.r v.cfg = some grant.context)
    (fresh : grant = Nojs.newGrant random path grant.delay iat grant.context)
    (linked : url = passUrl v.cfg (Nojs.text v.w.crates v.cfg.key grant)) (covers : grant.delay ≤ delay) :
    Honest v grant url delay := by
  refine ⟨covers, ?_⟩
  intro token now context old sent waited _
  have ascii : IsAscii grant.context := fun c member => (clientContext_plain bound c member).2
  have text : token = Nojs.issue v.w.crates v.cfg.key random path grant.delay iat grant.context := by
    rw [linked] at sent
    rw [← List.append_cancel_left sent,Nojs.issue,← fresh]
  have started : grant.iat = iat := by rw [fresh]; rfl
  rw [Int64.le_iff_toInt_le] at covers
  rw [started] at waited
  rw [text]
  exact Nojs.waited_not_early lawful ascii (by omega)

/-- The answer to a pass URL that comes too early. -/
theorem access_rechallenges (enabled : lc.enabled = true) (usable : cfg.keyOk = true)
    (inside : endpointSuffix r cfg = some (ascii "pass")) (method : r.method = ascii "GET")
    (demanded : requiredAssurance r cfg lc = .noJs delay)
    (bound : clientContext w.crates w.issuer r cfg = some context)
    (early : Nojs.verify w.crates cfg.key ((r.queryParam (ascii "t")).getD []) t.clock context = .tooEarly old) :
    powGateAccess w r cfg t lc = .nojsPage lc.nojsPageCache (Nojs.newGrant t.random old.path delay t.clock context)
      (passUrl cfg (Nojs.text w.crates cfg.key (Nojs.newGrant t.random old.path delay t.clock context)))
      old.delay (noStore []) := by
  have admitted : Endpoint.admits .pass r.method = true := by
    rw [method]
    decide
  have named : Endpoint.ofSuffix (ascii "pass") = some .pass := by decide
  rw [endpointSuffix] at inside
  rw [requiredAssurance] at demanded
  rw [powGateAccess,if_neg (by simp [enabled]),inside]
  simp only [boundary_named named,if_true]
  simp only [demanded,routeInternal,named,Option.map_some,Option.getD_some,admitted,pass,usable,bound,early]
  simp

/-- A grant that waits for less than is required is answered with a page of that kind. -/
theorem Lengthened.served {v : Visit} (lengthened : Lengthened v) : ∃ page grant url delay out,
    powGateAccess v.w v.r v.cfg v.t v.lc = .nojsPage page grant url delay out ∧ delay < grant.delay := by
  obtain ⟨enabled, usable, inside, method, old, delay, context, required, bound, authentic, admissible, waiting, less⟩ :=
    lengthened
  have early : Nojs.verify v.w.crates v.cfg.key ((v.r.queryParam (ascii "t")).getD []) v.t.clock context =
      .tooEarly old := by
    rw [Nojs.verify_eq authentic,Nojs.judge_eq admissible,if_pos waiting]
  exact ⟨_, _, _, _, _, access_rechallenges enabled usable inside method required bound early, less⟩

theorem honestPages_iff {v : Visit} (lawful : v.w.crates.Lawful) : HonestPages v ↔ ¬ Lengthened v := by
  constructor
  · intro honest lengthened
    obtain ⟨page, grant, url, delay, out, served, less⟩ := lengthened.served
    have covers := (honest page grant url delay out served).covers
    rw [Int64.le_iff_toInt_le] at covers
    rw [Int64.lt_iff_toInt_lt] at less
    omega
  · intro kept page grant url delay out served
    obtain ⟨linked, source⟩ := access_page_cases served
    rcases source with ⟨-, -, challenged, rfl⟩ | ⟨enabled, inside, method, old, early, rfl⟩
    · exact honest_of_covers lawful challenged.bound challenged.fresh linked (Int64.le_refl _)
    · refine honest_of_covers lawful early.bound early.fresh linked ?_
      obtain ⟨authentic, admissible, waiting⟩ := early.presented
      by_contra less
      exact kept ⟨enabled, early.usable, inside, method, old, grant.delay, grant.context, early.demanded, early.bound,
        authentic, admissible, waiting, Int64.not_le.mp less⟩

end Pages

/-- Over any sequence of requests and policies, every page announces at least the wait of its
grant exactly when no request presents a waiting grant of less than the required delay. -/
theorem pages_honest_iff (visits : List Visit) (lawful : ∀ v ∈ visits, v.w.crates.Lawful) :
    (∀ v ∈ visits, HonestPages v) ↔ ∀ v ∈ visits, ¬ Lengthened v := by
  constructor
  · intro honest v member
    exact (honestPages_iff (lawful v member)).mp (honest v member)
  · intro kept v member
    exact (honestPages_iff (lawful v member)).mpr (kept v member)

section Sample

/-- The reference location under a constant decision. -/
def sampleLocation (decision : String) : LocationConf :=
  { Reference.location with decision := some fun _ => some (ascii decision) }

/-- A request of the start page under a wait of five seconds. -/
def sampleVisit : Visit where
  w := Reference.worker
  r := Reference.request (ascii "/")
  lc := sampleLocation "challenge:nojs:5"
  cfg := Reference.cfg
  t := Reference.readings 1700000000

theorem pages_honest_gate : HonestPages sampleVisit := by
  have lawful : ∀ v ∈ [sampleVisit], v.w.crates.Lawful := List.forall_mem_singleton.mpr Reference.lawful
  apply (pages_honest_iff [sampleVisit] lawful).mpr
  · rintro v member lengthened
    obtain rfl := List.mem_singleton.mp member
    have inside := lengthened.inside
    revert inside
    decide
  · exact List.mem_singleton_self _

def sampleGrant (delay iat : Int64) (context : Bytes) : Bytes :=
  Nojs.issue Reference.crates Reference.cfg.key (Vector.replicate 16 0) (ascii "/") delay iat context

/-- The grant of that page, presented after one second, when the policy asks for thirty. -/
def earlyVisit (context : Bytes) : Visit where
  w := Reference.worker
  r := { Reference.request (ascii "/.pow/pass") with args := ascii "t" ++ 61 :: sampleGrant 5 1700000000 context }
  lc := sampleLocation "challenge:nojs:30"
  cfg := Reference.cfg
  t := Reference.readings 1700000001

/-- The page announces five seconds for a grant of thirty, which is too early after five. -/
theorem page_early_after_change : ∃ context page grant out,
    clientContext Reference.crates Reference.worker.issuer (earlyVisit context).r Reference.cfg = some context ∧
    powGateAccess Reference.worker (earlyVisit context).r Reference.cfg (earlyVisit context).t (earlyVisit context).lc =
      .nojsPage page grant (passUrl Reference.cfg (Nojs.text Reference.crates Reference.cfg.key grant)) 5 out ∧
    grant.delay = 30 ∧ grant.iat = 1700000001 ∧
    Nojs.verify Reference.crates Reference.cfg.key (Nojs.text Reference.crates Reference.cfg.key grant) 1700000006
      context = .tooEarly grant := by
  obtain ⟨context, bound⟩ := reference_context
  have plain := clientContext_plain bound
  have ascii : IsAscii context := fun c member => (plain c member).2
  have verdict : ∀ delay iat now : Int64, 1 ≤ delay ∧ delay ≤ 30 → iat.toInt ≤ now.toInt → now.toInt < iat.toInt + 120 →
      now < iat + delay → Nojs.verify Reference.crates Reference.cfg.key (sampleGrant delay iat context) now context =
        .tooEarly (Nojs.newGrant (Vector.replicate 16 0) (Text.ascii "/") delay iat context) := by
    intro delay iat now range begun soon early
    have short : (sampleGrant delay iat context).length ≤ 8192 := by
      have first := integer_length_word (Int64.le_toInt iat) (by have := Int64.toInt_lt iat; omega)
      have second := integer_length_word (Int64.le_toInt delay) (by have := Int64.toInt_lt delay; omega)
      have root : (Nojs.safePath (Text.ascii "/")).length = 1 := by decide
      rw [sampleGrant,Nojs.issue_length (clientContext_length bound) fun c member => (plain c member).1]
      omega
    rw [sampleGrant,Nojs.verify_issue Reference.lawful ascii range short begun soon,if_pos early]
  have presented : (earlyVisit context).r.queryParam (Text.ascii "t") = some (sampleGrant 5 1700000000 context) := by
    apply Request.queryParam_single _ rfl (by decide)
    intro member
    exact (b64url_visible _ _ 38 member).2.1 rfl
  have early : Nojs.verify Reference.crates Reference.cfg.key
      (((earlyVisit context).r.queryParam (Text.ascii "t")).getD []) 1700000001 context =
        .tooEarly (Nojs.newGrant (Vector.replicate 16 0) (Text.ascii "/") 5 1700000000 context) := by
    rw [presented]
    exact verdict 5 1700000000 1700000001 ⟨by decide, by decide⟩ (by decide) (by decide) (by decide)
  have inside : endpointSuffix (Reference.request (Text.ascii "/.pow/pass")) Reference.cfg = some (Text.ascii "pass") := by
    decide
  have demanded : requiredAssurance (Reference.request (Text.ascii "/")) Reference.cfg
      (sampleLocation "challenge:nojs:30") = .noJs 30 := by decide
  have served : powGateAccess Reference.worker (earlyVisit context).r Reference.cfg (earlyVisit context).t
      (earlyVisit context).lc = _ :=
    access_rechallenges rfl (by decide) inside rfl demanded bound early
  refine ⟨context, _, _, _, bound, served, rfl, rfl, ?_⟩
  exact verdict 30 1700000001 1700000006 ⟨by decide, by decide⟩ (by decide) (by decide) (by decide)

end Sample

end PowGate
